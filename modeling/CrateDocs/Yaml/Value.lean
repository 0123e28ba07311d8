import CrateDocs.Json.Basic
import CrateDocs.Text.Percent
import CrateDocs.Text.Pieces

namespace CrateDocs.Yaml

-- Why a text is no document of this kind: it holds a character that cannot be printed, no token starts
-- or ends where it should, a token stands where it cannot, the tokens end too early, there is more than
-- one document, or a key is no scalar.
inductive Flaw
  | unprintable
  | unscannable
  | misplaced
  | cutShort
  | severalDocuments
  | badKey
deriving DecidableEq, Repr

def nullWords : List String := ["", "~", "null", "Null", "NULL"]

def trueWords : List String :=
  ["yes", "Yes", "YES", "true", "True", "TRUE", "on", "On", "ON"]

def falseWords : List String :=
  ["no", "No", "NO", "false", "False", "FALSE", "off", "Off", "OFF"]

def infinityWords : List String := [".inf", ".Inf", ".INF"]
def nanWords : List String := [".nan", ".NaN", ".NAN"]

def isDecimal (c : Char) : Bool := '0' ≤ c && c ≤ '9'
def isDecimalPart (c : Char) : Bool := isDecimal c || c == '_'

-- The value of digits of some base, underscores among them. There has to be a digit.
def digitsValue? (base : Nat) (cs : List Char) : Option Nat :=
  let ds := cs.filter (· != '_')
  if ds.isEmpty then none
  else
    ds.foldlM (fun n c => do
      let digit ← Percent.hexValue? c
      if digit < base then some (base * n + digit) else none) 0

-- The value of parts with colons between them, each but the first below sixty.
def sixtiethsValue? (first : Nat) : List (List Char) → Option Nat
  | [] => some first
  | part :: rest => do
    let value ← if part.length ≤ 2 && part.all isDecimal then digitsValue? 10 part else none
    if value < 60 then sixtiethsValue? (60 * first + value) rest else none

-- The value of an integer without its sign: in base 2, 8, 16, 10, or in hours, minutes and seconds.
def naturalValue? : List Char → Option Nat
  | ['0'] => some 0
  | '0' :: 'x' :: rest => digitsValue? 16 rest
  | '0' :: 'b' :: rest => digitsValue? 2 rest
  | '0' :: rest => digitsValue? 8 rest
  | cs =>
    match (Text.split ":" (String.ofList cs)).map String.toList with
    | first :: rest =>
      if first.head?.any isDecimal && first.all isDecimalPart then do
        sixtiethsValue? (← digitsValue? 10 first) rest
      else none
    | [] => none

-- A sign and what follows it. A plus sign is dropped.
def splitSign : List Char → String × List Char
  | '-' :: rest => ("-", rest)
  | '+' :: rest => ("", rest)
  | cs => ("", cs)

-- The text of an integer in base 10.
def integer? (cs : List Char) : Option String :=
  let (sign, digits) := splitSign cs
  (naturalValue? digits).map fun n => if n == 0 then "0" else sign ++ toString n

-- Whether characters are an exponent with its sign, or nothing.
def isExponent : List Char → Bool
  | [] => true
  | e :: sign :: digits =>
    (e == 'e' || e == 'E') && (sign == '+' || sign == '-') && !digits.isEmpty && digits.all isDecimal
  | _ => false

-- The text of a number with a point, with a digit on either side of it. A number that starts with the
-- point has no sign.
def fraction? (cs : List Char) : Option String :=
  let (sign, unsigned) := splitSign cs
  let whole := unsigned.takeWhile isDecimalPart
  match unsigned.drop whole.length with
  | '.' :: rest =>
    let part := rest.takeWhile isDecimalPart
    let exponent := rest.drop part.length
    let starts :=
      if whole.isEmpty then unsigned.length == cs.length && part.head?.any isDecimal
      else whole.head?.any isDecimal
    if starts && isExponent exponent then
      let left := (whole.filter isDecimal).dropWhile (· == '0')
      let right := part.filter isDecimal
      some (sign ++ String.ofList ((if left.isEmpty then ['0'] else left) ++ ['.'] ++
        (if right.isEmpty then ['0'] else right) ++ exponent))
    else none
  | _ => none

-- The text of a number that no digits can write.
def special? (cs : List Char) : Option String :=
  let (sign, word) := splitSign cs
  if infinityWords.contains (String.ofList word) then some (sign ++ "Infinity")
  else if nanWords.contains (String.ofList cs) then some "NaN"
  else none

-- The value of a scalar that is not quoted.
def plainValue (s : String) : Json :=
  if nullWords.contains s then .null
  else if trueWords.contains s then .bool true
  else if falseWords.contains s then .bool false
  else
    match (integer? s.toList).or ((fraction? s.toList).or (special? s.toList)) with
    | some digits => .number digits
    | none => .string s

-- A scalar as the key of a mapping.
def keyText? : Json → Option String
  | .string s => some s
  | .number digits => some digits
  | .bool value => some (if value then "true" else "false")
  | .null => some "null"
  | .array _ | .object _ => none

end CrateDocs.Yaml
