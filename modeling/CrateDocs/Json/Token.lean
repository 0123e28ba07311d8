import CrateDocs.Json.Basic
import CrateDocs.Text.Percent

namespace CrateDocs.Json

-- The pieces that JSON text is made of.
inductive Token
  | openArray
  | closeArray
  | openObject
  | closeObject
  | comma
  | colon
  | text (value : String)
  | atom (value : Json)

namespace Token

-- Where the reading of a string stands: between characters, after a backslash, or in the four
-- digits of a code unit. A first half of a surrogate pair waits for the second.
inductive Spot
  | plain (high : Option Nat)
  | escape (high : Option Nat)
  | digits (left value : Nat) (high : Option Nat)

-- The character that a letter after a backslash stands for.
def escaped? : Char → Option Char
  | '"' => some '"'
  | '\\' => some '\\'
  | '/' => some '/'
  | 'b' => some '\x08'
  | 'f' => some '\x0c'
  | 'n' => some '\n'
  | 'r' => some '\r'
  | 't' => some '\t'
  | _ => none

def isHighHalf (n : Nat) : Bool := 0xD800 ≤ n && n ≤ 0xDBFF
def isLowHalf (n : Nat) : Bool := 0xDC00 ≤ n && n ≤ 0xDFFF

-- The character of a surrogate pair.
def pair (high low : Nat) : Char :=
  Char.ofNat (0x10000 + (high - 0xD800) * 0x400 + (low - 0xDC00))

-- Reads a string up to its closing quotation mark. `read` holds what was read, back to front.
def textRest : List Char → Spot → List Char → Option (String × List Char)
  | [], _, _ => none
  | c :: rest, .plain none, read =>
    if c == '"' then some (String.ofList read.reverse, rest)
    else if c == '\\' then textRest rest (.escape none) read
    else if c.toNat < 0x20 then none
    else textRest rest (.plain none) (c :: read)
  | c :: rest, .plain (some high), read =>
    if c == '\\' then textRest rest (.escape (some high)) read else none
  | c :: rest, .escape high, read =>
    if c == 'u' then textRest rest (.digits 3 0 high) read
    else
      match high, escaped? c with
      | none, some e => textRest rest (.plain none) (e :: read)
      | _, _ => none
  | c :: rest, .digits left value high, read =>
    match Percent.hexValue? c with
    | none => none
    | some digit =>
      let unit := 16 * value + digit
      match left, high with
      | left + 1, _ => textRest rest (.digits left unit high) read
      | 0, some first =>
        if isLowHalf unit then textRest rest (.plain none) (pair first unit :: read) else none
      | 0, none =>
        if isHighHalf unit then textRest rest (.plain (some unit)) read
        else if isLowHalf unit then none
        else textRest rest (.plain none) (Char.ofNat unit :: read)

def isDecimal (c : Char) : Bool :=
  '0' ≤ c && c ≤ '9'

def isNumberPart (c : Char) : Bool :=
  isDecimal c || c == '+' || c == '-' || c == '.' || c == 'e' || c == 'E'

-- The characters after an exponent's mark: a sign or none, and digits.
def isExponent (cs : List Char) : Bool :=
  let digits := match cs with
    | '+' :: rest => rest
    | '-' :: rest => rest
    | _ => cs
  !digits.isEmpty && digits.all isDecimal

-- What may follow the digits before a number's point: a fraction or none, an exponent or none.
def isNumberTail (cs : List Char) : Bool :=
  let afterPoint : Option (List Char) := match cs with
    | '.' :: rest => if (rest.takeWhile isDecimal).isEmpty then none else some (rest.dropWhile isDecimal)
    | _ => some cs
  match afterPoint with
  | none => false
  | some [] => true
  | some (c :: rest) => (c == 'e' || c == 'E') && isExponent rest

-- The greatest number of characters before a number's point.
def integerLimit : Nat := 4300

-- Whether characters are a number: no sign but a minus, no needless zero in front.
def isNumber (cs : List Char) : Bool :=
  let unsigned := match cs with
    | '-' :: rest => rest
    | _ => cs
  let whole := unsigned.takeWhile isDecimal
  !whole.isEmpty && (whole.length == 1 || whole.head? != some '0') &&
    (cs.length - unsigned.length) + whole.length ≤ integerLimit &&
    isNumberTail (unsigned.dropWhile isDecimal)

-- The words that are values, the numbers without digits among them.
def words : List (String × Json) :=
  [("null", .null), ("true", .bool true), ("false", .bool false), ("NaN", .number "NaN"),
    ("Infinity", .number "Infinity"), ("-Infinity", .number "-Infinity")]

-- A word at the start of the characters, and the rest.
def word? (cs : List Char) : Option (Json × List Char) :=
  (words.find? fun word => word.1.toList.isPrefixOf cs).map fun word =>
    (word.2, cs.drop word.1.length)

def isSpace (c : Char) : Bool :=
  c == ' ' || c == '\t' || c == '\n' || c == '\r'

-- The token at the start of the characters, and the rest.
def first? : List Char → Option (Token × List Char)
  | [] => none
  | c :: rest =>
    if c == '[' then some (.openArray, rest)
    else if c == ']' then some (.closeArray, rest)
    else if c == '\x7b' then some (.openObject, rest)
    else if c == '\x7d' then some (.closeObject, rest)
    else if c == ',' then some (.comma, rest)
    else if c == ':' then some (.colon, rest)
    else if c == '"' then (textRest rest (.plain none) []).map fun read => (.text read.1, read.2)
    else
      match word? (c :: rest) with
      | some (value, left) => some (.atom value, left)
      | none =>
        let digits := (c :: rest).takeWhile isNumberPart
        if isNumber digits then
          some (.atom (.number (String.ofList digits)), (c :: rest).dropWhile isNumberPart)
        else none

-- The tokens of a text, blanks left out.
def scan (cs : List Char) : Option (List Token) :=
  match cs with
  | [] => some []
  | c :: rest =>
    if isSpace c then scan rest
    else
      match first? (c :: rest) with
      | none => none
      | some (token, left) =>
        if left.length < (c :: rest).length then (scan left).map (token :: ·) else none
termination_by cs.length
decreasing_by all_goals (simp only [List.length_cons] at *; omega)

end Token

end CrateDocs.Json
