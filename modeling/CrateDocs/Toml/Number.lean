import CrateDocs.Toml.Text

namespace CrateDocs.Toml

def isDecimal (c : Char) : Bool := '0' ≤ c && c ≤ '9'

-- Digits with single underscores between them. The flag says that a digit must come next.
def digitsRest (isDigit : Char → Bool) : Bool → List Char → List Char
  | _, [] => []
  | needed, c :: rest =>
    if isDigit c then digitsRest isDigit false rest
    else if c == '_' && !needed && rest.head?.any isDigit then digitsRest isDigit true rest
    else c :: rest

-- What follows one or more digits.
def digits? (isDigit : Char → Bool) (cs : List Char) : Option (List Char) :=
  if cs.head?.any isDigit then some (digitsRest isDigit true cs) else none

-- What follows an integer in base 16, 2 or 8.
def basedInteger? : List Char → Option (List Char)
  | '0' :: 'x' :: rest => digits? (fun c => (Percent.hexValue? c).isSome) rest
  | '0' :: 'b' :: rest => digits? (fun c => c == '0' || c == '1') rest
  | '0' :: 'o' :: rest => digits? (fun c => '0' ≤ c && c ≤ '7') rest
  | _ => none

def dropSign : List Char → List Char
  | '+' :: rest => rest
  | '-' :: rest => rest
  | cs => cs

-- What follows the whole part of a decimal number: a zero, or digits that start with none.
def whole? : List Char → Option (List Char)
  | '0' :: rest => some rest
  | cs => digits? isDecimal cs

def fraction? : List Char → Option (List Char)
  | '.' :: rest => digits? isDecimal rest
  | _ => none

def exponent? : List Char → Option (List Char)
  | c :: rest => if c == 'e' || c == 'E' then digits? isDecimal (dropSign rest) else none
  | [] => none

-- What follows a number. A whole number has a limited count of digits.
def number? (cs : List Char) : Except Flaw (Option (List Char)) :=
  match basedInteger? cs with
  | some rest => .ok (some rest)
  | none =>
    let unsigned := dropSign cs
    match whole? unsigned with
    | none => .ok none
    | some afterWhole =>
      let afterFraction := (fraction? afterWhole).getD afterWhole
      let rest := (exponent? afterFraction).getD afterFraction
      let count := ((unsigned.take (unsigned.length - afterWhole.length)).filter isDecimal).length
      if rest.length == afterWhole.length && Text.digitLimit < count then .error (.digits ⟨count⟩)
      else .ok (some rest)

-- The value of `count` decimal digits, and what follows them.
def fixedDigits? (count : Nat) (cs : List Char) : Option (Nat × List Char) :=
  let ds := cs.take count
  if ds.length == count && ds.all isDecimal then some (Text.decimalValue ds, cs.drop count) else none

-- A fixed count of digits whose value lies between two bounds.
def fieldBetween? (count low high : Nat) (cs : List Char) : Option (Nat × List Char) := do
  let (value, rest) ← fixedDigits? count cs
  if low ≤ value && value ≤ high then some (value, rest) else none

def mark? (c : Char) : List Char → Option (List Char)
  | d :: rest => if c == d then some rest else none
  | [] => none

-- What follows the time of a day.
def time? (cs : List Char) : Option (List Char) := do
  let (_, rest) ← fieldBetween? 2 0 23 cs
  let (_, rest) ← fieldBetween? 2 0 59 (← mark? ':' rest)
  let (_, rest) ← fieldBetween? 2 0 59 (← mark? ':' rest)
  match rest with
  | '.' :: c :: more => if isDecimal c then some (more.dropWhile isDecimal) else some rest
  | _ => some rest

def daysIn (year month : Nat) : Nat :=
  if month == 2 then
    if year % 4 == 0 && (year % 100 != 0 || year % 400 == 0) then 29 else 28
  else if [4, 6, 9, 11].contains month then 30
  else 31

-- What follows the difference from universal time.
def offset? : List Char → Option (List Char)
  | [] => none
  | c :: rest =>
    if c == 'Z' || c == 'z' then some rest
    else if c == '+' || c == '-' then do
      let (_, rest) ← fieldBetween? 2 0 23 rest
      let (_, rest) ← fieldBetween? 2 0 59 (← mark? ':' rest)
      return rest
    else none

-- A date with what follows it: its year, month and day.
def date? (cs : List Char) : Option (Nat × Nat × Nat × List Char) := do
  let (year, rest) ← fixedDigits? 4 cs
  let (month, rest) ← fieldBetween? 2 1 12 (← mark? '-' rest)
  let (day, rest) ← fieldBetween? 2 1 31 (← mark? '-' rest)
  return (year, month, day, rest)

-- What follows a date, with or without a time. Its year and its day have to exist.
def moment? (cs : List Char) : Except Flaw (Option (List Char)) :=
  match date? cs with
  | none => .ok none
  | some (year, month, day, rest) =>
    let afterTime := match rest with
      | c :: more =>
        if c == 'T' || c == 't' || c == ' ' then
          (time? more).map fun left => (offset? left).getD left
        else none
      | [] => none
    if year == 0 || daysIn year month < day then .error .noSuchDay
    else .ok (some (afterTime.getD rest))

-- Numbers that are written in letters.
def specialNumbers : List String := ["inf", "nan", "-inf", "+inf", "-nan", "+nan"]

-- What follows a truth value, a time or a number.
def other? (cs : List Char) : Except Flaw (Option (List Char)) := do
  let word? (words : List String) : Option (List Char) :=
    words.findSome? fun word => if word.toList.isPrefixOf cs then some (cs.drop word.length) else none
  if let some rest := word? ["true", "false"] then return some rest
  if let some rest := ← moment? cs then return some rest
  if let some rest := time? cs then return some rest
  if let some rest := ← number? cs then return some rest
  return word? specialNumbers

end CrateDocs.Toml
