import CrateDocs.Json.Basic
import CrateDocs.Text.Quoted

namespace CrateDocs.Json

-- How a character is written in a string: quotation mark, backslash and the controls are escaped.
def escapedChar (c : Char) : List Char :=
  if c == '"' then ['\\', '"']
  else if c == '\\' then ['\\', '\\']
  else if c == '\x08' then ['\\', 'b']
  else if c == '\t' then ['\\', 't']
  else if c == '\n' then ['\\', 'n']
  else if c == '\x0c' then ['\\', 'f']
  else if c == '\r' then ['\\', 'r']
  else if c.toNat < 0x20 then '\\' :: 'u' :: Text.hexText 4 c.toNat
  else [c]

def stringText (s : String) : List Char :=
  '"' :: s.toList.flatMap escapedChar ++ ['"']

-- The text of a value on one line, without blanks.
mutual
def compact : Json → List Char
  | null => "null".toList
  | bool value => (if value then "true" else "false").toList
  | number digits => digits.toList
  | string value => stringText value
  | array [] => ['[', ']']
  | array (item :: items) => '[' :: (compact item ++ compactItems items)
  | object [] => ['\x7b', '\x7d']
  | object ((key, value) :: fields) =>
    '\x7b' :: (stringText key ++ ':' :: (compact value ++ compactFields fields))
def compactItems : List Json → List Char
  | [] => [']']
  | item :: items => ',' :: (compact item ++ compactItems items)
def compactFields : List (String × Json) → List Char
  | [] => ['\x7d']
  | (key, value) :: fields =>
    ',' :: (stringText key ++ ':' :: (compact value ++ compactFields fields))
end

-- A line break and the blanks that start a line `depth` levels in.
def lineStart (depth : Nat) : List Char :=
  '\n' :: List.replicate (2 * depth) ' '

-- The text of a value with every item and field on a line of its own, two blanks further in than
-- the value that holds it. Empty containers stay on one line.
mutual
def indented (depth : Nat) : Json → List Char
  | null => "null".toList
  | bool value => (if value then "true" else "false").toList
  | number digits => digits.toList
  | string value => stringText value
  | array [] => ['[', ']']
  | array (item :: items) =>
    '[' :: (lineStart (depth + 1) ++ (indented (depth + 1) item ++ indentedItems depth items))
  | object [] => ['\x7b', '\x7d']
  | object ((key, value) :: fields) =>
    '\x7b' :: (lineStart (depth + 1) ++ (stringText key ++
      ':' :: ' ' :: (indented (depth + 1) value ++ indentedFields depth fields)))
def indentedItems (depth : Nat) : List Json → List Char
  | [] => lineStart depth ++ [']']
  | item :: items =>
    ',' :: (lineStart (depth + 1) ++ (indented (depth + 1) item ++ indentedItems depth items))
def indentedFields (depth : Nat) : List (String × Json) → List Char
  | [] => lineStart depth ++ ['\x7d']
  | (key, value) :: fields =>
    ',' :: (lineStart (depth + 1) ++ (stringText key ++
      ':' :: ' ' :: (indented (depth + 1) value ++ indentedFields depth fields)))
end

end CrateDocs.Json
