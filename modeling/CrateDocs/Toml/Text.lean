import CrateDocs.Text.Percent
import CrateDocs.Toml.Basic

namespace CrateDocs.Toml

def isSpace (c : Char) : Bool := c == ' ' || c == '\t'
def isGap (c : Char) : Bool := isSpace c || c == '\n'

-- Control characters, none of which may stand in a text of one line or a comment. The tab is none.
def isIllegal (c : Char) : Bool :=
  (c.toNat < 0x20 || c.toNat == 0x7F) && c != '\t'

-- Passes over blanks, line breaks and comments. The flag says that a comment is being read.
def skipGaps : Bool → List Char → Option (List Char)
  | _, [] => some []
  | true, c :: rest =>
    if c == '\n' then skipGaps false rest else if isIllegal c then none else skipGaps true rest
  | false, c :: rest =>
    if isGap c then skipGaps false rest else if c == '#' then skipGaps true rest else some (c :: rest)

-- A text between apostrophes, of which the first was read.
def literalRest (cs : List Char) : Except Flaw (String × List Char) :=
  let content := cs.takeWhile (· != '\'')
  match cs.dropWhile (· != '\'') with
  | _ :: rest =>
    if content.any isIllegal then .error .malformed else .ok (String.ofList content, rest)
  | [] => .error .openLiteral

-- What stands before and after the next three apostrophes. `read` holds what was read, back to front.
def splitAtApostrophes : List Char → List Char → Option (List Char × List Char)
  | _, [] => none
  | read, c :: rest =>
    if ['\'', '\'', '\''].isPrefixOf (c :: rest) then some (read.reverse, rest.drop 2)
    else splitAtApostrophes (c :: read) rest

-- A text up to three apostrophes.
def longLiteralRest (cs : List Char) : Except Flaw (List Char × List Char) :=
  match splitAtApostrophes [] cs with
  | none => .error .openLiteral
  | some (content, rest) =>
    if content.any fun c => isIllegal c && c != '\n' then .error .malformed else .ok (content, rest)

-- The character that a letter after a backslash stands for.
def escaped? : Char → Option Char
  | 'b' => some '\x08'
  | 't' => some '\t'
  | 'n' => some '\n'
  | 'f' => some '\x0c'
  | 'r' => some '\r'
  | '"' => some '"'
  | '\\' => some '\\'
  | _ => none

-- Where the reading of a text stands: between characters, after a backslash, in the digits of a code
-- point, in the blanks before an escaped line break, or in those after it.
inductive Spot
  | plain
  | escape
  | digits (left value : Nat)
  | lineEnd
  | gap

def isScalar (n : Nat) : Bool :=
  n < 0xD800 || (0xDFFF < n && n < 0x110000)

-- A text up to its closing quotation mark, or three of them if it is `long`. `read` holds what was
-- read, back to front.
def basicRest (long : Bool) : Spot → List Char → List Char → Except Flaw (List Char × List Char)
  | .escape, _, [] => .error .unknownEscape
  | .digits _ _, _, [] => .error .malformed
  | .plain, _, [] | .lineEnd, _, [] | .gap, _, [] => .error .openText
  | .escape, read, c :: rest =>
    if long && isSpace c then basicRest long .lineEnd read rest
    else if long && c == '\n' then basicRest long .gap read rest
    else if c == 'u' then basicRest long (.digits 3 0) read rest
    else if c == 'U' then basicRest long (.digits 7 0) read rest
    else
      match escaped? c with
      | some e => basicRest long .plain (e :: read) rest
      | none => .error .unknownEscape
  | .digits left value, read, c :: rest =>
    match Percent.hexValue? c with
    | none => .error .malformed
    | some digit =>
      let code := 16 * value + digit
      match left with
      | left + 1 => basicRest long (.digits left code) read rest
      | 0 =>
        if isScalar code then basicRest long .plain (Char.ofNat code :: read) rest
        else .error .malformed
  | .lineEnd, read, c :: rest =>
    if isSpace c then basicRest long .lineEnd read rest
    else if c == '\n' then basicRest long .gap read rest
    else .error .malformed
  | .gap, read, c :: rest =>
    if isGap c then basicRest long .gap read rest
    else if c == '"' then
      if !long then .ok (read.reverse, rest)
      else if ['"', '"'].isPrefixOf rest then .ok (read.reverse, rest.drop 2)
      else basicRest long .plain (c :: read) rest
    else if c == '\\' then basicRest long .escape read rest
    else if isIllegal c && !(long && c == '\n') then .error .malformed
    else basicRest long .plain (c :: read) rest
  | .plain, read, c :: rest =>
    if c == '"' then
      if !long then .ok (read.reverse, rest)
      else if ['"', '"'].isPrefixOf rest then .ok (read.reverse, rest.drop 2)
      else basicRest long .plain (c :: read) rest
    else if c == '\\' then basicRest long .escape read rest
    else if isIllegal c && !(long && c == '\n') then .error .malformed
    else basicRest long .plain (c :: read) rest

-- Up to two more marks right after three of them belong to the text before.
def withLateMarks (mark : Char) (content rest : List Char) : String × List Char :=
  let late := (rest.takeWhile (· == mark)).length.min 2
  (String.ofList (content ++ List.replicate late mark), rest.drop late)

-- A long text starts after a line break that follows its opening marks.
def dropLineBreak : List Char → List Char
  | '\n' :: rest => rest
  | cs => cs

-- A text in quotation marks or apostrophes.
def textValue (cs : List Char) : Except Flaw (String × List Char) :=
  if ['"', '"', '"'].isPrefixOf cs then
    (basicRest true .plain [] (dropLineBreak (cs.drop 3))).map fun (content, rest) =>
      withLateMarks '"' content rest
  else if ['"'].isPrefixOf cs then
    (basicRest false .plain [] (cs.drop 1)).map fun (content, rest) => (String.ofList content, rest)
  else if ['\'', '\'', '\''].isPrefixOf cs then
    (longLiteralRest (dropLineBreak (cs.drop 3))).map fun (content, rest) =>
      withLateMarks '\'' content rest
  else if ['\''].isPrefixOf cs then literalRest (cs.drop 1)
  else .error .malformed

def isBareKey (c : Char) : Bool :=
  ('a' ≤ c && c ≤ 'z') || ('A' ≤ c && c ≤ 'Z') || ('0' ≤ c && c ≤ '9') || c == '-' || c == '_'

-- One part of a key: bare, or a text of one line.
def keyPart (cs : List Char) : Except Flaw (String × List Char) :=
  match cs with
  | [] => .error .malformed
  | c :: rest =>
    if isBareKey c then .ok (String.ofList (cs.takeWhile isBareKey), cs.dropWhile isBareKey)
    else if c == '\'' then literalRest rest
    else if c == '"' then
      (basicRest false .plain [] rest).map fun (content, left) => (String.ofList content, left)
    else .error .malformed

-- The parts of a key, with dots between them, and the blanks after it. The first argument bounds
-- the number of parts.
def key : Nat → List Char → Except Flaw (Key × List Char)
  | 0, _ => .error .malformed
  | limit + 1, cs => do
    let (part, afterPart) ← keyPart cs
    match afterPart.dropWhile isSpace with
    | '.' :: rest =>
      let (parts, left) ← key limit (rest.dropWhile isSpace)
      return (part :: parts, left)
    | left => return ([part], left)

end CrateDocs.Toml
