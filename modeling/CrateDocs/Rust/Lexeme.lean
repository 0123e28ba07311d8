import CrateDocs.Syntax.Pattern
import CrateDocs.Text.Identifier

namespace CrateDocs.Rust

open Utf8 (Glyph)
open Syntax (Lexeme)

def glyphIs (p : Char → Bool) (g : Glyph) : Bool :=
  g.char?.any p

-- How many glyphs at the start satisfy `p`.
def runLength (p : Char → Bool) (gs : List Glyph) : Nat :=
  (gs.takeWhile (glyphIs p)).length

-- Whether the next glyph satisfies `p`.
def nextIs (p : Char → Bool) (gs : List Glyph) : Bool :=
  gs.head?.any (glyphIs p)

def startsWithChars : List Char → List Glyph → Bool
  | [], _ => true
  | _ :: _, [] => false
  | c :: cs, g :: gs => g.char? == some c && startsWithChars cs gs

-- The characters of some glyphs.
def glyphText (gs : List Glyph) : String :=
  String.ofList (gs.filterMap (·.char?))

namespace Lexeme

-- A fixed text.
def exactly (text : String) : Lexeme := fun gs =>
  if startsWithChars text.toList gs then some text.length else none

-- A fixed text that none of the given characters follows.
def exactlyNotBefore (text : String) (following : List Char) : Lexeme := fun gs =>
  match exactly text gs with
  | some count => if nextIs following.contains (gs.drop count) then none else some count
  | none => none

-- An identifier without the mark that makes it raw.
def plainIdentifier : Lexeme
  | [] => none
  | g :: rest =>
    if glyphIs Text.isIdentifierStart g then some (runLength Text.isIdentifierPart rest + 1) else none

-- An identifier; keywords are identifiers too.
def identifier : Lexeme := fun gs =>
  if startsWithChars ['r', '#'] gs then
    match plainIdentifier (gs.drop 2) with
    | some count => some (count + 2)
    | none => plainIdentifier gs
  else plainIdentifier gs

-- An identifier that is none of the given words.
def identifierBut (words : List String) : Lexeme := fun gs =>
  match identifier gs with
  | some count => if words.contains (glyphText (gs.take count)) then none else some count
  | none => none

-- An identifier that is one of the given words.
def identifierIn (words : List String) : Lexeme := fun gs =>
  match identifier gs with
  | some count => if words.contains (glyphText (gs.take count)) then some count else none
  | none => none

def keyword (word : String) : Lexeme := fun gs =>
  match exactly word gs with
  | some count => if nextIs Text.isIdentifierPart (gs.drop count) then none else some count
  | none => none

-- A dollar sign and a name, as macros use them.
def metavariable : Lexeme
  | [] => none
  | g :: rest =>
    if g.char? == some '$' then (plainIdentifier rest).map (· + 1) else none

def isDecimal (c : Char) : Bool := '0' ≤ c && c ≤ '9'
def isHexadecimal (c : Char) : Bool := isDecimal c || ('a' ≤ c && c ≤ 'f') || ('A' ≤ c && c ≤ 'F')

-- The types that can follow the digits of a number.
def numberTypes : List String :=
  ["u8", "i8", "u16", "i16", "u32", "i32", "u64", "i64", "u128", "i128", "isize", "usize", "f32",
    "f64"]

-- The digits of an integer in one of the bases that a mark announces.
def basedDigits (mark : List Char) (isDigit : Char → Bool) (gs : List Glyph) : Option Nat :=
  if startsWithChars mark gs then
    let count := runLength (fun c => isDigit c || c == '_') (gs.drop mark.length)
    if count == 0 then none else some (mark.length + count)
  else none

def decimalDigits (gs : List Glyph) : Option Nat :=
  if nextIs isDecimal gs then some (runLength (fun c => isDecimal c || c == '_') gs) else none

def integer : Lexeme := fun gs =>
  let digits? :=
    basedDigits ['0', 'x'] isHexadecimal gs <|> basedDigits ['0', 'b'] (fun c => c == '0' || c == '1') gs
      <|> basedDigits ['0', 'o'] (fun c => '0' ≤ c && c ≤ '7') gs <|> decimalDigits gs
  digits?.map fun count =>
    count + ((numberTypes.findSome? fun type => exactly type (gs.drop count)).getD 0)

-- The fraction of a number: the point and the digits after it. A point before a letter or another
-- point is not part of a number.
def fraction (gs : List Glyph) : Option Nat :=
  match gs with
  | [] => none
  | g :: rest =>
    if g.char? == some '.' && !nextIs (fun c => c == '.' || (Text.isIdentifierStart c && c != '_')) rest
    then some (runLength (fun c => isDecimal c || c == '_') rest + 1)
    else none

-- The exponent of a number. One without digits counts as present, but takes nothing.
def exponent (gs : List Glyph) : Option Nat :=
  match gs with
  | [] => none
  | g :: rest =>
    if g.char? == some 'e' || g.char? == some 'E' then
      let sign := if nextIs (fun c => c == '+' || c == '-') rest then 1 else 0
      let digits := runLength (fun c => isDecimal c || c == '_') (rest.drop sign)
      some (if digits == 0 then 0 else 1 + sign + digits)
    else none

-- The type after a number with a fraction or an exponent.
def numberSuffix (gs : List Glyph) : Nat :=
  match gs with
  | [] => 0
  | g :: rest =>
    let digits := runLength isDecimal rest
    if glyphIs (fun c => c == 'u' || c == 'i' || c == 'f') g && digits != 0 then 1 + digits else 0

-- A number with a fraction or an exponent.
def float : Lexeme := fun gs =>
  match decimalDigits gs with
  | none => none
  | some whole =>
    let afterWhole := gs.drop whole
    let pointAhead := nextIs (· == '.') afterWhole
    match fraction afterWhole with
    | none =>
      if pointAhead then none
      else
        match exponent afterWhole with
        | none => none
        | some 0 => some whole
        | some power => some (whole + power + numberSuffix (afterWhole.drop power))
    | some part =>
      let afterPart := afterWhole.drop part
      match exponent afterPart with
      | some 0 => some (whole + part)
      | power? =>
        let power := power?.getD 0
        some (whole + part + power + numberSuffix (afterPart.drop power))

-- What follows the backslash of an escape.
def escape (gs : List Glyph) : Option Nat :=
  match gs with
  | [] => none
  | g :: rest =>
    if g.char? == some 'x' then
      if 2 ≤ runLength isHexadecimal rest then some 3 else none
    else if g.char? == some 'u' then
      if nextIs (· == '\x7b') rest then
        let digits := runLength isHexadecimal (rest.drop 1)
        if digits != 0 && nextIs (· == '\x7d') (rest.drop (1 + digits)) then some (digits + 3) else none
      else if 4 ≤ runLength isHexadecimal rest then some 5 else none
    else some 1

-- The rest of a string, its closing mark included. The first argument counts the glyphs of an
-- escape still to be passed over.
def stringRest : Nat → List Glyph → Option Nat
  | _, [] => none
  | skip + 1, _ :: rest => (stringRest skip rest).map (· + 1)
  | 0, g :: rest =>
    if g.char? == some '"' then some 1
    else if g.char? == some '\\' then
      match escape rest with
      | some count => (stringRest count rest).map (· + 1)
      | none => none
    else (stringRest 0 rest).map (· + 1)

def string : Lexeme := fun gs =>
  ["\"", "b\"", "c\""].findSome? fun opening =>
    match exactly opening gs with
    | some count => (stringRest 0 (gs.drop count)).map (· + count)
    | none => none

-- The rest of a raw string, whose closing mark is followed by as many hashes as it was opened with.
def rawStringRest (hashes : Nat) : List Glyph → Option Nat
  | [] => none
  | g :: rest =>
    if g.char? == some '"' && startsWithChars (List.replicate hashes '#') rest then some (hashes + 1)
    else (rawStringRest hashes rest).map (· + 1)

def rawString : Lexeme := fun gs =>
  ["r", "br", "cr"].findSome? fun opening =>
    match exactly opening gs with
    | some count =>
      let hashes := runLength (· == '#') (gs.drop count)
      let content := gs.drop (count + hashes)
      if nextIs (· == '"') content then
        (rawStringRest hashes (content.drop 1)).map (· + count + hashes + 1)
      else none
    | none => none

-- What may stand between the marks of a character: one glyph, an escape, or nothing.
def charContent (gs : List Glyph) : Option Nat :=
  match gs with
  | [] => none
  | g :: rest =>
    if g.char? == some '\'' then some 0
    else if g.char? == some '\\' then (escape rest).map (· + 1)
    else some 1

def char : Lexeme := fun gs =>
  ["'", "b'"].findSome? fun opening =>
    match exactly opening gs with
    | some count =>
      match charContent (gs.drop count) with
      | some content =>
        if nextIs (· == '\'') (gs.drop (count + content)) then some (count + content + 1) else none
      | none => none
    | none => none

def blank : Lexeme := fun gs =>
  let count := runLength (fun c => c == ' ' || ('\t' ≤ c && c ≤ '\r')) gs
  if count == 0 then none else some count

-- A comment to the end of its line. The line break belongs to it if it documents something.
def lineComment : Lexeme := fun gs =>
  if startsWithChars ['/', '/'] gs then
    let after := gs.drop 2
    let documents := nextIs (· == '!') after || (nextIs (· == '/') after && !nextIs (· == '/') (after.drop 1))
    let count := (gs.takeWhile fun g => g.char? != some '\n').length
    some (if documents && count < gs.length then count + 1 else count)
  else none

-- Where the reading of a block comment stands: after a slash, after an asterisk, or elsewhere.
inductive CommentSpot
  | slash
  | asterisk
  | elsewhere

-- Whether the low byte of a glyph's code point is that of an ASCII character.
def lowByteIs (c : Char) (g : Glyph) : Bool :=
  g.char?.any fun d => d.toNat % 256 == c.toNat

-- The rest of a block comment inside `depth + 1` open ones.
def blockCommentRest : Nat → CommentSpot → List Glyph → Option Nat
  | _, _, [] => none
  | depth, .elsewhere, g :: rest =>
    let spot : CommentSpot :=
      if lowByteIs '/' g then .slash else if lowByteIs '*' g then .asterisk else .elsewhere
    (blockCommentRest depth spot rest).map (· + 1)
  | depth, .slash, g :: rest =>
    (blockCommentRest (if lowByteIs '*' g then depth + 1 else depth) .elsewhere rest).map (· + 1)
  | depth, .asterisk, g :: rest =>
    if lowByteIs '*' g then (blockCommentRest depth .asterisk rest).map (· + 1)
    else if lowByteIs '/' g then
      match depth with
      | 0 => if g.char? == some '/' then some 1 else none
      | depth + 1 => (blockCommentRest depth .elsewhere rest).map (· + 1)
    else (blockCommentRest depth .elsewhere rest).map (· + 1)

-- A block comment. They nest, and one that documents what it is in is not empty.
def blockComment : Lexeme := fun gs =>
  if startsWithChars ['/', '*', '!', '*', '/'] gs then none
  else if startsWithChars ['/', '*'] gs then
    (blockCommentRest 0 .elsewhere (gs.drop 2)).map (· + 2)
  else none

-- The first line of a script that names its interpreter, with its line break.
def shebang : Lexeme := fun gs =>
  let line := (gs.takeWhile fun g => g.char? != some '\n').length
  if startsWithChars ['#', '!'] gs && !nextIs (· == '[') (gs.drop 2) && line < gs.length then
    some (line + 1)
  else none

end Lexeme

-- Blanks and comments, which may stand between any two tokens.
def trivia : Syntax.Pattern.Trivia where
  blank := Lexeme.blank
  comments := [("line_comment", Lexeme.lineComment), ("block_comment", Lexeme.blockComment)]

end CrateDocs.Rust
