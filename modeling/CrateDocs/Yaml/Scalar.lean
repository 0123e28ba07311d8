import CrateDocs.Yaml.Value

namespace CrateDocs.Yaml

def isBlank (c : Char) : Bool := c == ' ' || c == '\t'

-- Whether a blank, the end of a line or the end of the text comes next.
def atGap : List Char → Bool
  | [] => true
  | c :: _ => isBlank c || c == '\n'

-- Whether a line that starts here marks the start or the end of a document.
def atDocumentMark (cs : List Char) : Bool :=
  (['-', '-', '-'].isPrefixOf cs || ['.', '.', '.'].isPrefixOf cs) && atGap (cs.drop 3)

-- What line breaks inside a scalar stand for: a single one for a blank, several for one less.
def foldBreaks (count : Nat) : List Char :=
  if count == 0 then [' '] else List.replicate count '\n'

-- The character that a letter after a backslash stands for.
def escaped? : Char → Option Char
  | '0' => some '\x00'
  | 'a' => some '\x07'
  | 'b' => some '\x08'
  | 't' => some '\t'
  | '\t' => some '\t'
  | 'n' => some '\n'
  | 'v' => some '\x0b'
  | 'f' => some '\x0c'
  | 'r' => some '\r'
  | 'e' => some '\x1b'
  | ' ' => some ' '
  | '"' => some '"'
  | '/' => some '/'
  | '\\' => some '\\'
  | 'N' => some '\u0085'
  | '_' => some '\u00A0'
  | 'L' => some '\u2028'
  | 'P' => some '\u2029'
  | _ => none

-- How many digits follow a letter that announces a code point.
def escapeDigits? : Char → Option Nat
  | 'x' => some 2
  | 'u' => some 4
  | 'U' => some 8
  | _ => none

-- What was read between two characters of a quoted scalar that are no blanks: blanks, back to front; or
-- line breaks, by their number after the first one, which a backslash may have escaped.
inductive Gap
  | blanks (read : List Char)
  | breaks (count : Nat) (escaped : Bool)

namespace Gap

def addBlank (c : Char) : Gap → Gap
  | blanks read => blanks (c :: read)
  | breaks count escaped => breaks count escaped

def addBreak : Gap → Gap
  | blanks _ => breaks 0 false
  | breaks count escaped => breaks (count + 1) escaped

-- What a gap stands for, back to front.
def text : Gap → List Char
  | blanks read => read
  | breaks count escaped => if escaped then List.replicate count '\n' else foldBreaks count

end Gap

-- Where the reading of a quoted scalar stands: between characters, after a backslash, in the digits of a
-- code point, or after an apostrophe.
inductive Spot
  | between (gap : Gap)
  | escape
  | digits (left value : Nat)
  | apostrophe

def Spot.start : Spot := .between (.blanks [])

-- A quoted scalar with one more character.
def oneMore (read : List Char × Nat) : List Char × Nat :=
  (read.1, read.2 + 1)

-- A scalar up to its closing mark, and how many characters it takes. `read` holds what was read, back
-- to front. Between apostrophes two of them stand for one, and only between quotation marks a backslash
-- escapes.
def quotedRest (mark : Char) : Spot → List Char → List Char → Option (List Char × Nat)
  | .apostrophe, read, [] => some (read.reverse, 0)
  | _, _, [] => none
  | .apostrophe, read, c :: rest =>
    if c == mark then (quotedRest mark .start (c :: read) rest).map oneMore else some (read.reverse, 0)
  | .escape, read, c :: rest =>
    match escapeDigits? c, escaped? c with
    | some count, _ => (quotedRest mark (.digits (count - 1) 0) read rest).map oneMore
    | none, some e => (quotedRest mark .start (e :: read) rest).map oneMore
    | none, none =>
      if c == '\n' then (quotedRest mark (.between (.breaks 0 true)) read rest).map oneMore else none
  | .digits left value, read, c :: rest =>
    match Percent.hexValue? c with
    | none => none
    | some digit =>
      let code := 16 * value + digit
      match left with
      | left + 1 => (quotedRest mark (.digits left code) read rest).map oneMore
      | 0 => (quotedRest mark .start (Char.ofNat code :: read) rest).map oneMore
  | .between gap, read, c :: rest =>
    if isBlank c then (quotedRest mark (.between (gap.addBlank c)) read rest).map oneMore
    else if c == '\n' then
      if atDocumentMark rest then none
      else (quotedRest mark (.between gap.addBreak) read rest).map oneMore
    else
      let kept := gap.text ++ read
      if c == mark then
        if mark == '"' then some (kept.reverse, 1)
        else (quotedRest mark .apostrophe kept rest).map oneMore
      else if c == '\\' && mark == '"' then (quotedRest mark .escape kept rest).map oneMore
      else (quotedRest mark .start (c :: kept) rest).map oneMore

-- The marks that end a word inside brackets.
def flowMarks : List Char := [',', '?', '[', ']', '\x7b', '\x7d']

-- How many characters the next word of a plain scalar takes.
def wordLength (inFlow : Bool) : List Char → Nat
  | [] => 0
  | c :: rest =>
    let colon := c == ':' &&
      (atGap rest || (inFlow && rest.head?.any [',', '[', ']', '\x7b', '\x7d'].contains))
    if isBlank c || c == '\n' || colon || (inFlow && flowMarks.contains c) then 0
    else wordLength inFlow rest + 1

-- The gap after a word of a plain scalar: what it stands for in the scalar, how many characters it takes,
-- and the column after it if it holds a line break. There is none before a tab or a document mark.
def wordGap (cs : List Char) : List Char × Nat × Option Nat :=
  let blanks := cs.takeWhile (· == ' ')
  match cs.drop blanks.length with
  | '\n' :: rest =>
    let gap := rest.takeWhile fun c => c == ' ' || c == '\n'
    let column := (gap.reverse.takeWhile (· == ' ')).length
    let count := (gap.filter (· == '\n')).length
    if column == 0 && atDocumentMark (rest.drop gap.length) then ([], 0, none)
    else (foldBreaks count, blanks.length + 1 + gap.length, some column)
  | _ => (blanks, blanks.length, none)

-- The words of a plain scalar after the first, each with the gap before it, and how many characters they
-- take. Outside brackets a word on another line stands at `indent` or further in. The first argument
-- bounds the number of words.
def moreWords (inFlow : Bool) (indent : Nat) : Nat → List Char → List Char × Nat
  | 0, _ => ([], 0)
  | limit + 1, cs =>
    let (joined, gap, column) := wordGap cs
    let next := cs.drop gap
    let length := wordLength inFlow next
    if joined.isEmpty || next.head? == some '#' || (!inFlow && column.any (· < indent)) || length == 0 then
      ([], 0)
    else
      let (more, taken) := moreWords inFlow indent limit (next.drop length)
      (joined ++ next.take length ++ more, gap + length + taken)

-- A plain scalar, and how many characters it takes.
def plainScalar (inFlow : Bool) (indent : Nat) (cs : List Char) : List Char × Nat :=
  let length := wordLength inFlow cs
  let (more, taken) := moreWords inFlow indent cs.length (cs.drop length)
  (cs.take length ++ more, length + taken)

-- The characters that a plain scalar starts with only before some other one.
def indicators : List Char :=
  ['-', '?', ':', ',', '[', ']', '\x7b', '\x7d', '#', '&', '*', '!', '|', '>', '\'', '"', '%', '@', '\x60']

def startsPlain (inFlow : Bool) : List Char → Bool
  | [] => false
  | c :: rest =>
    (!isBlank c && c != '\n' && !indicators.contains c) ||
      (!atGap rest && (c == '-' || (!inFlow && (c == '?' || c == ':'))))

end CrateDocs.Yaml
