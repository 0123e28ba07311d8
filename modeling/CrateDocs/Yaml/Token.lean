import CrateDocs.Yaml.Scalar

namespace CrateDocs.Yaml

-- The tokens of a document. Indentation makes tokens of its own: those that start a sequence or a mapping
-- in lines, and the one that ends them; and so does a colon for the key before it.
inductive Token
  | documentStart
  | documentEnd
  | sequenceStart
  | mappingStart
  | blockEnd
  | openBracket
  | closeBracket
  | openBrace
  | closeBrace
  | comma
  | entry
  | key
  | value
  | scalar (text : String) (plain : Bool)
deriving DecidableEq, Repr

-- A place where a key may have started: the number of tokens before it, whether it has to be one, and
-- where it stands.
structure KeySpot where
  count : Nat
  required : Bool
  index : Nat
  line : Nat
  column : Nat

-- The state of the scanner: what is left of the text and where that stands, the number of open brackets,
-- the columns of the open blocks, whether a key may start, the tokens so far, and the places where a key
-- may have started, by the number of brackets around them.
structure Scan where
  rest : List Char
  index : Nat
  line : Nat
  column : Nat
  depth : Nat
  indents : List Nat
  keyAllowed : Bool
  tokens : List Token
  spots : List (Nat × KeySpot)

namespace Scan

def initial (cs : List Char) : Scan := ⟨cs, 0, 0, 0, 0, [], true, [], []⟩

-- Passes over some characters.
def advance (s : Scan) (count : Nat) : Scan :=
  let taken := s.rest.take count
  let lines := (taken.filter (· == '\n')).length
  { s with
    rest := s.rest.drop count
    index := s.index + taken.length
    line := s.line + lines
    column :=
      if lines == 0 then s.column + taken.length else (taken.reverse.takeWhile (· != '\n')).length }

def emit (s : Scan) (token : Token) : Scan :=
  { s with tokens := s.tokens ++ [token] }

-- How many characters the gap before the next token takes. The flag says that a comment is being read.
def gapLength : Bool → List Char → Nat
  | _, [] => 0
  | true, c :: rest => gapLength (c != '\n') rest + 1
  | false, c :: rest =>
    if c == ' ' || c == '\n' then gapLength false rest + 1
    else if c == '#' then gapLength true rest + 1
    else 0

-- Goes to the next token. After a line break outside brackets a key may start.
def skipGap (s : Scan) : Scan :=
  let next := s.advance (gapLength false s.rest)
  { next with keyAllowed := s.keyAllowed || (s.depth == 0 && s.line < next.line) }

-- The greatest distance from the start of a key to its colon.
def keyLimit : Nat := 1024

-- Forgets the places where a key can no longer have started.
def dropStale (s : Scan) : Except Flaw Scan :=
  let isStale := fun (spot : Nat × KeySpot) =>
    spot.2.line != s.line || spot.2.index + keyLimit < s.index
  if s.spots.any fun spot => isStale spot && spot.2.required then .error .unscannable
  else .ok { s with spots := s.spots.filter fun spot => !isStale spot }

-- Forgets the place where a key may have started among the same brackets.
def dropSpot (s : Scan) : Except Flaw Scan :=
  if s.spots.any fun spot => spot.1 == s.depth && spot.2.required then .error .unscannable
  else .ok { s with spots := s.spots.filter fun spot => spot.1 != s.depth }

-- Remembers that a key may start here.
def saveSpot (s : Scan) : Except Flaw Scan :=
  if s.keyAllowed then do
    let cleared ← s.dropSpot
    let required := s.depth == 0 && s.indents.head? == some s.column
    return { cleared with
      spots := (s.depth, ⟨s.tokens.length, required, s.index, s.line, s.column⟩) :: cleared.spots }
  else .ok s

-- Ends the blocks that are further in than a column.
def unwindTo (column : Nat) : List Nat → List Token → List Nat × List Token
  | [], tokens => ([], tokens)
  | indent :: outer, tokens =>
    if column < indent then unwindTo column outer (tokens ++ [.blockEnd]) else (indent :: outer, tokens)

def unwind (s : Scan) : Scan :=
  if s.depth == 0 then
    let (indents, tokens) := unwindTo s.column s.indents s.tokens
    { s with indents := indents, tokens := tokens }
  else s

-- Ends all blocks.
def unwindAll (s : Scan) : Scan :=
  if s.depth == 0 then { s with indents := [], tokens := s.tokens ++ s.indents.map fun _ => .blockEnd }
  else s

-- Whether a column is further in than the innermost block, so that it starts one of its own.
def isDeeper (s : Scan) (column : Nat) : Bool :=
  s.indents.head?.all (· < column)

-- Starts a block at a column if none is open there.
def openBlock (s : Scan) (column : Nat) (token : Token) : Scan :=
  if s.isDeeper column then { s.emit token with indents := column :: s.indents } else s

-- A mark of one character inside or around brackets.
def bracket (s : Scan) (token : Token) : Except Flaw Scan :=
  match token with
  | .openBracket | .openBrace => do
    let saved ← s.saveSpot
    return { (saved.advance 1).emit token with depth := s.depth + 1, keyAllowed := true }
  | .closeBracket | .closeBrace => do
    let cleared ← s.dropSpot
    return { (cleared.advance 1).emit token with depth := s.depth - 1, keyAllowed := false }
  | _ => do
    let cleared ← s.dropSpot
    return { (cleared.advance 1).emit token with keyAllowed := true }

-- A dash before an item, or a question mark before a key.
def leader (s : Scan) (start token : Token) (keyNext : Bool) : Except Flaw Scan :=
  if s.depth == 0 && !s.keyAllowed then .error .unscannable
  else do
    let opened := if s.depth == 0 then s.openBlock s.column start else s
    let cleared ← opened.dropSpot
    return { (cleared.advance 1).emit token with keyAllowed := keyNext }

-- A colon. It makes a key of what started at the last place where a key could have.
def colon (s : Scan) : Except Flaw Scan :=
  match s.spots.lookup s.depth with
  | some spot =>
    let opens := s.depth == 0 && s.isDeeper spot.column
    let made := (if opens then [.mappingStart] else []) ++ [.key]
    let marked := { s with
      tokens := s.tokens.take spot.count ++ made ++ s.tokens.drop spot.count
      indents := if opens then spot.column :: s.indents else s.indents
      spots := s.spots.filter fun other => other.1 != s.depth }
    .ok { (marked.advance 1).emit .value with keyAllowed := false }
  | none =>
    if s.depth == 0 && !s.keyAllowed then .error .unscannable
    else
      let opened := if s.depth == 0 then s.openBlock s.column .mappingStart else s
      .ok { (opened.advance 1).emit .value with keyAllowed := s.depth == 0 }

-- A scalar that takes some characters.
def scalar (s : Scan) (content : List Char) (count : Nat) (plain : Bool) : Except Flaw Scan := do
  let saved ← s.saveSpot
  return { (saved.advance count).emit (.scalar (String.ofList content) plain) with keyAllowed := false }

-- The start or the end of a document.
def documentMark (s : Scan) (token : Token) : Except Flaw Scan := do
  let cleared ← s.unwindAll.dropSpot
  return { (cleared.advance 3).emit token with keyAllowed := false }

-- The next token, which starts with `c`.
def token (s : Scan) (c : Char) (rest : List Char) : Except Flaw Scan :=
  let inFlow := 0 < s.depth
  if s.column == 0 && atDocumentMark s.rest then
    s.documentMark (if c == '-' then .documentStart else .documentEnd)
  else if c == '[' then s.bracket .openBracket
  else if c == '\x7b' then s.bracket .openBrace
  else if c == ']' then s.bracket .closeBracket
  else if c == '\x7d' then s.bracket .closeBrace
  else if c == ',' then s.bracket .comma
  else if c == '-' && atGap rest then s.leader .sequenceStart .entry true
  else if c == '?' && (inFlow || atGap rest) then s.leader .mappingStart .key (!inFlow)
  else if c == ':' && (inFlow || atGap rest) then s.colon
  else if c == '"' || c == '\'' then
    match quotedRest c .start [] rest with
    | some (content, count) => s.scalar content (count + 1) false
    | none => .error .unscannable
  else if startsPlain inFlow s.rest then
    let (content, count) := plainScalar inFlow ((s.indents.head?.map (· + 1)).getD 0) s.rest
    s.scalar content count true
  else .error .unscannable

-- The tokens that are certain: those before every place where a key may still turn out to start.
def certain (s : Scan) : List Token :=
  s.tokens.take (s.spots.foldl (fun count spot => min count spot.2.count) s.tokens.length)

-- Every token, and why there are no more if that is not for the end of the text. The first argument bounds
-- the number of tokens.
def all : Nat → Scan → List Token × Option Flaw
  | 0, s => (s.certain, some .unscannable)
  | limit + 1, s =>
    match s.skipGap.dropStale with
    | .error flaw => (s.certain, some flaw)
    | .ok start =>
      match start.rest with
      | [] =>
        match start.unwindAll.dropSpot with
        | .ok done => (done.tokens, none)
        | .error flaw => (start.certain, some flaw)
      | c :: rest =>
        let unwound := start.unwind
        match unwound.token c rest with
        | .ok next => all limit next
        | .error flaw => (unwound.certain, some flaw)

end Scan

end CrateDocs.Yaml
