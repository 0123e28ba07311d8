import CrateDocs.Text.Blank
import CrateDocs.Text.Pieces

namespace CrateDocs.EnvFile

-- A line break, of any of the three kinds, becomes a line feed.
def unifyLines : List Char → List Char
  | [] => []
  | '\r' :: '\n' :: rest => '\n' :: unifyLines rest
  | c :: rest => (if c == '\r' then '\n' else c) :: unifyLines rest

-- Blanks that end no line.
def isSpace (c : Char) : Bool :=
  Text.isBlank c && c != '\n'

-- The part of a text before its closing mark, and what follows the mark. A mark after a backslash
-- closes nothing, unless no other one follows. `read` holds what was read, back to front, and `spare`
-- the last place where a mark after a backslash could have closed the text.
def quotedRest (mark : Char) : Option (List Char × List Char) → List Char → List Char →
    Option (List Char × List Char)
  | spare, _, [] => spare
  | spare, read, '\\' :: c :: rest =>
    if c == mark then
      quotedRest mark (some (('\\' :: read).reverse, rest)) (c :: '\\' :: read) rest
    else quotedRest mark spare ('\\' :: read) (c :: rest)
  | spare, read, c :: rest =>
    if c == mark then some (read.reverse, rest) else quotedRest mark spare (c :: read) rest

-- The character that a letter after a backslash stands for, in quotation marks.
def escaped? : Char → Option Char
  | '\\' => some '\\'
  | '\'' => some '\''
  | '"' => some '"'
  | 'a' => some '\x07'
  | 'b' => some '\x08'
  | 'f' => some '\x0c'
  | 'n' => some '\n'
  | 'r' => some '\r'
  | 't' => some '\t'
  | 'v' => some '\x0b'
  | _ => none

-- The character that one after a backslash stands for, in apostrophes.
def escapedSingle? (c : Char) : Option Char :=
  if c == '\\' || c == '\'' then some c else none

-- A text with its escapes resolved; a backslash before anything else stands for itself.
def unescape (escape : Char → Option Char) : List Char → List Char
  | '\\' :: c :: rest =>
    match escape c with
    | some e => e :: unescape escape rest
    | none => '\\' :: unescape escape (c :: rest)
  | c :: rest => c :: unescape escape rest
  | [] => []

-- A value without quotation marks ends before a comment, which blanks come before.
def withoutComment : List Char → List Char
  | [] => []
  | c :: rest =>
    if Text.isBlank c && (rest.dropWhile Text.isBlank).head? == some '#' then [] else c :: withoutComment rest

-- A value and what follows it on its line.
def value? (cs : List Char) : Option (String × List Char) :=
  match cs with
  | '\'' :: rest =>
    (quotedRest '\'' none [] rest).map fun (content, left) =>
      (String.ofList (unescape escapedSingle? content), left)
  | '"' :: rest =>
    (quotedRest '"' none [] rest).map fun (content, left) =>
      (String.ofList (unescape escaped? content), left)
  | _ =>
    let line := cs.takeWhile (· != '\n')
    some (String.ofList (Text.dropEndWhile Text.isBlank (withoutComment line)), cs.dropWhile (· != '\n'))

-- The end of a line, after a comment or none.
def lineEnd? (cs : List Char) : Option (List Char) :=
  let start := cs.dropWhile isSpace
  let rest := if start.head? == some '#' then start.dropWhile (· != '\n') else start
  match rest with
  | [] => some []
  | '\n' :: left => some left
  | _ => none

-- What follows the word `export` and at least one blank.
def dropExport (cs : List Char) : List Char :=
  if "export".toList.isPrefixOf cs && (cs.drop 6).head?.any isSpace then (cs.drop 6).dropWhile isSpace else cs

def isNamePart (c : Char) : Bool :=
  c != '=' && c != '#' && !Text.isBlank c

-- The name at the start of a line: none before a comment, or in apostrophes, or up to a blank or an
-- equals sign.
def name? (cs : List Char) : Option (Option String × List Char) :=
  match cs with
  | '#' :: _ => some (none, cs)
  | '\'' :: rest =>
    let name := rest.takeWhile (· != '\'')
    match rest.dropWhile (· != '\'') with
    | _ :: left => if name.isEmpty then none else some (some (String.ofList name), left)
    | [] => none
  | _ =>
    let name := cs.takeWhile isNamePart
    if name.isEmpty then none else some (some (String.ofList name), cs.dropWhile isNamePart)

-- What is left of a line that cannot be read.
def dropLine (cs : List Char) : List Char :=
  (cs.dropWhile (· != '\n')).drop 1

-- One line: its name and value, if it has them, and what follows it.
def binding (cs : List Char) : Option (String × Option String) × List Char :=
  let start := dropExport (cs.dropWhile Text.isBlank)
  match name? start with
  | none => (none, dropLine start)
  | some (name, afterName) =>
    match afterName.dropWhile isSpace with
    | '=' :: rest =>
      let valueStart := rest.dropWhile isSpace
      match value? valueStart with
      | none => (none, dropLine valueStart)
      | some (value, afterValue) =>
        match lineEnd? afterValue with
        | some left => (name.map fun n => (n, some value), left)
        | none => (none, dropLine afterValue)
    | afterSpace =>
      match lineEnd? afterSpace with
      | some left => (name.map fun n => (n, none), left)
      | none => (none, dropLine afterSpace)

-- The lines of a file. The first argument bounds their number.
def bindings : Nat → List Char → List (String × Option String)
  | 0, _ => []
  | _ + 1, [] => []
  | limit + 1, c :: rest =>
    let (found, left) := binding (c :: rest)
    found.toList ++ bindings limit left

-- A reference to a variable after `$` and a brace: its name, what stands for it if it is not set, and
-- what follows the closing brace.
def reference? (cs : List Char) : Option (String × String × List Char) :=
  let name := cs.takeWhile fun c => c != '\x7d' && c != ':'
  match cs.dropWhile fun c => c != '\x7d' && c != ':' with
  | '\x7d' :: rest => some (String.ofList name, "", rest)
  | ':' :: '-' :: rest =>
    match rest.dropWhile (· != '\x7d') with
    | _ :: left => some (String.ofList name, String.ofList (rest.takeWhile (· != '\x7d')), left)
    | [] => none
  | _ => none

-- A value with every reference to a variable resolved. The first argument bounds its length.
def expand (lookup : String → Option (Option String)) : Nat → List Char → List Char
  | 0, _ => []
  | _ + 1, [] => []
  | limit + 1, '$' :: '\x7b' :: rest =>
    match reference? rest with
    | some (name, fallback, left) =>
      (((lookup name).getD (some fallback)).getD "").toList ++ expand lookup limit left
    | none => '$' :: expand lookup limit ('\x7b' :: rest)
  | limit + 1, c :: rest => c :: expand lookup limit rest

-- Sets a name, in its place if it is there.
def setName (entries : List (String × Option String)) (name : String) (value : Option String) :
    List (String × Option String) :=
  if entries.any fun entry => entry.1 == name then
    entries.map fun entry => if entry.1 == name then (name, value) else entry
  else entries ++ [(name, value)]

-- The names and values of a file. A value can refer to names before it and to the environment.
def parse (environment : List (String × String)) (text : String) : List (String × Option String) :=
  let cs := unifyLines text.toList
  (bindings (cs.length + 1) cs).foldl (fun known (name, value?) =>
    let lookup := fun other =>
      match known.lookup other with
      | some found => some found
      | none => (environment.lookup other).map some
    setName known name (value?.map fun value =>
      String.ofList (expand lookup (value.length + 1) value.toList))) []

end CrateDocs.EnvFile
