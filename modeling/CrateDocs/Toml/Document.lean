import CrateDocs.Text.Pieces
import CrateDocs.Toml.Value

namespace CrateDocs.Toml

-- A document that was read up to some line: what it holds, the table that the next fields belong to,
-- the keys that no table may be opened at any more, those that become so with the next table, and
-- the keys of closed values.
structure Draft where
  fields : Fields
  header : Key
  opened : List Key
  pending : List Key
  closed : List Key

namespace Draft

def initial : Draft := ⟨[], [], [], [], []⟩

-- Takes in the fields read since the last table was opened.
def settle (d : Draft) : Draft :=
  { d with opened := d.opened ++ d.pending, pending := [] }

-- Opens a table.
def openTable (d : Draft) (key : Key) : Except Flaw Draft := do
  if d.opened.contains key || isInside d.closed key then throw .malformed
  else
    let fields ← changeAt true key .ok d.fields
    return { d with fields := fields, header := key, opened := d.opened ++ [key] }

-- Opens a new table of an array of tables. What was said of keys below the last one is forgotten.
def openArray (d : Draft) (key : Key) : Except Flaw Draft := do
  if isInside d.closed key then throw .malformed
  else
    let fields ← changeAt true key.dropLast (addTable (key.getLast?.getD "")) d.fields
    let outside := fun (other : Key) => !key.isPrefixOf other
    return { d with
      fields := fields
      header := key
      opened := d.opened.filter outside ++ [key]
      closed := d.closed.filter outside }

-- The keys of the tables that a dotted key opens on its way.
def passed (header key : Key) : List Key :=
  (List.range (key.length - 1)).map fun n => header ++ key.take (n + 1)

-- Sets a field of the open table.
def setValue (d : Draft) (key : Key) (item : Toml) : Except Flaw Draft := do
  let onTheWay := passed d.header key
  if onTheWay.any d.opened.contains || isInside d.closed (d.header ++ key.dropLast) then throw .malformed
  else
    let fields ← changeAt true (d.header ++ key.dropLast) (addField (key.getLast?.getD "") item) d.fields
    return { d with
      fields := fields
      pending := d.pending ++ onTheWay
      closed := if item.isClosed then d.closed ++ [d.header ++ key] else d.closed }

end Draft

-- The end of a line: a comment or none, and a line break or the end of the text.
def lineEnd? (cs : List Char) : Option (List Char) :=
  let afterComment := match cs with
    | '#' :: rest =>
      if (rest.takeWhile (· != '\n')).any isIllegal then none else some (rest.dropWhile (· != '\n'))
    | _ => some cs
  match afterComment with
  | some [] => some []
  | some ('\n' :: rest) => some rest
  | _ => none

-- A line that opens a table, after its first bracket.
def headerLine (d : Draft) (cs : List Char) : Except Flaw (Draft × List Char) :=
  match cs with
  | '[' :: rest => do
    let start := rest.dropWhile isSpace
    let (path, afterKey) ← key (start.length + 1) start
    let opened ← d.settle.openArray path
    let left ← orMalformed ((mark? ']' afterKey).bind (mark? ']'))
    return (opened, left)
  | _ => do
    let start := cs.dropWhile isSpace
    let (path, afterKey) ← key (start.length + 1) start
    let opened ← d.settle.openTable path
    let left ← orMalformed (mark? ']' afterKey)
    return (opened, left)

-- A line that sets a field.
def fieldLine (depth : Nat) (d : Draft) (cs : List Char) : Except Flaw (Draft × List Char) := do
  let (path, afterKey) ← key (cs.length + 1) cs
  let start := (← orMalformed (mark? '=' afterKey)).dropWhile isSpace
  let (item, left) ← value depth (2 * start.length + 2) start
  return (← d.setValue path item, left)

-- The lines of a document. The second argument bounds their number.
def lines (depth : Nat) : Nat → Draft → List Char → Except Flaw Draft
  | 0, _, _ => .error .malformed
  | limit + 1, d, cs =>
    match cs.dropWhile isSpace with
    | [] => .ok d
    | '\n' :: rest => lines depth limit d rest
    | c :: rest => do
      let (d, left) ←
        if c == '[' then headerLine d rest
        else if isBareKey c || c == '"' || c == '\'' then fieldLine depth d (c :: rest)
        else if c == '#' then pure (d, c :: rest)
        else throw .malformed
      match ← orMalformed (lineEnd? (left.dropWhile isSpace)) with
      | [] => return d
      | more => lines depth limit d more

-- The fields of a document, whose values can hold each other as deep as calls can be nested.
def parse (depth : Nat) (text : String) : Except Flaw Fields := do
  let cs := (("\n".intercalate (Text.split "\r\n" text)).toList)
  let d ← lines depth (cs.length + 1) Draft.initial cs
  return d.fields

end CrateDocs.Toml
