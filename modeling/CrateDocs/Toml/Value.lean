import CrateDocs.Toml.Number

namespace CrateDocs.Toml

def orMalformed {α : Type} : Option α → Except Flaw α
  | some a => .ok a
  | none => .error .malformed

-- Whether a key leads into one of the closed values at `closed`.
def isInside (closed : List Key) (key : Key) : Bool :=
  closed.any fun outer => outer.isPrefixOf key

-- How many calls an array and a table in braces nest.
def arrayCalls : Nat := 2
def tableCalls : Nat := 3

-- Values. The first argument bounds how many calls may be nested, the second how many values, items and
-- fields follow each other or hold each other.
mutual
def value : Nat → Nat → List Char → Except Flaw (Toml × List Char)
  | _, 0, _ => .error .malformed
  | depth, limit + 1, cs =>
    match cs with
    | '"' :: _ => do
      let (found, rest) ← textValue cs
      return (.text found, rest)
    | '\'' :: _ => do
      let (found, rest) ← textValue cs
      return (.text found, rest)
    | '[' :: rest =>
      if depth < arrayCalls then .error .tooDeep else arrayRest (depth - arrayCalls) limit [] rest
    | '\x7b' :: rest =>
      if depth < tableCalls then .error .tooDeep
      else
        match rest.dropWhile isSpace with
        | '\x7d' :: left => .ok (.table [], left)
        | left => tableRest (depth - tableCalls) limit [] [] left
    | _ => do
      match ← other? cs with
      | some rest => return (.other, rest)
      | none => throw .malformed
-- The rest of an array whose items so far are `items`.
def arrayRest : Nat → Nat → List Toml → List Char → Except Flaw (Toml × List Char)
  | _, 0, _, _ => .error .malformed
  | depth, limit + 1, items, cs => do
    let start ← orMalformed (skipGaps false cs)
    match start with
    | ']' :: rest => return (.array items, rest)
    | _ =>
      let (item, afterItem) ← value depth limit start
      match ← orMalformed (skipGaps false afterItem) with
      | ']' :: rest => return (.array (items ++ [item]), rest)
      | ',' :: rest => arrayRest depth limit (items ++ [item]) rest
      | _ => throw .malformed
-- The rest of a table in braces whose fields so far are `fields`, with the closed values among them.
def tableRest : Nat → Nat → Fields → List Key → List Char → Except Flaw (Toml × List Char)
  | _, 0, _, _, _ => .error .malformed
  | depth, limit + 1, fields, closed, cs => do
    let (path, afterKey) ← key (cs.length + 1) cs
    let afterMark ← orMalformed (mark? '=' afterKey)
    let (item, afterItem) ← value depth limit (afterMark.dropWhile isSpace)
    if isInside closed path then throw .malformed
    let more ← changeAt false path.dropLast (addField (path.getLast?.getD "") item) fields
    match afterItem.dropWhile isSpace with
    | '\x7d' :: rest => return (.table more, rest)
    | ',' :: rest =>
      tableRest depth limit more (if item.isClosed then path :: closed else closed) (rest.dropWhile isSpace)
    | _ => throw .malformed
end

end CrateDocs.Toml
