import CrateDocs.Text.Digit

namespace CrateDocs

-- A TOML value. Numbers, truth values and times are all the same here: none is a text, an array or a
-- table. The fields of a table have distinct keys.
inductive Toml
  | text (value : String)
  | other
  | array (items : List Toml)
  | table (fields : List (String × Toml))
deriving Repr

namespace Toml

-- The keys that lead from a table to a value.
abbrev Key := List String

abbrev Fields := List (String × Toml)

-- Why a text is no TOML document: it breaks the grammar, a text in quotation marks or in apostrophes
-- never ends, nothing is written with such an escape, a key leads to something that is no table, the
-- calendar has no such day, a number is too long, or values hold each other too deep.
inductive Flaw
  | malformed
  | openText
  | openLiteral
  | unknownEscape
  | blocked
  | noSuchDay
  | digits (e : Text.TooManyDigits)
  | tooDeep
deriving DecidableEq, Repr

-- Whether a value is written with brackets, so that nothing can be added to it.
def isClosed : Toml → Bool
  | table _ | array _ => true
  | _ => false

-- Fields with another one set, in the place of one with its key or at the end.
def setField (fields : Fields) (key : String) (value : Toml) : Fields :=
  if fields.any fun field => field.1 == key then
    fields.map fun field => if field.1 == key then (key, value) else field
  else fields ++ [(key, value)]

-- Changes the table that a key leads to. Missing tables are made, and an array of tables stands for
-- its last one if `throughArrays` is set.
def changeAt (throughArrays : Bool) :
    Key → (Fields → Except Flaw Fields) → Fields → Except Flaw Fields
  | [], change, fields => change fields
  | k :: ks, change, fields =>
    match fields.lookup k with
    | none => (changeAt throughArrays ks change []).map fun inner => fields ++ [(k, .table inner)]
    | some (.table old) =>
      (changeAt throughArrays ks change old).map fun inner => setField fields k (.table inner)
    | some (.array items) =>
      match throughArrays, items.getLast? with
      | true, some (.table old) =>
        (changeAt throughArrays ks change old).map fun inner =>
          setField fields k (.array (items.dropLast ++ [.table inner]))
      | _, _ => .error .blocked
    | some _ => .error .blocked

-- Adds a field whose key is not there yet.
def addField (key : String) (value : Toml) (fields : Fields) : Except Flaw Fields :=
  if (fields.lookup key).isSome then .error .malformed else .ok (fields ++ [(key, value)])

-- Adds an empty table to an array of tables, which is made if there is none.
def addTable (key : String) (fields : Fields) : Except Flaw Fields :=
  match fields.lookup key with
  | none => .ok (fields ++ [(key, .array [.table []])])
  | some (.array items) => .ok (setField fields key (.array (items ++ [.table []])))
  | some _ => .error .blocked

end Toml

end CrateDocs
