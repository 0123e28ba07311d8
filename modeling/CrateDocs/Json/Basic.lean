namespace CrateDocs

-- A JSON value. A number is kept as the text it was written in. The fields of an object have
-- distinct keys and keep their order.
inductive Json
  | null
  | bool (value : Bool)
  | number (digits : String)
  | string (value : String)
  | array (items : List Json)
  | object (fields : List (String × Json))
deriving Repr

namespace Json

-- The value of a key of an object.
def get? (key : String) : Json → Option Json
  | object fields => (fields.find? fun field => field.1 == key).map (·.2)
  | _ => none

def string? : Json → Option String
  | string value => some value
  | _ => none

-- Fields with another one set: in its place if its key is there, else at the end.
def setField (fields : List (String × Json)) (key : String) (value : Json) : List (String × Json) :=
  if fields.any fun field => field.1 == key then
    fields.map fun field => if field.1 == key then (key, value) else field
  else fields ++ [(key, value)]

-- Fields as they were written, with the last value of every repeated key.
def mergeFields (fields : List (String × Json)) : List (String × Json) :=
  fields.foldl (fun merged field => setField merged field.1 field.2) []

end Json

end CrateDocs
