import CrateDocs.FunctionDoc.Basic
import CrateDocs.Json.Reader
import CrateDocs.Json.Writer
import CrateDocs.Text.Utf8

namespace CrateDocs.FunctionDoc

-- What can be wrong with a part of a value.
inductive Complaint
  | missing
  | extra
  | notTag
  | notString
  | notPath
  | notList
  | notRecord
  | notJson
deriving DecidableEq, Repr

-- A step from a value to a part of it.
inductive Step
  | key (name : String)
  | index (i : Nat)
deriving DecidableEq, Repr

-- A complaint and the part it is about.
structure Problem where
  complaint : Complaint
  spot : List Step
deriving DecidableEq, Repr

-- A value, or everything that is wrong with it.
abbrev Checked (α : Type) := Except (List Problem) α

def problems {α : Type} : Checked α → List Problem
  | .ok _ => []
  | .error found => found

-- The field stored under the first of the keys that is there, with that key.
def field? (keys : List String) (fields : List (String × Json)) : Option (String × Json) :=
  keys.findSome? fun key => (fields.find? fun field => field.1 == key)

def checkString (spot : List Step) : Json → Checked String
  | .string value => .ok value
  | _ => .error [⟨.notString, spot⟩]

def checkTag {α : Type} [Tagged α] (spot : List Step) : Json → Checked α
  | .string value =>
    match ofTag? value with
    | some known => .ok known
    | none => .error [⟨.notTag, spot⟩]
  | _ => .error [⟨.notTag, spot⟩]

-- Strings, the first of which has index `i`.
def checkStrings (spot : List Step) : Nat → List Json → Checked (List String)
  | _, [] => .ok []
  | i, item :: items =>
    match checkString (spot ++ [.index i]) item, checkStrings spot (i + 1) items with
    | .ok first, .ok rest => .ok (first :: rest)
    | first, rest => .error (problems first ++ problems rest)

def checkPath (spot : List Step) : Json → Checked (List String)
  | .array items => checkStrings spot 0 items
  | _ => .error [⟨.notPath, spot⟩]

-- A required field. It is named by the key it was found under, a missing one by its first key.
def checkField {α : Type} (check : List Step → Json → Checked α) (keys : List String)
    (fields : List (String × Json)) : Checked α :=
  match field? keys fields with
  | some (key, value) => check [.key key] value
  | none => .error [⟨.missing, [.key (keys.headD "")]⟩]

-- The keys of the six fields. Two of them have a second key, used only without the first.
def pathKeys : List String := ["path", "symbol_path"]
def signatureKeys : List String := ["signature"]
def unsafetyKeys : List String := ["unsafety"]
def constnessKeys : List String := ["constness"]
def visibilityKeys : List String := ["visibility"]
def abiKeys : List String := ["abi", "calling_convention"]

-- The keys that the six fields were found under.
def usedKeys (fields : List (String × Json)) : List String :=
  [pathKeys, signatureKeys, unsafetyKeys, constnessKeys, visibilityKeys, abiKeys].filterMap fun keys =>
    (field? keys fields).map (·.1)

-- A complaint for every key that is not the key of a field.
def extraKeys (fields : List (String × Json)) : List Problem :=
  (fields.filter fun field => !(usedKeys fields).contains field.1).map fun field =>
    ⟨.extra, [.key field.1]⟩

def checkFields (fields : List (String × Json)) : Checked FunctionDoc :=
  let path := checkField checkPath pathKeys fields
  let signature := checkField checkString signatureKeys fields
  let unsafety : Checked Unsafety := checkField checkTag unsafetyKeys fields
  let constness : Checked Constness := checkField checkTag constnessKeys fields
  let visibility : Checked Visibility := checkField checkTag visibilityKeys fields
  let abi : Checked Abi := checkField checkTag abiKeys fields
  match path, signature, unsafety, constness, visibility, abi, extraKeys fields with
  | .ok path, .ok signature, .ok unsafety, .ok constness, .ok visibility, .ok abi, [] =>
    .ok ⟨path, signature, unsafety, constness, visibility, abi⟩
  | _, _, _, _, _, _, extra =>
    .error (problems path ++ problems signature ++ problems unsafety ++ problems constness ++
      problems visibility ++ problems abi ++ extra)

-- The record that a value holds.
def check : Json → Checked FunctionDoc
  | .object fields => checkFields fields
  | _ => .error [⟨.notRecord, []⟩]

-- The records of a list, the first of which has index `i`.
def checkItems : Nat → List Json → Checked (List FunctionDoc)
  | _, [] => .ok []
  | i, item :: items =>
    match check item, checkItems (i + 1) items with
    | .ok first, .ok rest => .ok (first :: rest)
    | first, rest =>
      .error ((problems first).map (fun p => { p with spot := .index i :: p.spot }) ++ problems rest)

def checkList : Json → Checked (List FunctionDoc)
  | .array items => checkItems 0 items
  | _ => .error [⟨.notList, []⟩]

-- How many containers of a cache file may be open at once.
def depthLimit : Nat := 200

-- The records in the bytes of a cache file.
def ofBytes (bytes : List UInt8) : Checked (List FunctionDoc) :=
  match (Utf8.decode? bytes).bind (Json.parse? depthLimit) with
  | some value => checkList value
  | none => .error [⟨.notJson, []⟩]

-- The bytes of a cache file.
def toBytes (docs : List FunctionDoc) : List UInt8 :=
  Utf8.encode (String.ofList (Json.indented 0 (.array (docs.map toJson)) ++ ['\n']))

end CrateDocs.FunctionDoc
