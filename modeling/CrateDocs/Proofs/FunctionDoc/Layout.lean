import CrateDocs.Proofs.FunctionDoc.RoundTrip

namespace CrateDocs

namespace Json

-- Texts between brackets, each on a line of its own that is one level further in than the brackets.
-- Without any texts the brackets stand alone.
def bracketed (opening closing : Char) (depth : Nat) : List (List Char) → List Char
  | [] => [opening, closing]
  | first :: rest =>
    opening :: lineStart (depth + 1) ++
      (',' :: lineStart (depth + 1)).intercalate (first :: rest) ++ lineStart depth ++ [closing]

theorem indentedItems_eq (depth : Nat) (first : List Char) (items : List Json) :
    first ++ indentedItems depth items =
      (',' :: lineStart (depth + 1)).intercalate (first :: items.map (indented (depth + 1))) ++
        lineStart depth ++ [']'] := by
  induction items generalizing first with
  | nil => simp [indentedItems]
  | cons item items ih =>
      rw [indentedItems, ih, List.map_cons, List.intercalate_cons_cons]
      simp only [List.append_assoc, List.cons_append]

theorem indentedFields_eq (depth : Nat) (first : List Char) (fields : List (String × Json)) :
    first ++ indentedFields depth fields =
      (',' :: lineStart (depth + 1)).intercalate (first :: fields.map fun field =>
        stringText field.1 ++ ':' :: ' ' :: indented (depth + 1) field.2) ++ lineStart depth ++ ['\x7d'] := by
  induction fields generalizing first with
  | nil => simp [indentedFields]
  | cons field fields ih =>
      have hnext := ih (stringText field.1 ++ ':' :: ' ' :: indented (depth + 1) field.2)
      rw [List.map_cons, List.intercalate_cons_cons, indentedFields]
      simp only [List.append_assoc, List.cons_append] at hnext ⊢
      rw [hnext]

theorem indented_array (depth : Nat) (items : List Json) :
    indented depth (.array items) = bracketed '[' ']' depth (items.map (indented (depth + 1))) := by
  cases items with
  | nil => rw [indented, List.map_nil, bracketed]
  | cons item items =>
      rw [indented, indentedItems_eq, List.map_cons, bracketed]
      simp only [List.append_assoc, List.cons_append]

theorem indented_object (depth : Nat) (fields : List (String × Json)) :
    indented depth (.object fields) =
      bracketed '\x7b' '\x7d' depth (fields.map fun field =>
        stringText field.1 ++ ':' :: ' ' :: indented (depth + 1) field.2) := by
  cases fields with
  | nil => rw [indented, List.map_nil, bracketed]
  | cons field fields =>
      have hfields := indentedFields_eq depth
        (stringText field.1 ++ ':' :: ' ' :: indented (depth + 1) field.2) fields
      rw [indented, List.map_cons, bracketed]
      simp only [List.append_assoc, List.cons_append] at hfields ⊢
      rw [hfields]

end Json

namespace FunctionDoc

open Json (stringText bracketed)

-- The line of a field: its key, a colon and a blank, and its value.
def fieldText (key : String) (value : List Char) : List Char :=
  stringText key ++ ':' :: ' ' :: value

-- The lines of a record.
def recordText (doc : FunctionDoc) : List Char :=
  bracketed '\x7b' '\x7d' 1 [
    fieldText "path" (bracketed '[' ']' 2 (doc.path.map stringText)),
    fieldText "signature" (stringText doc.signature),
    fieldText "unsafety" (stringText (tag doc.unsafety)),
    fieldText "constness" (stringText (tag doc.constness)),
    fieldText "visibility" (stringText (tag doc.visibility)),
    fieldText "abi" (stringText (tag doc.abi))]

-- The lines of a cache file.
def fileText (docs : List FunctionDoc) : String :=
  String.ofList (bracketed '[' ']' 0 (docs.map recordText) ++ ['\n'])

theorem indented_toJson (doc : FunctionDoc) : Json.indented 1 doc.toJson = recordText doc := by
  have hstring : ∀ depth s, Json.indented depth (.string s) = stringText s := fun depth s => by
    rw [Json.indented]
  have hpath : (doc.path.map Json.string).map (Json.indented 3) = doc.path.map stringText := by
    rw [List.map_map]
    exact List.map_congr_left fun s _ => hstring 3 s
  rw [toJson, Json.indented_object]
  simp only [List.map_cons, List.map_nil, hstring, Json.indented_array, hpath]
  rfl

theorem toBytes_eq (docs : List FunctionDoc) : toBytes docs = Utf8.encode (fileText docs) := by
  have hrecords : (docs.map toJson).map (Json.indented 1) = docs.map recordText := by
    rw [List.map_map]
    exact List.map_congr_left fun doc _ => indented_toJson doc
  rw [toBytes, Json.indented_array, hrecords, fileText]

-- A cache file is a list of records with one field on each line, written with the keys and tags of
-- the fields, and reading it gives back the records it was made from, in their order.
theorem cacheFile_roundTrip (docs : List FunctionDoc) :
    toBytes docs = Utf8.encode (fileText docs) ∧ ofBytes (toBytes docs) = .ok docs :=
  ⟨toBytes_eq docs, ofBytes_toBytes docs⟩

-- Controls, quotation marks and characters of every width in a file of one record without a path.
example : fileText [⟨[], "\"\\\x01\n é🦀", .marked, .plain, .exported, .cUnwind⟩] =
    "[\n  \x7b\n    \"path\": [],\n    \"signature\": \"\\\"\\\\\\u0001\\n é🦀\",\n" ++
    "    \"unsafety\": \"Unsafe\",\n    \"constness\": \"NotConst\",\n    \"visibility\": \"Public\",\n" ++
    "    \"abi\": \"C-unwind\"\n  \x7d\n]\n" := by
  decide +kernel

end FunctionDoc

end CrateDocs
