import CrateDocs.FunctionDoc.Schema
import CrateDocs.Proofs.Json.RoundTrip
import CrateDocs.Proofs.Text.Utf8

namespace CrateDocs

-- A set of values whose tags are read back as the values they were written for.
class LawfulTagged (α : Type) [Tagged α] : Prop where
  ofTag?_tag : ∀ a : α, ofTag? (tag a) = some a

export LawfulTagged (ofTag?_tag)

instance : LawfulTagged Unsafety where
  ofTag?_tag a := by cases a <;> decide

instance : LawfulTagged Constness where
  ofTag?_tag a := by cases a <;> decide

instance : LawfulTagged Visibility where
  ofTag?_tag a := by cases a <;> decide

instance : LawfulTagged Abi where
  ofTag?_tag a := by cases a <;> decide

namespace FunctionDoc

theorem checkTag_tag {α : Type} [Tagged α] [LawfulTagged α] (spot : List Step) (a : α) :
    checkTag spot (.string (tag a)) = .ok a := by
  simp only [checkTag, ofTag?_tag]

theorem checkStrings_map (spot : List Step) (i : Nat) (texts : List String) :
    checkStrings spot i (texts.map .string) = .ok texts := by
  induction texts generalizing i with
  | nil => rfl
  | cons s texts ih => simp only [List.map_cons, checkStrings, checkString, ih]

-- The fields of a record that was written.
def fieldsOf (doc : FunctionDoc) : List (String × Json) :=
  [("path", .array (doc.path.map .string)),
    ("signature", .string doc.signature),
    ("unsafety", .string (tag doc.unsafety)),
    ("constness", .string (tag doc.constness)),
    ("visibility", .string (tag doc.visibility)),
    ("abi", .string (tag doc.abi))]

theorem check_toJson (doc : FunctionDoc) : check doc.toJson = .ok doc := by
  have hpath : checkField checkPath pathKeys doc.fieldsOf = .ok doc.path :=
    checkStrings_map _ 0 doc.path
  have hsignature : checkField checkString signatureKeys doc.fieldsOf = .ok doc.signature := rfl
  have hunsafety : checkField checkTag unsafetyKeys doc.fieldsOf = .ok doc.unsafety :=
    checkTag_tag _ doc.unsafety
  have hconstness : checkField checkTag constnessKeys doc.fieldsOf = .ok doc.constness :=
    checkTag_tag _ doc.constness
  have hvisibility : checkField checkTag visibilityKeys doc.fieldsOf = .ok doc.visibility :=
    checkTag_tag _ doc.visibility
  have habi : checkField checkTag abiKeys doc.fieldsOf = .ok doc.abi := checkTag_tag _ doc.abi
  have hextra : extraKeys doc.fieldsOf = [] := rfl
  have hjson : doc.toJson = .object doc.fieldsOf := rfl
  rw [hjson, check, checkFields]
  simp only [hpath, hsignature, hunsafety, hconstness, hvisibility, habi, hextra]

theorem checkItems_map (i : Nat) (docs : List FunctionDoc) :
    checkItems i (docs.map toJson) = .ok docs := by
  induction docs generalizing i with
  | nil => rfl
  | cons doc docs ih => simp only [List.map_cons, checkItems, check_toJson, ih]

theorem fits_toJson (doc : FunctionDoc) : Json.Fits 2 doc.toJson := by
  refine .object (by simp) ?_
  intro field hfield
  simp only [List.mem_cons, List.not_mem_nil, or_false] at hfield
  rcases hfield with rfl | rfl | rfl | rfl | rfl | rfl
  · refine .array fun item hitem => ?_
    obtain ⟨s, _, rfl⟩ := List.mem_map.mp hitem
    exact .string 0 s
  all_goals exact .string 1 _

-- A cache file holds the records it was made from, in their order.
theorem ofBytes_toBytes (docs : List FunctionDoc) : ofBytes (toBytes docs) = .ok docs := by
  have hfits : Json.Fits 3 (.array (docs.map toJson)) := by
    refine .array fun item hitem => ?_
    obtain ⟨doc, _, rfl⟩ := List.mem_map.mp hitem
    exact fits_toJson doc
  have hparse := Json.parse?_indented hfits (show 3 ≤ depthLimit by decide)
  rw [ofBytes, toBytes, Utf8.decode?_encode, Option.bind_some, hparse]
  exact checkItems_map 0 docs

end FunctionDoc

end CrateDocs
