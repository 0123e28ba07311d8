import CrateDocs.Proofs.FunctionDoc.RoundTrip
import CrateDocs.Proofs.Json.Proper
import Mathlib.Data.List.Forall2
import Mathlib.Data.List.Perm.Basic

namespace CrateDocs.FunctionDoc

-- What the value of a field has to be: a list of texts, a text, or one of some tags.
inductive Content
  | path
  | text
  | tag (known : List String)

-- A field of a record: its key, a second one that counts only without the first, and what its value has to be.
structure Field where
  key : String
  second : Option String
  content : Content

def tagsOf (α : Type) [Tagged α] : List String :=
  (Tagged.all : List α).map tag

-- The fields of a record, in the order they are declared in.

def pathField : Field := ⟨"path", some "symbol_path", .path⟩
def signatureField : Field := ⟨"signature", none, .text⟩
def unsafetyField : Field := ⟨"unsafety", none, .tag (tagsOf Unsafety)⟩
def constnessField : Field := ⟨"constness", none, .tag (tagsOf Constness)⟩
def visibilityField : Field := ⟨"visibility", none, .tag (tagsOf Visibility)⟩
def abiField : Field := ⟨"abi", some "calling_convention", .tag (tagsOf Abi)⟩

def declared : List Field :=
  [pathField, signatureField, unsafetyField, constnessField, visibilityField, abiField]

-- The values that hold records: lists of objects with the six fields and no others, in any order of the fields
-- and with either key of those that have two.

def entriesOf (pathKey abiKey : String) (doc : FunctionDoc) : List (String × Json) :=
  [(pathKey, .array (doc.path.map .string)),
    ("signature", .string doc.signature),
    ("unsafety", .string (tag doc.unsafety)),
    ("constness", .string (tag doc.constness)),
    ("visibility", .string (tag doc.visibility)),
    (abiKey, .string (tag doc.abi))]

def Spells (fields : List (String × Json)) (doc : FunctionDoc) : Prop :=
  ∃ pathKey abiKey, (pathKey = "path" ∨ pathKey = "symbol_path") ∧ (abiKey = "abi" ∨ abiKey = "calling_convention") ∧
    fields.Perm (entriesOf pathKey abiKey doc)

def Holds (value : Json) (docs : List FunctionDoc) : Prop :=
  ∃ items, value = .array items ∧
    List.Forall₂ (fun item doc => ∃ fields, item = .object fields ∧ Spells fields doc) items docs

-- The parts of a value that are wrong, and how.

-- What is wrong with a value that should have some content, and with which part of it.
inductive Content.Rejects : Content → Json → Complaint → List Step → Prop
  | notPath {value : Json} (h : ∀ items, value ≠ .array items) : Rejects .path value .notPath []
  | element {items : List Json} {i : Nat} {item : Json} (hitem : items[i]? = some item) (h : ∀ s, item ≠ .string s) :
      Rejects .path (.array items) .notString [.index i]
  | notText {value : Json} (h : ∀ s, value ≠ .string s) : Rejects .text value .notString []
  | notTag {known : List String} {value : Json} (h : ∀ s ∈ known, value ≠ .string s) :
      Rejects (.tag known) value .notTag []

namespace Field

variable (f : Field) (fields : List (String × Json))

-- The value that a field has in an object, and the key it is found under.
def Found (key : String) (value : Json) : Prop :=
  (key, value) ∈ fields ∧ (key = f.key ∨ f.second = some key ∧ f.key ∉ fields.map (·.1))

def Missing : Prop :=
  f.key ∉ fields.map (·.1) ∧ ∀ key, f.second = some key → key ∉ fields.map (·.1)

-- The key by which a field is told of: the one it is found under, or the first if it is missing.
def ToldAs (key : String) : Prop :=
  (∃ value, f.Found fields key value) ∨ f.Missing fields ∧ key = f.key

end Field

-- A key that no field is found under.
def Extra (fields : List (String × Json)) (key : String) : Prop :=
  key ∈ fields.map (·.1) ∧ ∀ f ∈ declared, ∀ value, ¬f.Found fields key value

inductive Lacks (fields : List (String × Json)) : Complaint → List Step → Prop
  | missing {f : Field} (hf : f ∈ declared) (h : f.Missing fields) : Lacks fields .missing [.key f.key]
  | content {f : Field} {key : String} {value : Json} {complaint : Complaint} {rest : List Step} (hf : f ∈ declared)
      (hfound : f.Found fields key value) (h : f.content.Rejects value complaint rest) :
      Lacks fields complaint (.key key :: rest)
  | extra {key : String} (h : Extra fields key) : Lacks fields .extra [.key key]

inductive Offends (value : Json) : Complaint → List Step → Prop
  | notList (h : ∀ items, value ≠ .array items) : Offends value .notList []
  | notRecord {items : List Json} {i : Nat} {item : Json} (hvalue : value = .array items)
      (hitem : items[i]? = some item) (h : ∀ fields, item ≠ .object fields) : Offends value .notRecord [.index i]
  | record {items : List Json} {i : Nat} {fields : List (String × Json)} {complaint : Complaint} {rest : List Step}
      (hvalue : value = .array items) (hitem : items[i]? = some (.object fields)) (h : Lacks fields complaint rest) :
      Offends value complaint (.index i :: rest)

-- The order in which parts are told of. In a record the fields come first, as they are declared, and then the
-- extra keys, as they are written.

inductive ComesFirst (fields : List (String × Json)) : List Step → List Step → Prop
  | declared {f g : Field} {key next : String} {rest others : List Step} (hfg : [f, g].Sublist declared)
      (hf : f.ToldAs fields key) (hg : g.ToldAs fields next) :
      ComesFirst fields (.key key :: rest) (.key next :: others)
  | extra {f : Field} {key next : String} {rest : List Step} (hf : f ∈ FunctionDoc.declared)
      (hkey : f.ToldAs fields key) (hnext : Extra fields next) : ComesFirst fields (.key key :: rest) [.key next]
  | written {key next : String} {value other : Json} (h : [(key, value), (next, other)].Sublist fields)
      (hkey : Extra fields key) (hnext : Extra fields next) : ComesFirst fields [.key key] [.key next]
  | element {key : String} {i j : Nat} (h : i < j) : ComesFirst fields [.key key, .index i] [.key key, .index j]

inductive Before (value : Json) : List Step → List Step → Prop
  | item {i j : Nat} {rest others : List Step} (h : i < j) : Before value (.index i :: rest) (.index j :: others)
  | record {items : List Json} {i : Nat} {fields : List (String × Json)} {rest others : List Step}
      (hvalue : value = .array items) (hitem : items[i]? = some (.object fields)) (h : ComesFirst fields rest others) :
      Before value (.index i :: rest) (.index i :: others)

-- How a value is to be dealt with: accepted with the records that it holds, or refused with one problem for each
-- part that is wrong, in order.
structure Judges (value : Json) (result : Checked (List FunctionDoc)) : Prop where
  accepts : ∀ docs, result = .ok docs ↔ Holds value docs
  refuses : (∀ docs, ¬Holds value docs) → ∃ found, result = .error found ∧ found ≠ [] ∧
    (∀ p : Problem, p ∈ found ↔ Offends value p.complaint p.spot) ∧
    found.Pairwise (fun p q => Before value p.spot q.spot) ∧ (found.map (·.spot)).Nodup

-- Fields are found as described.

section fields

variable {fields : List (String × Json)}

def Field.keys (f : Field) : List String :=
  f.key :: f.second.toList

theorem find?_eq_some_iff (hkeys : (fields.map (·.1)).Nodup) (key : String) (entry : String × Json) :
    (fields.find? fun field => field.1 == key) = some entry ↔ entry ∈ fields ∧ entry.1 = key := by
  constructor
  · intro h
    have hkey := List.find?_some h
    exact ⟨List.mem_of_find?_eq_some h, beq_iff_eq.mp hkey⟩
  · rintro ⟨hmem, rfl⟩
    cases hfind : fields.find? (fun field => field.1 == entry.1) with
    | none => exact absurd (beq_self_eq_true _) (List.find?_eq_none.mp hfind entry hmem)
    | some other =>
        have hother := List.mem_of_find?_eq_some hfind
        have hkey := List.find?_some hfind
        rw [List.inj_on_of_nodup_map hkeys hother hmem (beq_iff_eq.mp hkey)]

theorem find?_eq_none_iff (key : String) :
    (fields.find? fun field => field.1 == key) = none ↔ key ∉ fields.map (·.1) := by
  rw [List.find?_eq_none, List.mem_map, not_exists]
  simp only [beq_iff_eq, not_and]

theorem field?_eq_some_iff (hkeys : (fields.map (·.1)).Nodup) (f : Field) (key : String) (value : Json) :
    field? f.keys fields = some (key, value) ↔ f.Found fields key value := by
  rw [field?, Field.keys, List.findSome?_cons, Field.Found]
  cases hfind : fields.find? (fun field => field.1 == f.key) with
  | some entry =>
      obtain ⟨hentry, hkey⟩ := (find?_eq_some_iff hkeys f.key entry).mp hfind
      have hmem : f.key ∈ fields.map (·.1) := hkey ▸ List.mem_map_of_mem hentry
      simp only [hmem, not_true_eq_false, and_false, or_false, Option.some.injEq]
      constructor
      · rintro rfl
        exact ⟨hentry, hkey⟩
      · rintro ⟨hother, rfl⟩
        exact List.inj_on_of_nodup_map hkeys hentry hother hkey
  | none =>
      have hmem := (find?_eq_none_iff f.key).mp hfind
      have hne : (key, value) ∈ fields → key ≠ f.key := fun hentry heq => hmem (heq ▸ List.mem_map_of_mem hentry)
      dsimp only
      cases hsecond : f.second with
      | none => simpa [hmem] using hne
      | some second =>
          rw [Option.toList_some, List.findSome?_singleton, find?_eq_some_iff hkeys]
          constructor
          · rintro ⟨hentry, rfl⟩
            exact ⟨hentry, Or.inr ⟨rfl, hmem⟩⟩
          · rintro ⟨hentry, heq | ⟨heq, _⟩⟩
            · exact absurd heq (hne hentry)
            · exact ⟨hentry, (Option.some.inj heq).symm⟩

theorem field?_eq_none_iff (f : Field) : field? f.keys fields = none ↔ f.Missing fields := by
  rw [field?, Field.keys, List.findSome?_eq_none_iff, List.forall_mem_cons, find?_eq_none_iff, Field.Missing]
  simp only [find?_eq_none_iff, Option.mem_toList]

theorem mem_usedKeys_iff (hkeys : (fields.map (·.1)).Nodup) (key : String) :
    key ∈ usedKeys fields ↔ ∃ f ∈ declared, ∃ value, f.Found fields key value := by
  have hused : usedKeys fields = declared.filterMap fun f => (field? f.keys fields).map (·.1) := rfl
  rw [hused, List.mem_filterMap]
  refine exists_congr fun f => and_congr_right fun _ => ?_
  rw [Option.map_eq_some_iff]
  constructor
  · rintro ⟨⟨_, value⟩, hfound, rfl⟩
    exact ⟨value, (field?_eq_some_iff hkeys f _ value).mp hfound⟩
  · rintro ⟨value, hfound⟩
    exact ⟨(key, value), (field?_eq_some_iff hkeys f key value).mpr hfound, rfl⟩

theorem extra_iff (hkeys : (fields.map (·.1)).Nodup) (key : String) :
    Extra fields key ↔ key ∈ fields.map (·.1) ∧ key ∉ usedKeys fields := by
  rw [Extra, mem_usedKeys_iff hkeys]
  simp only [not_exists, not_and]

theorem mem_extraKeys_iff (hkeys : (fields.map (·.1)).Nodup) (p : Problem) :
    p ∈ extraKeys fields ↔ ∃ key, Extra fields key ∧ p = ⟨.extra, [.key key]⟩ := by
  simp only [extraKeys, List.mem_map, List.mem_filter, extra_iff hkeys, Bool.not_eq_true', List.contains_eq_mem,
    decide_eq_false_iff_not]
  constructor
  · rintro ⟨entry, ⟨hentry, hused⟩, rfl⟩
    exact ⟨entry.1, ⟨⟨entry, hentry, rfl⟩, hused⟩, rfl⟩
  · rintro ⟨_, ⟨⟨entry, hentry, rfl⟩, hused⟩, rfl⟩
    exact ⟨entry, ⟨hentry, hused⟩, rfl⟩

end fields

-- What is accepted.

theorem checkString_eq_ok_iff {spot : List Step} {value : Json} {s : String} :
    checkString spot value = .ok s ↔ value = .string s := by
  cases value <;> simp [checkString]

theorem checkTag_eq_ok_iff {α : Type} [Tagged α] [LawfulTagged α] {spot : List Step} {value : Json} {a : α} :
    checkTag spot value = .ok a ↔ value = .string (tag a) := by
  constructor
  · intro h
    rw [checkTag.eq_def] at h
    split at h
    · rename_i s
      split at h
      · rename_i known hknown
        have htag := List.find?_some hknown
        cases h
        rw [beq_iff_eq.mp htag]
      · cases h
    · cases h
  · rintro rfl
    exact checkTag_tag spot a

theorem checkStrings_eq_ok_iff {spot : List Step} {i : Nat} {items : List Json} {texts : List String} :
    checkStrings spot i items = .ok texts ↔ items = texts.map .string := by
  constructor
  · intro h
    induction items generalizing i texts with
    | nil => cases h; rfl
    | cons item items ih =>
        rw [checkStrings] at h
        split at h
        · rename_i s rest hs hrest
          cases h
          rw [checkString_eq_ok_iff.mp hs, ih hrest, List.map_cons]
        · cases h
  · rintro rfl
    exact checkStrings_map spot i texts

theorem checkPath_eq_ok_iff {spot : List Step} {value : Json} {texts : List String} :
    checkPath spot value = .ok texts ↔ value = .array (texts.map .string) := by
  cases value <;> simp [checkPath, checkStrings_eq_ok_iff]

section accepted

variable {fields : List (String × Json)}

theorem checkField_eq_ok_iff {α : Type} {check : List Step → Json → Checked α} (hkeys : (fields.map (·.1)).Nodup)
    (f : Field) {a : α} :
    checkField check f.keys fields = .ok a ↔
      ∃ key value, f.Found fields key value ∧ check [.key key] value = .ok a := by
  rw [checkField]
  cases hfield : field? f.keys fields with
  | none =>
      have hnot : ∀ key value, ¬f.Found fields key value := by
        intro key value hfound
        rw [(field?_eq_some_iff hkeys f key value).mpr hfound] at hfield
        cases hfield
      simp [hnot]
  | some entry =>
      have hfound := (field?_eq_some_iff hkeys f entry.1 entry.2).mp hfield
      constructor
      · exact fun h => ⟨entry.1, entry.2, hfound, h⟩
      · rintro ⟨key, value, hother, h⟩
        rw [(field?_eq_some_iff hkeys f key value).mpr hother] at hfield
        obtain rfl := Option.some.inj hfield
        exact h

theorem checkFields_eq_ok_iff {doc : FunctionDoc} :
    checkFields fields = .ok doc ↔
      checkField checkPath pathField.keys fields = .ok doc.path ∧
      checkField checkString signatureField.keys fields = .ok doc.signature ∧
      checkField checkTag unsafetyField.keys fields = .ok doc.unsafety ∧
      checkField checkTag constnessField.keys fields = .ok doc.constness ∧
      checkField checkTag visibilityField.keys fields = .ok doc.visibility ∧
      checkField checkTag abiField.keys fields = .ok doc.abi ∧ extraKeys fields = [] := by
  constructor
  · intro h
    rw [checkFields] at h
    split at h
    · rename_i hpath hsignature hunsafety hconstness hvisibility habi hextra
      cases h
      exact ⟨hpath, hsignature, hunsafety, hconstness, hvisibility, habi, hextra⟩
    · cases h
  · rintro ⟨hpath, hsignature, hunsafety, hconstness, hvisibility, habi, hextra⟩
    change checkField checkPath pathKeys fields = _ at hpath
    change checkField checkString signatureKeys fields = _ at hsignature
    change checkField checkTag unsafetyKeys fields = _ at hunsafety
    change checkField checkTag constnessKeys fields = _ at hconstness
    change checkField checkTag visibilityKeys fields = _ at hvisibility
    change checkField checkTag abiKeys fields = _ at habi
    rw [checkFields]
    simp only [hpath, hsignature, hunsafety, hconstness, hvisibility, habi, hextra]

theorem Field.Found.unique (hkeys : (fields.map (·.1)).Nodup) {f : Field} {key other : String} {value value' : Json}
    (h : f.Found fields key value) (h' : f.Found fields other value') : (key, value) = (other, value') := by
  rw [← field?_eq_some_iff hkeys] at h h'
  exact Option.some.inj (h.symm.trans h')

theorem Field.Found.key_eq {f : Field} {key : String} {value : Json} (h : f.Found fields key value)
    (hsecond : f.second = none) : key = f.key := by
  rcases h.2 with rfl | ⟨hsome, _⟩
  · rfl
  · rw [hsecond] at hsome
    cases hsome

theorem extraKeys_eq_nil_iff (hkeys : (fields.map (·.1)).Nodup) :
    extraKeys fields = [] ↔ ∀ key, ¬Extra fields key := by
  rw [List.eq_nil_iff_forall_not_mem]
  constructor
  · intro h key hkey
    exact h _ ((mem_extraKeys_iff hkeys _).mpr ⟨key, hkey, rfl⟩)
  · intro h p hp
    obtain ⟨key, hkey, _⟩ := (mem_extraKeys_iff hkeys p).mp hp
    exact h key hkey

-- An object in which the six fields of a record are found, and no other key.
structure Filled (fields : List (String × Json)) (pathKey abiKey : String) (doc : FunctionDoc) : Prop where
  path : pathField.Found fields pathKey (.array (doc.path.map .string))
  signature : signatureField.Found fields "signature" (.string doc.signature)
  unsafety : unsafetyField.Found fields "unsafety" (.string (tag doc.unsafety))
  constness : constnessField.Found fields "constness" (.string (tag doc.constness))
  visibility : visibilityField.Found fields "visibility" (.string (tag doc.visibility))
  abi : abiField.Found fields abiKey (.string (tag doc.abi))
  others : ∀ key, ¬Extra fields key

theorem checkFields_eq_ok_iff_filled (hkeys : (fields.map (·.1)).Nodup) {doc : FunctionDoc} :
    checkFields fields = .ok doc ↔ ∃ pathKey abiKey, Filled fields pathKey abiKey doc := by
  rw [checkFields_eq_ok_iff]
  simp only [checkField_eq_ok_iff hkeys, checkPath_eq_ok_iff, checkString_eq_ok_iff, checkTag_eq_ok_iff,
    extraKeys_eq_nil_iff hkeys]
  constructor
  · rintro ⟨⟨pathKey, _, hpath, rfl⟩, ⟨_, _, hsignature, rfl⟩, ⟨_, _, hunsafety, rfl⟩, ⟨_, _, hconstness, rfl⟩,
      ⟨_, _, hvisibility, rfl⟩, ⟨abiKey, _, habi, rfl⟩, hothers⟩
    obtain rfl := hsignature.key_eq rfl
    obtain rfl := hunsafety.key_eq rfl
    obtain rfl := hconstness.key_eq rfl
    obtain rfl := hvisibility.key_eq rfl
    exact ⟨pathKey, abiKey, hpath, hsignature, hunsafety, hconstness, hvisibility, habi, hothers⟩
  · rintro ⟨pathKey, abiKey, h⟩
    exact ⟨⟨_, _, h.path, rfl⟩, ⟨_, _, h.signature, rfl⟩, ⟨_, _, h.unsafety, rfl⟩, ⟨_, _, h.constness, rfl⟩,
      ⟨_, _, h.visibility, rfl⟩, ⟨_, _, h.abi, rfl⟩, h.others⟩

theorem nodup_map_fst_entriesOf {pathKey abiKey : String} (hpath : pathKey = "path" ∨ pathKey = "symbol_path")
    (habi : abiKey = "abi" ∨ abiKey = "calling_convention") (doc : FunctionDoc) :
    ((entriesOf pathKey abiKey doc).map (·.1)).Nodup := by
  have hmap : (entriesOf pathKey abiKey doc).map (·.1) =
      [pathKey, "signature", "unsafety", "constness", "visibility", abiKey] := rfl
  rw [hmap]
  rcases hpath with rfl | rfl <;> rcases habi with rfl | rfl <;> decide

theorem Filled.keys {pathKey abiKey : String} {doc : FunctionDoc} (h : Filled fields pathKey abiKey doc) :
    (pathKey = "path" ∨ pathKey = "symbol_path") ∧ (abiKey = "abi" ∨ abiKey = "calling_convention") := by
  constructor
  · rcases h.path.2 with hkey | ⟨hkey, _⟩
    · exact Or.inl hkey
    · exact Or.inr (Option.some.inj hkey).symm
  · rcases h.abi.2 with hkey | ⟨hkey, _⟩
    · exact Or.inl hkey
    · exact Or.inr (Option.some.inj hkey).symm

-- Every entry of such an object is one of the six, since its key is that of a field.
theorem Filled.mem_iff (hkeys : (fields.map (·.1)).Nodup) {pathKey abiKey : String} {doc : FunctionDoc}
    (h : Filled fields pathKey abiKey doc) (entry : String × Json) :
    entry ∈ fields ↔ entry ∈ entriesOf pathKey abiKey doc := by
  simp only [entriesOf, List.mem_cons, List.not_mem_nil, or_false]
  constructor
  · intro hentry
    obtain ⟨f, hf, value, hfound⟩ : ∃ f ∈ declared, ∃ value, f.Found fields entry.1 value := by
      by_contra hnone
      simp only [not_exists, not_and] at hnone
      exact h.others entry.1 ⟨List.mem_map_of_mem hentry, hnone⟩
    have hvalue : (entry.1, value) = entry := List.inj_on_of_nodup_map hkeys hfound.1 hentry rfl
    rw [← hvalue]
    simp only [declared, List.mem_cons, List.not_mem_nil, or_false] at hf
    rcases hf with rfl | rfl | rfl | rfl | rfl | rfl
    · exact Or.inl (hfound.unique hkeys h.path)
    · exact Or.inr (Or.inl (hfound.unique hkeys h.signature))
    · exact Or.inr (Or.inr (Or.inl (hfound.unique hkeys h.unsafety)))
    · exact Or.inr (Or.inr (Or.inr (Or.inl (hfound.unique hkeys h.constness))))
    · exact Or.inr (Or.inr (Or.inr (Or.inr (Or.inl (hfound.unique hkeys h.visibility)))))
    · exact Or.inr (Or.inr (Or.inr (Or.inr (Or.inr (hfound.unique hkeys h.abi)))))
  · rintro (rfl | rfl | rfl | rfl | rfl | rfl)
    · exact h.path.1
    · exact h.signature.1
    · exact h.unsafety.1
    · exact h.constness.1
    · exact h.visibility.1
    · exact h.abi.1

theorem filled_of_perm {pathKey abiKey : String} {doc : FunctionDoc}
    (hpath : pathKey = "path" ∨ pathKey = "symbol_path") (habi : abiKey = "abi" ∨ abiKey = "calling_convention")
    (h : fields.Perm (entriesOf pathKey abiKey doc)) :
    Filled fields pathKey abiKey doc := by
  have hmem : ∀ entry ∈ entriesOf pathKey abiKey doc, entry ∈ fields := fun entry hentry => h.mem_iff.mpr hentry
  have hkey : ∀ key, key ∈ fields.map (·.1) ↔
      key ∈ [pathKey, "signature", "unsafety", "constness", "visibility", abiKey] := fun key => (h.map (·.1)).mem_iff
  simp only [entriesOf, List.forall_mem_cons] at hmem
  obtain ⟨h1, h2, h3, h4, h5, h6, _⟩ := hmem
  have hfirst : pathField.Found fields pathKey (.array (doc.path.map .string)) := by
    refine ⟨h1, hpath.imp_right ?_⟩
    rintro rfl
    refine ⟨rfl, ?_⟩
    rw [hkey]
    rcases habi with rfl | rfl <;> decide
  have hlast : abiField.Found fields abiKey (.string (tag doc.abi)) := by
    refine ⟨h6, habi.imp_right ?_⟩
    rintro rfl
    refine ⟨rfl, ?_⟩
    rw [hkey]
    rcases hpath with rfl | rfl <;> decide
  refine ⟨hfirst, ⟨h2, Or.inl rfl⟩, ⟨h3, Or.inl rfl⟩, ⟨h4, Or.inl rfl⟩, ⟨h5, Or.inl rfl⟩, hlast, ?_⟩
  rintro key ⟨hin, hnone⟩
  rw [hkey] at hin
  simp only [List.mem_cons, List.not_mem_nil, or_false] at hin
  simp only [declared, List.forall_mem_cons] at hnone
  obtain ⟨n1, n2, n3, n4, n5, n6, _⟩ := hnone
  rcases hin with rfl | rfl | rfl | rfl | rfl | rfl
  · exact n1 _ hfirst
  · exact n2 _ ⟨h2, Or.inl rfl⟩
  · exact n3 _ ⟨h3, Or.inl rfl⟩
  · exact n4 _ ⟨h4, Or.inl rfl⟩
  · exact n5 _ ⟨h5, Or.inl rfl⟩
  · exact n6 _ hlast

theorem checkFields_eq_ok_iff_spells (hkeys : (fields.map (·.1)).Nodup) {doc : FunctionDoc} :
    checkFields fields = .ok doc ↔ Spells fields doc := by
  rw [checkFields_eq_ok_iff_filled hkeys]
  constructor
  · rintro ⟨pathKey, abiKey, h⟩
    have hentries := nodup_map_fst_entriesOf h.keys.1 h.keys.2 doc
    refine ⟨pathKey, abiKey, h.keys.1, h.keys.2, ?_⟩
    exact (List.perm_ext_iff_of_nodup hkeys.of_map hentries.of_map).mpr (h.mem_iff hkeys)
  · rintro ⟨pathKey, abiKey, hpath, habi, hperm⟩
    exact ⟨pathKey, abiKey, filled_of_perm hpath habi hperm⟩

theorem check_eq_ok_iff {item : Json} (hproper : item.Proper) {doc : FunctionDoc} :
    check item = .ok doc ↔ ∃ fields, item = .object fields ∧ Spells fields doc := by
  cases hproper with
  | object hkeys _ => simp [check, checkFields_eq_ok_iff_spells hkeys]
  | _ => simp [check]

theorem checkItems_eq_ok_iff {i : Nat} {items : List Json} (hproper : ∀ item ∈ items, item.Proper)
    {docs : List FunctionDoc} :
    checkItems i items = .ok docs ↔
      List.Forall₂ (fun item doc => ∃ fields, item = .object fields ∧ Spells fields doc) items docs := by
  induction items generalizing i docs with
  | nil =>
      rw [List.forall₂_nil_left_iff, checkItems]
      exact ⟨fun h => (Except.ok.inj h).symm, fun h => by rw [h]⟩
  | cons item items ih =>
      rw [List.forall_mem_cons] at hproper
      rw [List.forall₂_cons_left_iff, checkItems]
      constructor
      · intro h
        split at h
        · rename_i doc rest hdoc hrest
          cases h
          exact ⟨doc, rest, (check_eq_ok_iff hproper.1).mp hdoc, (ih hproper.2).mp hrest, rfl⟩
        · cases h
      · rintro ⟨doc, rest, hdoc, hrest, rfl⟩
        rw [(check_eq_ok_iff hproper.1).mpr hdoc, (ih hproper.2).mpr hrest]

theorem checkList_eq_ok_iff {value : Json} (hproper : value.Proper) {docs : List FunctionDoc} :
    checkList value = .ok docs ↔ Holds value docs := by
  cases hproper with
  | array hitems => simp [checkList, checkItems_eq_ok_iff hitems, Holds]
  | _ => simp [checkList, Holds]

end accepted

end CrateDocs.FunctionDoc
