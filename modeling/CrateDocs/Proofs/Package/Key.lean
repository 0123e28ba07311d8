import CrateDocs.Package.Basic
import CrateDocs.Proofs.Text.Percent
import CrateDocs.Proofs.Text.Raw

namespace CrateDocs

namespace Text

variable {α : Type} {mark : α}

-- A mark that occurs has a last occurrence.
theorem exists_last_mark {cs : List α} (h : mark ∈ cs) : ∃ front back, cs = front ++ mark :: back ∧ mark ∉ back := by
  obtain ⟨back, front, hback, hreverse⟩ := List.eq_append_cons_of_mem (List.mem_reverse.mpr h)
  refine ⟨front.reverse, back.reverse, ?_, by simpa using hreverse⟩
  rw [← List.reverse_reverse cs, hback]
  simp

variable [BEq α] [LawfulBEq α]

theorem dropWhile_ne_append {front : List α} (back : List α) (h : mark ∉ front) :
    (front ++ mark :: back).dropWhile (· != mark) = mark :: back ∧
      (front ++ mark :: back).takeWhile (· != mark) = front := by
  have hfront : ∀ c ∈ front, (c != mark) = true := by
    intro c hc
    simp only [bne_iff_ne]
    rintro rfl
    exact h hc
  constructor
  · rw [List.dropWhile_append_of_pos hfront, List.dropWhile_cons]
    simp
  · rw [List.takeWhile_append_of_pos hfront, List.takeWhile_cons]
    simp

theorem cutLast?_append (front back : List α) (h : mark ∉ back) :
    cutLast? mark (front ++ mark :: back) = some (front, back) := by
  have hback : mark ∉ back.reverse := by simpa using h
  have hcut := dropWhile_ne_append front.reverse hback
  simp only [cutLast?, List.reverse_append, List.reverse_cons, List.append_assoc,
    List.singleton_append, hcut]
  simp

theorem cutLast?_eq_some_iff {cs front back : List α} :
    cutLast? mark cs = some (front, back) ↔ cs = front ++ mark :: back ∧ mark ∉ back := by
  constructor
  · intro h
    have hmem : mark ∈ cs := by
      rw [cutLast?] at h
      split at h
      · rename_i hmem
        exact List.mem_reverse.mp (List.contains_iff_mem.mp hmem)
      · cases h
    obtain ⟨front', back', rfl, hback⟩ := exists_last_mark hmem
    rw [cutLast?_append _ _ hback] at h
    obtain ⟨rfl, rfl⟩ := Prod.mk.inj (Option.some.inj h)
    exact ⟨rfl, hback⟩
  · rintro ⟨rfl, hback⟩
    exact cutLast?_append front back hback

end Text

namespace Package

-- A package as a manifest can describe it.
def Named (p : Package) : Prop :=
  p.name ≠ "" ∧ p.version ≠ ""

instance (p : Package) : Decidable p.Named :=
  inferInstanceAs (Decidable (_ ∧ _))

-- The two parts of a key.
def nameCode (p : Package) : List Char := (Percent.encode p.name).toList
def versionCode (p : Package) : List Char :=
  (Text.replaceChar '-' "%2D" (Percent.encode p.version)).toList

theorem toList_key (p : Package) : p.key.toList = p.nameCode ++ '-' :: p.versionCode := by
  simp [key, nameCode, versionCode]

theorem mem_nameCode {p : Package} {c : Char} (hc : c ∈ p.nameCode) : Percent.isCodeChar c = true := by
  rw [nameCode, Percent.encode, String.toList_ofList] at hc
  obtain ⟨b, _, hc⟩ := List.mem_flatMap.mp hc
  exact (Percent.mem_encodeByte hc).1

theorem mem_versionCode {p : Package} {c : Char} (hc : c ∈ p.versionCode) :
    Percent.isCodeChar c = true ∧ c ≠ '-' := by
  rw [versionCode, Percent.replaceChar_encode, String.toList_ofList] at hc
  obtain ⟨b, _, hc⟩ := List.mem_flatMap.mp hc
  exact Percent.mem_encodeDash hc

theorem mem_key {p : Package} {c : Char} (hc : c ∈ p.key.toList) : Percent.isCodeChar c = true := by
  rw [toList_key, List.mem_append, List.mem_cons] at hc
  rcases hc with hc | rfl | hc
  · exact mem_nameCode hc
  · decide
  · exact (mem_versionCode hc).1

theorem decode_nameCode (p : Package) : Percent.decode (String.ofList p.nameCode) = p.name := by
  rw [nameCode, String.ofList_toList, Percent.decode_encode]

theorem decode_versionCode (p : Package) : Percent.decode (String.ofList p.versionCode) = p.version := by
  rw [versionCode, String.ofList_toList, Percent.decode_encodeDash]

-- The last raw `-` of a key is the one between its parts.
theorem cutLast?_key (p : Package) :
    Text.cutLast? '-' p.key.toList = some (p.nameCode, p.versionCode) := by
  rw [toList_key]
  exact Text.cutLast?_append _ _ fun h => (mem_versionCode h).2 rfl

theorem nameCode_eq_nil_iff (p : Package) : p.nameCode = [] ↔ p.name = "" := by
  constructor
  · intro h
    rw [← decode_nameCode p, h]
    rfl
  · intro h
    rw [nameCode, h]
    rfl

theorem versionCode_eq_nil_iff (p : Package) : p.versionCode = [] ↔ p.version = "" := by
  constructor
  · intro h
    rw [← decode_versionCode p, h]
    rfl
  · intro h
    rw [versionCode, h]
    rfl

theorem ofKey?_key (p : Package) (h : p.Named) : ofKey? p.key = some p := by
  have hname : p.nameCode.isEmpty = false := by
    simpa [nameCode_eq_nil_iff] using h.1
  have hversion : p.versionCode.isEmpty = false := by
    simpa [versionCode_eq_nil_iff] using h.2
  simp only [ofKey?, cutLast?_key, hname, hversion, Bool.or_self, decode_nameCode,
    decode_versionCode, beq_self_eq_true, if_true, Bool.false_eq_true, if_false]

theorem key_of_ofKey? {k : String} {p : Package} (h : ofKey? k = some p) : p.key = k ∧ p.Named := by
  cases hcut : Text.cutLast? '-' k.toList with
  | none => simp [ofKey?, hcut] at h
  | some parts =>
      obtain ⟨name, version⟩ := parts
      simp only [ofKey?, hcut] at h
      split at h
      · cases h
      · rename_i hempty
        split at h
        · rename_i hkey
          obtain rfl := Option.some.inj h
          have hkey := beq_iff_eq.mp hkey
          -- The parts that were cut are those of the package, which has this key.
          rw [← hkey, cutLast?_key] at hcut
          obtain ⟨hname, hversion⟩ := Prod.mk.inj (Option.some.inj hcut)
          rw [← hname, ← hversion] at hempty
          simp only [Bool.or_eq_true, List.isEmpty_iff, nameCode_eq_nil_iff, versionCode_eq_nil_iff,
            not_or] at hempty
          exact ⟨hkey, hempty⟩
        · cases h

theorem key_injective {p q : Package} (h : p.key = q.key) : p = q := by
  have hcut := cutLast?_key p
  rw [h, cutLast?_key q] at hcut
  obtain ⟨hname, hversion⟩ := Prod.mk.inj (Option.some.inj hcut)
  have hsame : p.name = q.name ∧ p.version = q.version := by
    rw [← decode_nameCode p, ← decode_versionCode p, ← hname, ← hversion, decode_nameCode, decode_versionCode]
    exact ⟨rfl, rfl⟩
  cases p
  cases q
  simpa using hsame

-- Whether a raw text looks like a key: something stands on both sides of its last `-`.
def KeyLike (key : RawText) : Prop :=
  ∃ name version, key = name ++ .char '-' :: version ∧ .char '-' ∉ version ∧ name ≠ [] ∧ version ≠ []

theorem keyLike_iff {key : RawText} :
    KeyLike key ↔ ∃ name version, Text.cutLast? (RawUnit.char '-') key = some (name, version) ∧
      (name.isEmpty || version.isEmpty) = false := by
  simp only [KeyLike, Text.cutLast?_eq_some_iff, Bool.or_eq_false_iff, List.isEmpty_eq_false_iff, and_assoc]

instance (key : RawText) : Decidable (KeyLike key) :=
  decidable_of_iff ((Text.cutLast? (RawUnit.char '-') key).any fun parts => !(parts.1.isEmpty || parts.2.isEmpty)) (by
    rw [keyLike_iff]
    rcases Text.cutLast? (RawUnit.char '-') key with _ | ⟨name, version⟩ <;> simp)

-- What looks like a key is read by its text, and nothing else is taken for one.
theorem ofRawKey_eq (key : RawText) :
    ofRawKey key = if KeyLike key then key.toText.map ofKey? else .ok none := by
  rw [ofRawKey]
  split
  · rename_i hcut
    rw [if_neg]
    rintro hlike
    obtain ⟨_, _, hsome, _⟩ := keyLike_iff.mp hlike
    rw [hcut] at hsome
    cases hsome
  · rename_i name version hcut
    cases hempty : name.isEmpty || version.isEmpty with
    | false => rw [if_neg (by simp), if_pos (keyLike_iff.mpr ⟨name, version, hcut, hempty⟩)]
    | true =>
        rw [if_pos rfl, if_neg]
        intro hlike
        obtain ⟨_, _, hsome, hfull⟩ := keyLike_iff.mp hlike
        rw [hcut] at hsome
        obtain ⟨rfl, rfl⟩ := Prod.mk.inj (Option.some.inj hsome)
        rw [hempty] at hfull
        cases hfull

theorem ofRawKey_eq_error_iff {key : RawText} {e : Unencodable} :
    ofRawKey key = .error e ↔ KeyLike key ∧ key.toText = .error e := by
  rw [ofRawKey_eq]
  split
  · rename_i hlike
    simp only [Result.map_eq_error_iff, hlike, true_and]
  · rename_i hlike
    simp [hlike]

theorem keyLike_key {p : Package} (h : p.Named) : KeyLike (.ofText p.key) := by
  refine ⟨p.nameCode.map .char, p.versionCode.map .char, ?_, ?_, ?_, ?_⟩
  · rw [RawText.ofText, toList_key, List.map_append, List.map_cons]
  · intro hmem
    obtain ⟨c, hc, hdash⟩ := List.mem_map.mp hmem
    exact (mem_versionCode hc).2 (RawUnit.char.inj hdash)
  · rw [Ne, List.map_eq_nil_iff, nameCode_eq_nil_iff]
    exact h.1
  · rw [Ne, List.map_eq_nil_iff, versionCode_eq_nil_iff]
    exact h.2

theorem ofRawKey_ofText (k : String) : ofRawKey (.ofText k) = .ok (ofKey? k) := by
  rw [ofRawKey_eq, RawText.toText_ofText]
  split
  · rfl
  · rename_i hlike
    cases hkey : ofKey? k with
    | none => rfl
    | some p =>
        obtain ⟨rfl, hnamed⟩ := key_of_ofKey? hkey
        exact absurd (keyLike_key hnamed) hlike

-- A name with a byte that encodes no character.
example : ofRawKey (RawText.ofText "a" ++ .ofByte 0xFF :: RawText.ofText "-1") = .error ⟨0x4FF⟩ := by decide +kernel

end Package

end CrateDocs
