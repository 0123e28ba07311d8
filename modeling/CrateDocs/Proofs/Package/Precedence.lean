import CrateDocs.Proofs.Package.SemVer
import CrateDocs.Proofs.Package.Version
import Mathlib.Data.String.Basic

namespace CrateDocs

namespace Version

open SemVer (isAllowed)

-- The characters of the grammar, as they are told apart in components.

theorem digitValue?_of_lt {c : Char} (h : c.toNat < 0x660) :
    Text.digitValue? c = if c.isDigit then some (c.toNat - '0'.toNat) else none := by
  have hzeros : ∀ first ∈ Text.decimalZeros, first = '0'.toNat ∨ 0x660 ≤ first := by decide
  have hnine : '9'.toNat = '0'.toNat + 9 := rfl
  have hdigit := Char.isDigit_iff_toNat (c := c)
  rw [hnine] at hdigit
  by_cases hc : c.isDigit = true
  · obtain ⟨hlow, hhigh⟩ := hdigit.mp hc
    have hfirst : ('0'.toNat ≤ c.toNat && c.toNat < '0'.toNat + 10) = true := by
      rw [Bool.and_eq_true, decide_eq_true_eq, decide_eq_true_eq]
      omega
    have hcons : Text.decimalZeros = '0'.toNat :: Text.decimalZeros.tail := rfl
    rw [if_pos hc, Text.digitValue?, hcons, List.find?_cons, hfirst]
    rfl
  · have hnone : Text.decimalZeros.find? (fun first => first ≤ c.toNat && c.toNat < first + 10) = none := by
      rw [List.find?_eq_none]
      intro first hmem hfirst
      rw [Bool.and_eq_true, decide_eq_true_eq, decide_eq_true_eq] at hfirst
      rcases hzeros first hmem with rfl | hlarge
      · exact hc (hdigit.mpr (by omega))
      · omega
    rw [if_neg hc, Text.digitValue?, hnone]
    rfl

theorem toNat_lt_of_isAllowed {c : Char} (h : isAllowed c = true) : c.toNat < 0x660 := by
  rw [isAllowed, Bool.or_eq_true, Char.isAlphanum, Bool.or_eq_true, beq_iff_eq] at h
  rcases h with (halpha | hdigit) | rfl
  · rcases (Bool.or_eq_true ..).mp halpha with hupper | hlower
    · have hle : c.val ≤ 'Z'.val := (of_decide_eq_true hupper).2
      exact Nat.lt_of_le_of_lt hle (by decide)
    · have hle : c.val ≤ 'z'.val := of_decide_eq_true ((Bool.and_eq_true ..).mp hlower).2
      exact Nat.lt_of_le_of_lt hle (by decide)
  · have hle : c.val ≤ '9'.val := of_decide_eq_true ((Bool.and_eq_true ..).mp hdigit).2
    exact Nat.lt_of_le_of_lt hle (by decide)
  · decide

theorem classOf_of_isAllowed {c : Char} (h : isAllowed c = true) :
    classOf c = if c.isDigit then .digit else .other := by
  have hdot : (c == '.') = false := by
    rw [beq_eq_false_iff_ne]
    rintro rfl
    revert h
    decide
  rw [classOf, Text.isDigit, digitValue?_of_lt (toNat_lt_of_isAllowed h), hdot]
  cases c.isDigit <;> rfl

-- Components between dots.

-- A component as it is written: of one class of characters, which is not that of dots.
def Solid (piece : List Char) : Prop :=
  piece ≠ [] ∧ ∃ cls ≠ CharClass.dot, ∀ c ∈ piece, classOf c = cls

theorem Solid.splitBy_eq {piece : List Char} (h : Solid piece) :
    piece.splitBy (fun a b => classOf a == classOf b) = [piece] := by
  obtain ⟨hne, cls, _, hclass⟩ := h
  apply List.splitBy_of_isChain hne
  apply List.Pairwise.isChain
  rw [List.pairwise_iff_forall_sublist]
  intro a b hab
  rw [hclass a (hab.subset (by simp)), hclass b (hab.subset (by simp))]
  exact beq_self_eq_true cls

theorem Solid.head_ne {piece : List Char} (h : Solid piece) : (piece.head?.map classOf != some .dot) = true := by
  obtain ⟨hne, cls, hdot, hclass⟩ := h
  cases piece with
  | nil => exact absurd rfl hne
  | cons c piece =>
      rw [List.head?_cons, Option.map_some, hclass c List.mem_cons_self]
      simpa using hdot

theorem classOf_dot : classOf '.' = .dot := by decide

theorem tokens_append_dot {piece rest : List Char} (h : Solid piece)
    (hrest : ∀ c, rest.head? = some c → classOf c ≠ .dot) : tokens (piece ++ '.' :: rest) = piece :: tokens rest := by
  have hsplit := h.splitBy_eq
  have hhead := h.head_ne
  obtain ⟨_, cls, hdot, hclass⟩ := h
  have hpiece : ∀ a ∈ piece.getLast?, (classOf a == classOf '.') = false := by
    intro a ha
    rw [hclass a (List.mem_of_getLast? ha), classOf_dot]
    simpa using hdot
  have hnext : ∀ a ∈ ['.'].getLast?, ∀ c ∈ rest.head?, (classOf a == classOf c) = false := by
    intro a ha c hc
    obtain rfl : '.' = a := by simpa using ha
    rw [classOf_dot]
    simpa using Ne.symm (hrest c hc)
  have hdots : ('.' :: rest).splitBy (fun a b => classOf a == classOf b) =
      ['.'] :: rest.splitBy (fun a b => classOf a == classOf b) :=
    List.splitBy_append (r := fun a b => classOf a == classOf b) (l := ['.']) hnext
  rw [tokens, List.splitBy_append_cons _ hpiece, hsplit, hdots, List.singleton_append, tokens]
  simp [hhead, classOf_dot]

theorem head?_intercalate {piece : List Char} (hne : piece ≠ []) (pieces : List (List Char)) :
    (['.'].intercalate (piece :: pieces)).head? = piece.head? := by
  cases pieces with
  | nil => rw [List.intercalate_singleton]
  | cons next pieces =>
      rw [List.intercalate_cons_cons, List.append_assoc, List.head?_append_of_ne_nil _ hne]

theorem tokens_intercalate {pieces : List (List Char)} (h : ∀ piece ∈ pieces, Solid piece) :
    tokens (['.'].intercalate pieces) = pieces := by
  induction pieces with
  | nil => rfl
  | cons piece pieces ih =>
      rw [List.forall_mem_cons] at h
      cases pieces with
      | nil =>
          rw [List.intercalate_singleton, tokens, h.1.splitBy_eq]
          simp [h.1.head_ne]
      | cons next pieces =>
          obtain ⟨hne, cls, hdot, hclass⟩ := h.2 next List.mem_cons_self
          have hrest : ∀ c, (['.'].intercalate (next :: pieces)).head? = some c → classOf c ≠ .dot := by
            intro c hc
            rw [head?_intercalate hne] at hc
            rw [hclass c (List.mem_of_head? hc)]
            exact hdot
          rw [List.intercalate_cons_cons, List.append_assoc, List.singleton_append, tokens_append_dot h.1 hrest, ih h.2]

theorem parts_intercalate {pieces : List (List Char)} {found : List Part} (hsolid : ∀ piece ∈ pieces, Solid piece)
    (hparts : List.Forall₂ (fun piece p => part piece = .ok p) pieces found) :
    parts (['.'].intercalate pieces) = .ok found := by
  rw [parts, tokens_intercalate hsolid, Result.mapM_eq_ok_iff]
  exact hparts

-- Lists of components are compared as the items that they stand for.
theorem compareParts_map {α : Type} {f : α → Part} {lower : α → α → Prop}
    (hlt : ∀ a b, (f a).compare (f b) = .lt ↔ lower a b) (heq : ∀ a b, (f a).compare (f b) = .eq ↔ a = b)
    (as bs : List α) :
    (compareParts (as.map f) (bs.map f) = .lt ↔ List.Lex lower as bs) ∧
      (compareParts (as.map f) (bs.map f) = .eq ↔ as = bs) := by
  induction as generalizing bs with
  | nil =>
      cases bs with
      | nil => simp [compareParts]
      | cons b bs => simp [compareParts]
  | cons a as ih =>
      cases bs with
      | nil => simp [compareParts]
      | cons b bs =>
          obtain ⟨hrest, hsame⟩ := ih bs
          simp only [List.map_cons, compareParts, Ordering.then_eq_lt, Ordering.then_eq_eq, hlt, heq, hrest, hsame,
            List.cons_lex_cons_iff, List.cons.injEq, and_self]

end Version

namespace SemVer

open Version (Solid classOf)

-- The key of a version that is written by the grammar.

def Identifier.part : Identifier → Version.Part
  | number n => .number n.value
  | word w => .word (String.ofList w.chars)

theorem isAllowed_of_isDigit {c : Char} (h : c.isDigit = true) : isAllowed c = true := by
  simp [isAllowed, Char.isAlphanum, h]

theorem Numeral.solid (n : Numeral) : Solid n.digits := by
  refine ⟨n.ne_nil, .digit, nofun, fun c hc => ?_⟩
  have hdigit := n.isDigit c hc
  rw [Version.classOf_of_isAllowed (isAllowed_of_isDigit hdigit), if_pos hdigit]

theorem Word.ne_nil (w : Word) : w.chars ≠ [] := by
  obtain ⟨c, hc, _⟩ := w.notNumber
  exact List.ne_nil_of_mem hc

theorem Word.solid {w : Word} (h : ∀ c ∈ w.chars, c.isDigit = false) : Solid w.chars := by
  refine ⟨w.ne_nil, .other, nofun, fun c hc => ?_⟩
  rw [Version.classOf_of_isAllowed (w.allowed c hc), h c hc]
  rfl

theorem textIsDigit {c : Char} (h : isAllowed c = true) : Text.isDigit c = c.isDigit := by
  rw [Text.isDigit, Version.digitValue?_of_lt (Version.toNat_lt_of_isAllowed h)]
  cases c.isDigit <;> rfl

theorem Numeral.decimalValue_digits (n : Numeral) : Text.decimalValue n.digits = n.value := by
  apply List.foldl_ext
  intro sofar c hc
  have hdigit := n.isDigit c hc
  rw [Version.digitValue?_of_lt (Version.toNat_lt_of_isAllowed (isAllowed_of_isDigit hdigit)), if_pos hdigit]
  rfl

theorem Numeral.part_digits {n : Numeral} (h : n.digits.length ≤ 4300) :
    Version.part n.digits = .ok (.number n.value) := by
  have hall : n.digits.all Text.isDigit = true := by
    rw [List.all_eq_true]
    intro c hc
    have hdigit := n.isDigit c hc
    rw [textIsDigit (isAllowed_of_isDigit hdigit), hdigit]
  have hlimit : ¬Text.digitLimit < n.digits.length := Nat.not_lt.mpr h
  rw [Version.part, hall, if_pos rfl, if_neg hlimit, n.decimalValue_digits]

theorem Word.part_chars (w : Word) : Version.part w.chars = .ok (.word (String.ofList w.chars)) := by
  obtain ⟨c, hc, hdigit⟩ := w.notNumber
  have hall : w.chars.all Text.isDigit = false := by
    rw [List.all_eq_false]
    refine ⟨c, hc, ?_⟩
    rw [textIsDigit (w.allowed c hc), hdigit]
    exact Bool.false_ne_true
  rw [Version.part, hall]
  rfl

theorem parts_core {v : SemVer} (h : v.Plain) : Version.parts v.coreText = .ok (v.core.map .number) := by
  have hshort := h.core
  simp only [List.forall_mem_cons] at hshort
  apply Version.parts_intercalate
  · simp [Numeral.solid]
  · refine .cons ?_ (.cons ?_ (.cons ?_ .nil))
    · exact Numeral.part_digits hshort.1
    · exact Numeral.part_digits hshort.2.1
    · exact Numeral.part_digits hshort.2.2.1

theorem parts_pre {v : SemVer} (h : v.Plain) :
    Version.parts (['.'].intercalate (v.pre.map Identifier.chars)) = .ok (v.pre.map Identifier.part) := by
  apply Version.parts_intercalate
  · intro piece hpiece
    obtain ⟨identifier, hmem, rfl⟩ := List.mem_map.mp hpiece
    cases identifier with
    | number n => exact n.solid
    | word w => exact Word.solid (h.words w hmem)
  · rw [List.forall₂_map_left_iff, List.forall₂_map_right_iff, List.forall₂_same]
    intro identifier hmem
    cases identifier with
    | number n => exact Numeral.part_digits (h.numbers n hmem)
    | word w => exact w.part_chars

-- Where the marks stand.

theorem mem_intercalate_dot {pieces : List (List Char)} {c : Char} (h : c ∈ ['.'].intercalate pieces) :
    c = '.' ∨ ∃ piece ∈ pieces, c ∈ piece := by
  induction pieces with
  | nil => simp at h
  | cons piece pieces ih =>
      cases pieces with
      | nil =>
          rw [List.intercalate_singleton] at h
          exact Or.inr ⟨piece, List.mem_cons_self, h⟩
      | cons next pieces =>
          rw [List.intercalate_cons_cons, List.append_assoc, List.mem_append, List.mem_append, List.mem_singleton] at h
          rcases h with h | h | h
          · exact Or.inr ⟨piece, List.mem_cons_self, h⟩
          · exact Or.inl h
          · rcases ih h with hdot | ⟨other, hother, hc⟩
            · exact Or.inl hdot
            · exact Or.inr ⟨other, List.mem_cons_of_mem _ hother, hc⟩

theorem cutFirst_marked {mark : Char} {before : List Char} (h : mark ∉ before) (pieces : List (List Char)) :
    Text.cutFirst mark (before ++ marked mark pieces) = (before, ['.'].intercalate pieces) := by
  have hbefore : ∀ c ∈ before, (c != mark) = true := by
    intro c hc
    rw [bne_iff_ne]
    rintro rfl
    exact h hc
  rw [Text.cutFirst, List.takeWhile_append_of_pos hbefore, List.dropWhile_append_of_pos hbefore, marked]
  by_cases hpieces : pieces = []
  · simp [hpieces]
  · simp [hpieces]

theorem dash_notMem_coreText (v : SemVer) : '-' ∉ v.coreText := by
  intro h
  rcases mem_intercalate_dot h with hdot | ⟨piece, hpiece, hc⟩
  · revert hdot
    decide
  · have hdigit : ∀ n : Numeral, '-' ∉ n.digits := by
      intro n hn
      have hdash := n.isDigit '-' hn
      revert hdash
      decide
    simp only [List.mem_cons, List.not_mem_nil, or_false] at hpiece
    rcases hpiece with rfl | rfl | rfl
    all_goals exact hdigit _ hc

theorem Identifier.allowed (identifier : Identifier) : ∀ c ∈ identifier.chars, isAllowed c = true := by
  cases identifier with
  | number n => exact fun c hc => isAllowed_of_isDigit (n.isDigit c hc)
  | word w => exact w.allowed

theorem Identifier.chars_ne_nil (identifier : Identifier) : identifier.chars ≠ [] := by
  cases identifier with
  | number n => exact n.ne_nil
  | word w => exact w.ne_nil

theorem plus_notMem (v : SemVer) : '+' ∉ v.coreText ++ marked '-' (v.pre.map Identifier.chars) := by
  have hplus : isAllowed '+' = false := by decide
  have hpieces : ∀ pieces : List (List Char), (∀ piece ∈ pieces, ∀ c ∈ piece, isAllowed c = true) →
      '+' ∉ ['.'].intercalate pieces := by
    intro pieces hallowed h
    rcases mem_intercalate_dot h with hdot | ⟨piece, hpiece, hc⟩
    · revert hdot
      decide
    · rw [hallowed piece hpiece '+' hc] at hplus
      cases hplus
  rw [List.mem_append, not_or]
  constructor
  · apply hpieces
    intro piece hpiece c hc
    simp only [List.mem_cons, List.not_mem_nil, or_false] at hpiece
    rcases hpiece with rfl | rfl | rfl
    all_goals exact isAllowed_of_isDigit (Numeral.isDigit _ c hc)
  · rw [marked]
    split
    · simp
    · rw [List.mem_cons, not_or]
      refine ⟨by decide, hpieces _ fun piece hpiece => ?_⟩
      obtain ⟨identifier, _, rfl⟩ := List.mem_map.mp hpiece
      exact identifier.allowed

theorem isEmpty_intercalate (identifiers : List Identifier) :
    (['.'].intercalate (identifiers.map Identifier.chars)).isEmpty = identifiers.isEmpty := by
  cases identifiers with
  | nil => rfl
  | cons identifier rest =>
      have hhead := Version.head?_intercalate identifier.chars_ne_nil (rest.map Identifier.chars)
      rw [List.map_cons, List.isEmpty_cons, List.isEmpty_eq_false_iff]
      intro hnil
      rw [hnil, List.head?_nil] at hhead
      exact identifier.chars_ne_nil (List.head?_eq_none_iff.mp hhead.symm)

theorem key_text {v : SemVer} (h : v.Plain) :
    Version.key v.text = .ok ⟨v.core.map .number, v.pre.isEmpty, v.pre.map Identifier.part⟩ := by
  have hbuild := cutFirst_marked v.plus_notMem (v.build.map Label.chars)
  have hpre := cutFirst_marked v.dash_notMem_coreText (v.pre.map Identifier.chars)
  simp only [Version.key, text, String.toList_ofList, hbuild, hpre, parts_core h, parts_pre h, isEmpty_intercalate]
  rfl

-- The order of the keys.

theorem compare_number (m n : Nat) :
    ((Version.Part.number m).compare (.number n) = .lt ↔ m < n) ∧
      ((Version.Part.number m).compare (.number n) = .eq ↔ m = n) :=
  ⟨Nat.compare_eq_lt, Nat.compare_eq_eq⟩

theorem Identifier.compare_part_eq_lt_iff (a b : Identifier) : a.part.compare b.part = .lt ↔ a.Lower b := by
  cases a with
  | number m =>
      cases b with
      | number n =>
          refine (compare_number m.value n.value).1.trans ⟨.numbers, fun h => ?_⟩
          cases h
          assumption
      | word w => exact ⟨fun _ => .mixed m w, fun _ => rfl⟩
  | word v =>
      cases b with
      | number n => exact ⟨nofun, nofun⟩
      | word w =>
          have hchars : String.ofList v.chars < String.ofList w.chars ↔ v.chars < w.chars := by
            rw [String.lt_iff_toList_lt, String.toList_ofList, String.toList_ofList]
          refine (compare_lt_iff_lt.trans hchars).trans ⟨.words, fun h => ?_⟩
          cases h
          assumption

theorem Identifier.compare_part_eq_eq_iff (a b : Identifier) : a.part.compare b.part = .eq ↔ a = b := by
  cases a with
  | number m =>
      cases b with
      | number n =>
          refine (compare_number m.value n.value).2.trans ?_
          rw [Identifier.number.injEq]
          exact ⟨Numeral.value_injective, congrArg _⟩
      | word w => exact ⟨nofun, nofun⟩
  | word v =>
      cases b with
      | number n => exact ⟨nofun, nofun⟩
      | word w =>
          refine compare_eq_iff_eq.trans ?_
          rw [Identifier.word.injEq, String.ofList_inj]
          exact ⟨Word.chars_injective, congrArg _⟩

theorem Identifier.part_injective : Function.Injective Identifier.part := by
  intro a b h
  have hself := (a.compare_part_eq_eq_iff a).mpr rfl
  nth_rewrite 2 [h] at hself
  exact (a.compare_part_eq_eq_iff b).mp hself

-- Versions of the grammar are ordered by their keys as their precedence has it, and the keys are equal just where
-- nothing but the build differs.
theorem key_follows_precedence {v w : SemVer} (hv : v.Plain) (hw : w.Plain) :
    ∃ k l, Version.key v.text = .ok k ∧ Version.key w.text = .ok l ∧
      (k.compare l = .lt ↔ v.Precedes w) ∧ (k = l ↔ v.SamePrecedence w) := by
  obtain ⟨hcore, hcoreEq⟩ := Version.compareParts_map (fun m n => (compare_number m n).1)
    (fun m n => (compare_number m n).2) v.core w.core
  obtain ⟨hpre, _⟩ := Version.compareParts_map Identifier.compare_part_eq_lt_iff
    Identifier.compare_part_eq_eq_iff v.pre w.pre
  refine ⟨_, _, key_text hv, key_text hw, ?_, ?_⟩
  · rw [Version.Key.compare, Ordering.then_eq_lt, Ordering.then_eq_lt, hcore, hcoreEq, hpre, Precedes]
    -- That one of them is a release decides before the identifiers do.
    cases v.pre <;> cases w.pre <;> simp [Ord.compare]
  · have hnumbers : Function.Injective (Version.Part.number) := fun m n => Version.Part.number.inj
    rw [Version.Key.mk.injEq, SamePrecedence, hnumbers.list_map.eq_iff, Identifier.part_injective.list_map.eq_iff]
    constructor
    · rintro ⟨hsame, _, hidentifiers⟩
      exact ⟨hsame, hidentifiers⟩
    · rintro ⟨hsame, hidentifiers⟩
      exact ⟨hsame, congrArg _ hidentifiers, hidentifiers⟩

-- `1.9.0-rc-x.2+build-1.007` and `1.9.0-rc-x.10`.

def sampleNumeral (digits : List Char) (h : digits ≠ [] ∧ digits.all Char.isDigit = true ∧
    (digits.head? = some '0' → digits = ['0'])) : Numeral :=
  ⟨digits, h.1, List.all_eq_true.mp h.2.1, h.2.2⟩

def sampleLabel (chars : List Char) (h : chars ≠ [] ∧ chars.all isAllowed = true) : Label :=
  ⟨chars, h.1, List.all_eq_true.mp h.2⟩

def sampleWord (chars : List Char) (h : chars ≠ [] ∧ chars.all isAllowed = true ∧ chars.all (!·.isDigit) = true) :
    Word where
  chars := chars
  allowed := List.all_eq_true.mp h.2.1
  notNumber := by
    obtain ⟨c, hc⟩ := List.exists_mem_of_ne_nil chars h.1
    have hdigit := List.all_eq_true.mp h.2.2 c hc
    rw [Bool.not_eq_true'] at hdigit
    exact ⟨c, hc, hdigit⟩

def candidate (number : Numeral) (build : List Label) : SemVer where
  major := sampleNumeral ['1'] (by decide)
  minor := sampleNumeral ['9'] (by decide)
  patch := sampleNumeral ['0'] (by decide)
  pre := [.word (sampleWord "rc-x".toList (by decide)), .number number]
  build := build

def second : SemVer :=
  candidate (sampleNumeral ['2'] (by decide))
    [sampleLabel "build-1".toList (by decide), sampleLabel "007".toList (by decide)]

def tenth : SemVer :=
  candidate (sampleNumeral ['1', '0'] (by decide)) []

theorem plain_candidate {number : Numeral} (h : number.digits.length ≤ 4300) (build : List Label) :
    (candidate number build).Plain := by
  refine ⟨by simp [candidate, sampleNumeral], ?_, ?_⟩
  · intro n hn
    obtain rfl : n = number := by simpa [candidate] using hn
    exact h
  · intro w hw c hc
    obtain rfl : w = sampleWord "rc-x".toList (by decide) := by simpa [candidate] using hw
    have hall : "rc-x".toList.all (!·.isDigit) = true := by decide
    have hdigit := List.all_eq_true.mp hall c hc
    rwa [Bool.not_eq_true'] at hdigit

theorem key_follows_precedence_second :
    second.Plain ∧ tenth.Plain ∧ second.text = "1.9.0-rc-x.2+build-1.007" ∧ tenth.text = "1.9.0-rc-x.10" ∧
      ∃ k l, Version.key second.text = .ok k ∧ Version.key tenth.text = .ok l ∧ k.compare l = .lt ∧ k ≠ l := by
  have hsecond : second.Plain := plain_candidate (by decide) _
  have htenth : tenth.Plain := plain_candidate (by decide) _
  have hlower : second.Precedes tenth :=
    Or.inr ⟨rfl, List.cons_ne_nil _ _, Or.inr (.cons (.rel (.numbers (by decide))))⟩
  have hother : second.pre.map Identifier.chars ≠ tenth.pre.map Identifier.chars := by decide
  obtain ⟨k, l, hk, hl, hlt, heq⟩ := key_follows_precedence hsecond htenth
  refine ⟨hsecond, htenth, by decide, by decide, k, l, hk, hl, hlt.mpr hlower, fun h => hother ?_⟩
  rw [(heq.mp h).2]

end SemVer

end CrateDocs
