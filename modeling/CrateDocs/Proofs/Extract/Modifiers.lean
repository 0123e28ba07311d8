import CrateDocs.Proofs.Extract.Documented
import CrateDocs.Proofs.Result
import CrateDocs.Proofs.Text.Trim

namespace CrateDocs.Extract

open Result (First)
open Syntax (Tree)

-- What the modifiers of a function say, and which of them no record can hold.

-- The name in a string literal. A raw one loses its mark with the hashes around the rest, and then every one loses
-- the quotation marks around it.
def Spells (text name : String) : Prop :=
  ∃ bare, ((∃ rest, text.toList = 'r' :: rest ∧ Text.Framed (· == '#') rest bare) ∨
      text.toList.head? ≠ some 'r' ∧ bare = text.toList) ∧
    Text.Framed (· == '"') bare name.toList

def IsLiteral (t : Tree) : Prop :=
  t.kind = "string_literal" ∨ t.kind = "raw_string_literal"

-- The calling convention that an `extern` declares.
def Declares (m : Tree) (abi : Abi) : Prop :=
  (∀ t ∈ m.children, ¬IsLiteral t) ∧ abi = .c ∨
    ∃ literal, First IsLiteral m.children literal ∧ Spells literal.text (tag abi)

-- The fault of a word before `fn`: it is of no known kind, or an `extern` that names no calling convention.
inductive WordFault (m : Tree) : Fault → Prop
  | qualifier (h : m.kind ∉ ["unsafe", "const", "extern_modifier", "async", "default"]) :
    WordFault m (.unsupportedQualifier m.text m.span)
  | abi {literal : Tree} {name : String} (hkind : m.kind = "extern_modifier")
    (hliteral : First IsLiteral m.children literal) (hname : Spells literal.text name)
    (hnone : ∀ abi : Abi, tag abi ≠ name) : WordFault m (.unsupportedAbi name m.span)

def UnsupportedWord (m : Tree) : Prop :=
  ∃ fault, WordFault m fault

-- The code points of white space: the controls that separate text, the space, and the separators.
def whitePoints : List Nat :=
  [0x09, 0x0A, 0x0B, 0x0C, 0x0D, 0x1C, 0x1D, 0x1E, 0x1F, 0x20, 0x85, 0xA0, 0x1680, 0x2000, 0x2001, 0x2002, 0x2003, 0x2004,
    0x2005, 0x2006, 0x2007, 0x2008, 0x2009, 0x200A, 0x2028, 0x2029, 0x202F, 0x205F, 0x3000]

-- A text, and what is left of it without its white space.
inductive Unspaced : List Char → List Char → Prop
  | nil : Unspaced [] []
  | white {c : Char} {cs left : List Char} (hc : c.toNat ∈ whitePoints) (h : Unspaced cs left) :
    Unspaced (c :: cs) left
  | other {c : Char} {cs left : List Char} (hc : c.toNat ∉ whitePoints) (h : Unspaced cs left) :
    Unspaced (c :: cs) (c :: left)

-- A visibility that reads as a text, whatever white space is in it.
def ReadsAs (m : Tree) (text : String) : Prop :=
  Unspaced m.text.toList text.toList

def UnsupportedVisibility (m : Tree) : Prop :=
  ∃ text, ReadsAs m text ∧ text ∉ ["pub", "pub(crate)", "pub(self)", "pub(super)", "crate"] ∧
    ¬"pub(in".toList <+: text.toList

-- The visibility of a function is the first that is written.
def HasVisibility (t m : Tree) : Prop :=
  First (fun c => c.kind = "visibility_modifier") t.children m

-- A word before the `fn` of a function.
def HasWord (t m : Tree) : Prop :=
  ∃ holder ∈ t.children, holder.kind = "function_modifiers" ∧ m ∈ holder.children

-- The words that some children of a function hold, in the order that they are written in.
inductive Words : List Tree → List Tree → Prop
  | nil : Words [] []
  | holder {t : Tree} {ts words : List Tree} (ht : t.kind = "function_modifiers") (h : Words ts words) :
    Words (t :: ts) (t.children ++ words)
  | other {t : Tree} {ts words : List Tree} (ht : t.kind ≠ "function_modifiers") (h : Words ts words) :
    Words (t :: ts) words

-- Whether a function has a modifier that no record can hold.
def Flawed (t : Tree) : Prop :=
  (∃ m, HasWord t m ∧ UnsupportedWord m) ∨ ∃ m, HasVisibility t m ∧ UnsupportedVisibility m

-- The fault that is told of such a function: that of the first word, and only else that of the visibility.
inductive Flaw (t : Tree) : Fault → Prop
  | word {words : List Tree} {m : Tree} {fault : Fault} (hwords : Words t.children words)
    (hfirst : First UnsupportedWord words m) (hfault : WordFault m fault) : Flaw t fault
  | visibility {m : Tree} (hwords : ∀ m, HasWord t m → ¬UnsupportedWord m) (hfirst : HasVisibility t m)
    (hm : UnsupportedVisibility m) : Flaw t (.unsupportedVisibility m.text m.span)

-- The calling convention of a function: that of its last `extern`, or the language's own.
def LastAbi (t : Tree) (abi : Abi) : Prop :=
  (∀ m, HasWord t m → m.kind ≠ "extern_modifier") ∧ abi = .rust ∨
    ∃ before m after, Words t.children (before ++ m :: after) ∧ m.kind = "extern_modifier" ∧
      (∀ u ∈ after, u.kind ≠ "extern_modifier") ∧ Declares m abi

-- A record that tells what the modifiers of a function say.
structure Describes (t : Tree) (doc : FunctionDoc) : Prop where
  unsafety : doc.unsafety = .marked ↔ ∃ m, HasWord t m ∧ m.kind = "unsafe"
  constness : doc.constness = .marked ↔ ∃ m, HasWord t m ∧ m.kind = "const"
  abi : LastAbi t doc.abi
  visibility : doc.visibility = .exported ↔ ∃ m, HasVisibility t m ∧ ReadsAs m "pub"

-- The words, and the text of a visibility, as they are computed.

theorem isBlank_iff (c : Char) : Text.isBlank c = true ↔ c.toNat ∈ whitePoints := by
  simp only [Text.isBlank, whitePoints, Bool.or_eq_true, Bool.and_eq_true, decide_eq_true_eq, beq_iff_eq, List.mem_cons,
    List.not_mem_nil, or_false]
  omega

theorem unspaced_iff {cs left : List Char} : Unspaced cs left ↔ cs.filter (fun c => !Text.isBlank c) = left := by
  constructor
  · intro h
    induction h with
    | nil => rfl
    | white hc _ ih =>
        rw [List.filter_cons_of_neg (by simpa using (isBlank_iff _).mpr hc)]
        exact ih
    | other hc _ ih =>
        rw [← isBlank_iff] at hc
        rw [List.filter_cons_of_pos (by simpa using hc), ih]
  · rintro rfl
    induction cs with
    | nil => exact .nil
    | cons c cs ih =>
        by_cases hc : c.toNat ∈ whitePoints
        · rw [List.filter_cons_of_neg (by simpa using (isBlank_iff c).mpr hc)]
          exact .white hc ih
        · have hkept := hc
          rw [← isBlank_iff] at hkept
          rw [List.filter_cons_of_pos (by simpa using hkept)]
          exact .other hc ih

theorem readsAs_iff {m : Tree} {text : String} : ReadsAs m text ↔ Text.withoutBlanks m.text = text := by
  rw [ReadsAs, unspaced_iff, Text.withoutBlanks, ← String.toList_inj, String.toList_ofList]

theorem words_iff {t : Tree} {words : List Tree} : Words t.children words ↔ modifiersOf t = words := by
  rw [modifiersOf]
  generalize t.children = ts
  constructor
  · intro h
    induction h with
    | nil => rfl
    | holder ht _ ih => rw [List.filter_cons_of_pos (by simpa using ht), List.flatMap_cons, ih]
    | other ht _ ih => rw [List.filter_cons_of_neg (by simpa using ht), ih]
  · rintro rfl
    induction ts with
    | nil => exact .nil
    | cons t ts ih =>
        by_cases ht : t.kind = "function_modifiers"
        · rw [List.filter_cons_of_pos (by simpa using ht), List.flatMap_cons]
          exact .holder ht ih
        · rw [List.filter_cons_of_neg (by simpa using ht)]
          exact .other ht ih

theorem hasWord_iff {t m : Tree} : HasWord t m ↔ m ∈ modifiersOf t := by
  simp only [HasWord, modifiersOf, List.mem_flatMap, List.mem_filter, beq_iff_eq, and_assoc]

-- The name in a literal, and the calling convention it stands for.

theorem spells_iff {text name : String} : Spells text name ↔ literalName text = name := by
  have hofList : ∀ cs : List Char, String.ofList cs = name ↔ cs = name.toList := by
    intro cs
    rw [← String.toList_inj, String.toList_ofList]
  cases hcs : text.toList with
  | nil => simp [Spells, literalName, hcs, hofList, Text.trimWhile_eq_iff]
  | cons c rest =>
      by_cases hc : c = 'r'
      · subst hc
        simp [Spells, literalName, hcs, hofList, ← Text.trimWhile_eq_iff]
      · have hmatch : literalName text = String.ofList (Text.trimWhile (· == '"') (c :: rest)) := by
          simp only [literalName, hcs]
          split
          · rename_i heq
            exact absurd (List.cons.inj heq).1 hc
          · rfl
        simp [Spells, hcs, hc, hmatch, hofList, Text.trimWhile_eq_iff]

theorem ofTag?_eq_some_iff {name : String} {abi : Abi} : ofTag? name = some abi ↔ tag abi = name := by
  constructor
  · intro h
    have htag := List.find?_some h
    simpa using htag
  · rintro rfl
    cases abi <;> rfl

theorem ofTag?_eq_none_iff {name : String} : (ofTag? name : Option Abi) = none ↔ ∀ abi : Abi, tag abi ≠ name := by
  simp only [Option.eq_none_iff_forall_ne_some, Ne, ofTag?_eq_some_iff]

-- The literal that an `extern` is looked at for.
def literal? (m : Tree) : Option Tree :=
  m.children.find? fun c => c.kind == "string_literal" || c.kind == "raw_string_literal"

theorem literal?_eq_some_iff {m literal : Tree} : literal? m = some literal ↔ First IsLiteral m.children literal := by
  have htest : (fun c : Tree => (c.kind == "string_literal" || c.kind == "raw_string_literal") = true) = IsLiteral := by
    funext c
    simp [IsLiteral]
  rw [literal?, Result.find?_eq_some_iff_first, htest]

theorem literal?_eq_none_iff {m : Tree} : literal? m = none ↔ ∀ t ∈ m.children, ¬IsLiteral t := by
  simp [literal?, IsLiteral]

theorem abiOf_eq (m : Tree) :
    abiOf m = match literal? m with
      | none => .ok .c
      | some literal =>
        match ofTag? (literalName literal.text) with
        | some abi => .ok abi
        | none => .error (.unsupportedAbi (literalName literal.text) m.span) := by
  rfl

theorem abiOf_eq_ok_iff {m : Tree} {abi : Abi} : abiOf m = .ok abi ↔ Declares m abi := by
  rw [abiOf_eq, Declares, ← literal?_eq_none_iff]
  simp only [← literal?_eq_some_iff, spells_iff]
  cases hliteral : literal? m with
  | none => simp [eq_comm]
  | some literal =>
      cases habi : (ofTag? (literalName literal.text) : Option Abi) with
      | none =>
          have hnone := ofTag?_eq_none_iff.mp habi abi
          simp [habi, Ne.symm hnone]
      | some found =>
          have hfound : ofTag? (literalName literal.text) = some abi ↔ tag abi = literalName literal.text :=
            ofTag?_eq_some_iff
          rw [habi, eq_comm (a := tag abi)] at hfound
          simpa [habi] using hfound

theorem abiOf_eq_error_iff {m : Tree} {fault : Fault} :
    abiOf m = .error fault ↔ ∃ literal name, First IsLiteral m.children literal ∧ Spells literal.text name ∧
      (∀ abi : Abi, tag abi ≠ name) ∧ fault = .unsupportedAbi name m.span := by
  rw [abiOf_eq]
  simp only [← literal?_eq_some_iff, spells_iff, ← ofTag?_eq_none_iff]
  cases hliteral : literal? m with
  | none => simp
  | some literal =>
      cases habi : (ofTag? (literalName literal.text) : Option Abi) with
      | none => simp [habi, eq_comm]
      | some found => simp [habi]

-- One word before `fn`.

theorem qualify_eq_error_iff (q : Qualifiers) (m : Tree) (fault : Fault) :
    qualify q m = .error fault ↔ WordFault m fault := by
  constructor
  · intro h
    unfold qualify at h
    split at h
    · cases h
    split at h
    · cases h
    split at h
    · rename_i hkind
      cases habi : abiOf m with
      | ok abi =>
          rw [habi] at h
          cases h
      | error fault' =>
          rw [habi] at h
          obtain rfl : fault' = fault := Except.error.inj h
          obtain ⟨literal, name, hliteral, hname, hnone, rfl⟩ := abiOf_eq_error_iff.mp habi
          exact .abi (by simpa using hkind) hliteral hname hnone
    split at h
    · cases h
    · obtain rfl := Except.error.inj h
      apply WordFault.qualifier
      simp_all
  · intro h
    cases h with
    | qualifier h =>
        simp only [List.mem_cons, List.not_mem_nil, or_false, not_or] at h
        simp [qualify, h]
    | abi hkind hliteral hname hnone =>
        have habi := abiOf_eq_error_iff.mpr ⟨_, _, hliteral, hname, hnone, rfl⟩
        simp [qualify, hkind, habi, Except.map]

-- What a word that is supported changes.
structure Takes (q : Qualifiers) (m : Tree) (next : Qualifiers) : Prop where
  unsafety : next.unsafety = .marked ↔ q.unsafety = .marked ∨ m.kind = "unsafe"
  constness : next.constness = .marked ↔ q.constness = .marked ∨ m.kind = "const"
  abi : if m.kind = "extern_modifier" then Declares m next.abi else next.abi = q.abi

theorem takes_qualify {q next : Qualifiers} {m : Tree} (h : qualify q m = .ok next) : Takes q m next := by
  unfold qualify at h
  split at h
  · rename_i hkind
    obtain rfl := Except.ok.inj h
    rw [beq_iff_eq] at hkind
    constructor <;> simp [hkind]
  split at h
  · rename_i hkind
    obtain rfl := Except.ok.inj h
    rw [beq_iff_eq] at hkind
    constructor <;> simp [hkind]
  split at h
  · rename_i hkind
    rw [beq_iff_eq] at hkind
    cases habi : abiOf m with
    | error fault =>
        rw [habi] at h
        cases h
    | ok abi =>
        rw [habi] at h
        obtain rfl := Except.ok.inj h
        constructor
        · simp [hkind]
        · simp [hkind]
        · rw [if_pos hkind]
          exact abiOf_eq_ok_iff.mp habi
  split at h
  · rename_i hguard hconst hlinked _
    obtain rfl := Except.ok.inj h
    rw [beq_iff_eq] at hguard hconst hlinked
    constructor <;> simp [hguard, hconst, hlinked]
  · cases h

-- All words before `fn`, one after the other.

theorem qualifiersOf_eq_error_iff {t : Tree} {fault : Fault} :
    qualifiersOf t = .error fault ↔ ∃ m, First UnsupportedWord (modifiersOf t) m ∧ WordFault m fault :=
  Result.foldlM_eq_error_iff qualify_eq_error_iff _

theorem foldlM_qualify {words : List Tree} {q last : Qualifiers} (h : words.foldlM qualify q = .ok last) :
    (last.unsafety = .marked ↔ q.unsafety = .marked ∨ ∃ m ∈ words, m.kind = "unsafe") ∧
      (last.constness = .marked ↔ q.constness = .marked ∨ ∃ m ∈ words, m.kind = "const") ∧
      ((∀ m ∈ words, m.kind ≠ "extern_modifier") ∧ last.abi = q.abi ∨
        ∃ before m after, words = before ++ m :: after ∧ m.kind = "extern_modifier" ∧
          (∀ u ∈ after, u.kind ≠ "extern_modifier") ∧ Declares m last.abi) := by
  induction words generalizing q with
  | nil =>
      obtain rfl := Except.ok.inj h
      simp
  | cons m words ih =>
      rw [List.foldlM_cons] at h
      cases hnext : qualify q m with
      | error fault =>
          rw [hnext] at h
          cases h
      | ok next =>
          rw [hnext] at h
          obtain ⟨hguard, hconst, habi⟩ := takes_qualify hnext
          obtain ⟨hguard', hconst', habi'⟩ := ih h
          refine ⟨?_, ?_, ?_⟩
          · rw [hguard', hguard, List.exists_mem_cons_iff, or_assoc]
          · rw [hconst', hconst, List.exists_mem_cons_iff, or_assoc]
          · rcases habi' with ⟨hnone, hsame⟩ | ⟨before, u, after, rfl, hu, hafter, hdeclares⟩
            · by_cases hkind : m.kind = "extern_modifier"
              · -- No later word is an `extern`, so this one decides.
                rw [if_pos hkind] at habi
                rw [← hsame] at habi
                exact Or.inr ⟨[], m, words, rfl, hkind, hnone, habi⟩
              · rw [if_neg hkind] at habi
                exact Or.inl ⟨List.forall_mem_cons.mpr ⟨hkind, hnone⟩, hsame.trans habi⟩
            · exact Or.inr ⟨m :: before, u, after, rfl, hu, hafter, hdeclares⟩

-- The visibility.

theorem lookup_visibilities (text : String) :
    visibilities.lookup text =
      if text = "pub" then some .exported
      else if text ∈ ["pub(crate)", "pub(self)", "pub(super)", "crate"] then some .internal else none := by
  simp only [visibilities, List.lookup_cons]
  grind

theorem hasVisibility_iff {t m : Tree} :
    HasVisibility t m ↔ (t.children.find? fun c => c.kind == "visibility_modifier") = some m := by
  rw [Result.find?_eq_some_iff_first, HasVisibility]
  simp

theorem HasVisibility.iff_eq {t m : Tree} (h : HasVisibility t m) (u : Tree) : HasVisibility t u ↔ u = m := by
  rw [hasVisibility_iff, hasVisibility_iff.mp h, Option.some_inj, eq_comm]

theorem visibilityOf_of_none {t : Tree} (h : ∀ m, ¬HasVisibility t m) : visibilityOf t = .ok .internal := by
  simp only [hasVisibility_iff, ← Option.eq_none_iff_forall_ne_some] at h
  rw [visibilityOf, h]

theorem visibilityOf_of_some {t m : Tree} (h : HasVisibility t m) :
    visibilityOf t =
      if Text.withoutBlanks m.text = "pub" then .ok .exported
      else if Text.withoutBlanks m.text ∈ ["pub(crate)", "pub(self)", "pub(super)", "crate"] ∨
          "pub(in".toList <+: (Text.withoutBlanks m.text).toList then .ok .internal
      else .error (.unsupportedVisibility m.text m.span) := by
  simp only [visibilityOf, hasVisibility_iff.mp h, lookup_visibilities, Text.startsWith, List.isPrefixOf_iff_prefix]
  by_cases hpub : Text.withoutBlanks m.text = "pub"
  · simp only [hpub, if_true]
  · by_cases hclosed : Text.withoutBlanks m.text ∈ ["pub(crate)", "pub(self)", "pub(super)", "crate"]
    · simp only [hpub, hclosed, if_true, if_false, true_or]
    · simp only [hpub, hclosed, if_false, false_or]

theorem unsupportedVisibility_iff {m : Tree} :
    UnsupportedVisibility m ↔ Text.withoutBlanks m.text ≠ "pub" ∧
      ¬(Text.withoutBlanks m.text ∈ ["pub(crate)", "pub(self)", "pub(super)", "crate"] ∨
        "pub(in".toList <+: (Text.withoutBlanks m.text).toList) := by
  simp only [UnsupportedVisibility, readsAs_iff, exists_eq_left', List.mem_cons (b := "pub"), not_or, and_assoc]

theorem visibilityOf_eq_error_iff {t : Tree} {fault : Fault} :
    visibilityOf t = .error fault ↔
      ∃ m, HasVisibility t m ∧ UnsupportedVisibility m ∧ fault = .unsupportedVisibility m.text m.span := by
  by_cases hsome : ∃ m, HasVisibility t m
  · obtain ⟨m, hm⟩ := hsome
    simp only [hm.iff_eq, exists_eq_left, visibilityOf_of_some hm, unsupportedVisibility_iff]
    split
    · simp_all
    split
    · simp_all
    · simp_all [eq_comm]
  · simp only [not_exists] at hsome
    simp [visibilityOf_of_none hsome, hsome]

theorem exported_iff {t : Tree} {visibility : Visibility} (h : visibilityOf t = .ok visibility) :
    visibility = .exported ↔ ∃ m, HasVisibility t m ∧ ReadsAs m "pub" := by
  simp only [readsAs_iff]
  by_cases hsome : ∃ m, HasVisibility t m
  · obtain ⟨m, hm⟩ := hsome
    simp only [hm.iff_eq, exists_eq_left]
    rw [visibilityOf_of_some hm] at h
    split at h
    · obtain rfl := Except.ok.inj h
      simp_all
    split at h
    · obtain rfl := Except.ok.inj h
      simp_all
    · cases h
  · simp only [not_exists] at hsome
    rw [visibilityOf_of_none hsome] at h
    obtain rfl := Except.ok.inj h
    simp [hsome]

-- The record of one function.

theorem exists_qualifiersOf_iff {t : Tree} :
    (∃ qualifiers, qualifiersOf t = .ok qualifiers) ↔ ∀ m ∈ modifiersOf t, ¬UnsupportedWord m := by
  constructor
  · rintro ⟨qualifiers, hok⟩ m hm hunsupported
    obtain ⟨first, hfirst⟩ := Result.exists_first_iff.mpr ⟨m, hm, hunsupported⟩
    obtain ⟨fault, hfault⟩ := hfirst.holds
    rw [qualifiersOf_eq_error_iff.mpr ⟨first, hfirst, hfault⟩] at hok
    cases hok
  · intro hwords
    cases hqualifiers : qualifiersOf t with
    | error fault =>
        obtain ⟨m, hfirst, _⟩ := qualifiersOf_eq_error_iff.mp hqualifiers
        exact absurd hfirst.holds (hwords m hfirst.mem)
    | ok qualifiers => exact ⟨qualifiers, rfl⟩

theorem document_eq_error_iff {t : Tree} {path : List String} {fault : Fault} :
    document t path = .error fault ↔ Flaw t fault := by
  have hcases : document t path = .error fault ↔
      qualifiersOf t = .error fault ∨ (∃ qualifiers, qualifiersOf t = .ok qualifiers) ∧ visibilityOf t = .error fault := by
    simp only [document]
    cases qualifiersOf t <;> cases visibilityOf t <;> simp [bind, Except.bind, pure, Except.pure]
  rw [hcases, qualifiersOf_eq_error_iff, exists_qualifiersOf_iff, visibilityOf_eq_error_iff]
  constructor
  · rintro (⟨m, hfirst, hfault⟩ | ⟨hwords, m, hfirst, hm, rfl⟩)
    · exact .word (words_iff.mpr rfl) hfirst hfault
    · exact .visibility (fun u hu => hwords u (hasWord_iff.mp hu)) hfirst hm
  · intro h
    cases h with
    | word hwords hfirst hfault =>
        rw [← words_iff.mp hwords] at hfirst
        exact Or.inl ⟨_, hfirst, hfault⟩
    | visibility hwords hfirst hm =>
        exact Or.inr ⟨fun u hu => hwords u (hasWord_iff.mpr hu), _, hfirst, hm, rfl⟩

theorem exists_flaw_iff {t : Tree} : (∃ fault, Flaw t fault) ↔ Flawed t := by
  constructor
  · rintro ⟨fault, hflaw⟩
    cases hflaw with
    | word hwords hfirst _ =>
        have hmem := hfirst.mem
        rw [← words_iff.mp hwords, ← hasWord_iff] at hmem
        exact Or.inl ⟨_, hmem, hfirst.holds⟩
    | visibility _ hfirst hm => exact Or.inr ⟨_, hfirst, hm⟩
  · intro hflawed
    by_cases hwords : ∃ m, HasWord t m ∧ UnsupportedWord m
    · simp only [hasWord_iff] at hwords
      obtain ⟨m, hfirst⟩ := Result.exists_first_iff.mpr hwords
      obtain ⟨fault, hfault⟩ := hfirst.holds
      exact ⟨fault, .word (words_iff.mpr rfl) hfirst hfault⟩
    · obtain ⟨m, hfirst, hm⟩ := hflawed.resolve_left hwords
      refine ⟨_, .visibility ?_ hfirst hm⟩
      exact fun u hu hunsupported => hwords ⟨u, hu, hunsupported⟩

theorem describes_document {t : Tree} {path : List String} {doc : FunctionDoc} (h : document t path = .ok doc) :
    doc.path = path ∧ Describes t doc := by
  cases hqualifiers : qualifiersOf t with
  | error fault =>
      rw [document, hqualifiers] at h
      cases h
  | ok qualifiers =>
      cases hvisibility : visibilityOf t with
      | error fault =>
          rw [document, hqualifiers, hvisibility] at h
          cases h
      | ok visibility =>
          rw [document, hqualifiers, hvisibility] at h
          obtain rfl := Except.ok.inj h
          obtain ⟨hguard, hconst, habi⟩ := foldlM_qualify hqualifiers
          refine ⟨rfl, ?_, ?_, ?_, exported_iff hvisibility⟩
          · simpa [Qualifiers.initial, hasWord_iff] using hguard
          · simpa [Qualifiers.initial, hasWord_iff] using hconst
          · simpa [LastAbi, Qualifiers.initial, hasWord_iff, words_iff] using habi

-- The walk fails exactly if some function that it documents has a modifier that no record can hold, with the fault
-- of the first such function. What it does not document cannot make it fail. Otherwise each record tells what the
-- modifiers of its function say.
theorem functions_map_modifiers (root : Tree) (crate : Option String) :
    ((∃ fault, functions root crate = .error fault) ↔ ∃ o ∈ documented root, Flawed o.node) ∧
      match functions root crate with
      | .error fault => ∃ o, First (fun o => Flawed o.node) (documented root) o ∧ Flaw o.node fault
      | .ok found =>
        List.Forall₂ (fun o doc => doc.path = o.symbolPath crate ∧ Describes o.node doc) (documented root) found.docs := by
  have hfunctions : (functions root crate).map (·.docs) =
      (documented root).mapM fun o => document o.node (o.symbolPath crate) := functions_docs root crate
  have hflawed : ∀ o : Occurrence, (∃ fault, document o.node (o.symbolPath crate) = .error fault) ↔ Flawed o.node := by
    intro o
    simp only [document_eq_error_iff, exists_flaw_iff]
  cases hresult : functions root crate with
  | error fault =>
      rw [hresult] at hfunctions
      obtain ⟨o, hfirst, hfault⟩ := Result.mapM_eq_error_iff.mp hfunctions.symm
      simp only [hflawed] at hfirst
      refine ⟨⟨fun _ => ⟨o, hfirst.mem, hfirst.holds⟩, fun _ => ⟨fault, rfl⟩⟩, o, hfirst, ?_⟩
      exact document_eq_error_iff.mp hfault
  | ok found =>
      rw [hresult] at hfunctions
      have hrecords := Result.mapM_eq_ok_iff.mp hfunctions.symm
      refine ⟨⟨nofun, ?_⟩, hrecords.imp fun o doc => describes_document⟩
      rintro ⟨o, ho, hnode⟩
      obtain ⟨fault, hfault⟩ := (hflawed o).mpr hnode
      obtain ⟨doc, hdoc⟩ := (Result.mapM_isOk_iff _ _).mp ⟨found.docs, hfunctions.symm⟩ o ho
      rw [hfault] at hdoc
      cases hdoc

end CrateDocs.Extract
