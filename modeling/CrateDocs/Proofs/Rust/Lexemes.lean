import CrateDocs.Proofs.Syntax.Reading
import CrateDocs.Rust.Lexeme

namespace CrateDocs.Rust

open Utf8 (Glyph)
open Syntax (letters)
open Syntax.Signature (IsToken)
open Text (isBlank)

-- The characters that no token starts or ends with, unless it is that character, and those that it can.

def softRanges : List (Nat × Nat) :=
  [(0x09, 0x0D), (0x1C, 0x20), (0x2C, 0x2C), (0x3B, 0x3B), (0x85, 0x85), (0xA0, 0xA0), (0x1680, 0x1680),
    (0x2000, 0x200A), (0x2028, 0x2029), (0x202F, 0x202F), (0x205F, 0x205F), (0x3000, 0x3000)]

def isFirm (c : Char) : Bool := !isBlank c && c != ',' && c != ';'

-- Whether a range has no soft character.
def clear (range : Nat × Nat) : Bool :=
  softRanges.all fun soft => Nat.blt range.2 soft.1 || Nat.blt soft.2 range.1

theorem isFirm_of_clear {range : Nat × Nat} {c : Char} (h : clear range = true) (hlow : range.1 ≤ c.toNat)
    (hhigh : c.toNat ≤ range.2) : isFirm c = true := by
  simp only [clear, softRanges, List.all_cons, List.all_nil, Bool.and_true, Bool.and_eq_true, Bool.or_eq_true,
    Nat.blt_eq] at h
  have hcomma : c ≠ ',' := by
    rintro rfl
    have hcode : ','.toNat = 0x2C := rfl
    omega
  have hsemicolon : c ≠ ';' := by
    rintro rfl
    have hcode : ';'.toNat = 0x3B := rfl
    omega
  have hblank : isBlank c = false := by
    rw [← Bool.not_eq_true]
    simp only [isBlank, Bool.or_eq_true, Bool.and_eq_true, decide_eq_true_eq, beq_iff_eq]
    omega
  simp [isFirm, hcomma, hsemicolon, hblank]

theorem isFirm_of_covers (table : Text.Ranges) (h : table.all clear = true) {c : Char}
    (hc : table.covers c = true) : isFirm c = true := by
  rw [Text.Ranges.covers] at hc
  induction table with
  | nil => cases hc
  | cons range rest ih =>
      rw [List.all_cons, Bool.and_eq_true] at h
      simp only [Text.Ranges.holds, Bool.and_eq_true, Bool.or_eq_true, decide_eq_true_eq] at hc
      rcases hc.2 with hhigh | hrest
      · exact isFirm_of_clear h.1 hc.1 hhigh
      · exact ih h.2 hrest

theorem isFirm_of_isIdentifierPart {c : Char} (h : Text.isIdentifierPart c = true) : isFirm c = true :=
  isFirm_of_covers Text.identifierParts (by decide +kernel) h

theorem isFirm_of_isIdentifierStart {c : Char} (h : Text.isIdentifierStart c = true) : isFirm c = true := by
  rw [Text.isIdentifierStart, Bool.or_eq_true, beq_iff_eq] at h
  rcases h with rfl | h
  · rfl
  · exact isFirm_of_covers Text.identifierStarts (by decide +kernel) h

-- The glyphs of a lexeme by their places.

-- A firm glyph at a place.
def FirmAt (gs : List Glyph) (i : Nat) : Prop :=
  ∃ g, gs[i]? = some g ∧ glyphIs isFirm g = true

-- So many firm glyphs at the start.
def Firm (gs : List Glyph) (count : Nat) : Prop := ∀ i < count, FirmAt gs i

-- So many glyphs of which the last is firm.
def EndsFirm (gs : List Glyph) (count : Nat) : Prop := ∃ k, count = k + 1 ∧ FirmAt gs k

variable {gs rest : List Glyph} {g : Glyph} {p : Char → Bool} {count more : Nat}

theorem firmAt_drop {i : Nat} : FirmAt (gs.drop count) i ↔ FirmAt gs (count + i) := by
  rw [FirmAt, FirmAt, List.getElem?_drop]

theorem firmAt_zero (h : glyphIs isFirm g = true) : FirmAt (g :: rest) 0 := ⟨g, rfl, h⟩

theorem firm_zero (gs : List Glyph) : Firm gs 0 := fun i hi => absurd hi (Nat.not_lt_zero i)

theorem Firm.add (h : Firm gs count) (hmore : Firm (gs.drop count) more) : Firm gs (count + more) := by
  intro i hi
  by_cases hlt : i < count
  · exact h i hlt
  · have hplace := firmAt_drop.mp (hmore (i - count) (by omega))
    rwa [Nat.add_sub_cancel' (by omega)] at hplace

theorem Firm.cons (hg : glyphIs isFirm g = true) (h : Firm rest count) : Firm (g :: rest) (count + 1) := by
  intro i hi
  cases i with
  | zero => exact firmAt_zero hg
  | succ i => exact h i (by omega)

theorem Firm.endsFirm (h : Firm gs count) (hpos : 0 < count) : EndsFirm gs count :=
  ⟨count - 1, by omega, h _ (by omega)⟩

theorem EndsFirm.drop (h : EndsFirm (gs.drop count) more) : EndsFirm gs (count + more) := by
  obtain ⟨k, rfl, hk⟩ := h
  exact ⟨count + k, by omega, firmAt_drop.mp hk⟩

theorem EndsFirm.cons (h : EndsFirm rest count) : EndsFirm (g :: rest) (count + 1) := by
  obtain ⟨k, rfl, hk⟩ := h
  exact ⟨k + 1, rfl, hk⟩

theorem glyphIs_mono {q : Char → Bool} (hpq : ∀ c, p c = true → q c = true) (h : glyphIs p g = true) :
    glyphIs q g = true := by
  obtain ⟨c, hc, hp⟩ := (Option.any_eq_true ..).mp h
  rw [glyphIs, hc]
  exact hpq c hp

theorem glyphIs_of_eq {c : Char} (hc : isFirm c = true) (h : (g.char? == some c) = true) : glyphIs isFirm g = true := by
  rw [glyphIs, beq_iff_eq.mp h]
  exact hc

theorem firm_runLength (hp : ∀ c, p c = true → isFirm c = true) (gs : List Glyph) : Firm gs (runLength p gs) := by
  induction gs with
  | nil => exact firm_zero _
  | cons g gs ih =>
      rw [runLength, List.takeWhile_cons]
      split
      · rename_i hg
        exact Firm.cons (glyphIs_mono hp hg) ih
      · exact firm_zero _

theorem firm_of_nextIs (hp : ∀ c, p c = true → isFirm c = true) (h : nextIs p gs = true) : Firm gs 1 := by
  cases gs with
  | nil => cases h
  | cons g gs => exact Firm.cons (glyphIs_mono hp h) (firm_zero gs)

theorem firm_startsWithChars (cs : List Char) (hcs : cs.all isFirm = true) (h : startsWithChars cs gs = true) :
    Firm gs cs.length := by
  induction cs generalizing gs with
  | nil => exact firm_zero _
  | cons c cs ih =>
      cases gs with
      | nil => cases h
      | cons g gs =>
          rw [List.all_cons, Bool.and_eq_true] at hcs
          rw [startsWithChars, Bool.and_eq_true] at h
          exact Firm.cons (glyphIs_of_eq hcs.1 h.1) (ih hcs.2 h.2)

theorem letters_startsWithChars {cs : List Char} (h : startsWithChars cs gs = true) :
    letters (gs.take cs.length) = cs := by
  induction cs generalizing gs with
  | nil => rfl
  | cons c cs ih =>
      cases gs with
      | nil => cases h
      | cons g gs =>
          rw [startsWithChars, Bool.and_eq_true] at h
          rw [List.length_cons, List.take_succ_cons, letters, List.map_cons, ← letters, ih h.2, beq_iff_eq.mp h.1]
          rfl

-- What starts and ends firmly is a token.
theorem isToken_of_firm (hfirst : FirmAt gs 0) (hlast : EndsFirm gs count) :
    IsToken (String.ofList (letters (gs.take count))) := by
  obtain ⟨k, rfl, last, hlast, hfirm⟩ := hlast
  obtain ⟨first, hfirst, hstart⟩ := hfirst
  have hletter : ∀ g : Glyph, glyphIs isFirm g = true → isFirm (g.char?.getD '\uFFFD') = true := by
    intro g hg
    obtain ⟨c, hc, hcfirm⟩ := (Option.any_eq_true ..).mp hg
    rwa [hc]
  have hhead : (letters (gs.take (k + 1))).head? = some (first.char?.getD '\uFFFD') := by
    rw [letters, List.head?_map, List.head?_eq_getElem?, List.getElem?_take_of_lt (Nat.succ_pos k), hfirst]
    rfl
  have hend : (letters (gs.take (k + 1))).getLast? = some (last.char?.getD '\uFFFD') := by
    have hlength : k < gs.length := (List.getElem?_eq_some_iff.mp hlast).1
    rw [letters, List.getLast?_map, List.getLast?_eq_getElem?, List.length_take, Nat.min_eq_left (by omega),
      Nat.add_sub_cancel, List.getElem?_take_of_lt (Nat.lt_succ_self k), hlast]
    rfl
  have hfirstChar := hletter first hstart
  have hlastChar := hletter last hfirm
  simp only [isFirm, Bool.and_eq_true, Bool.not_eq_true', bne_iff_ne, ne_eq] at hfirstChar hlastChar
  constructor
  · rw [String.toList_ofList, hhead, Option.any_some, hfirstChar.1.1, Bool.not_false]
  · rw [String.toList_ofList, hend, Option.any_some, hlastChar.1.1, Bool.not_false]
  · rw [String.toList_ofList, hhead, hend]
    rintro (h | h)
    · exact absurd (Option.some.inj h) hfirstChar.1.2
    · exact absurd (Option.some.inj h) hlastChar.1.2
  · rw [String.toList_ofList, hend]
    exact fun h => absurd (Option.some.inj h) hlastChar.2

namespace Lexeme

-- A recogniser of what starts and ends firmly.
def Fenced (lexeme : Syntax.Lexeme) : Prop :=
  ∀ gs count, lexeme gs = some count → FirmAt gs 0 ∧ EndsFirm gs count

theorem fenced_of_firm {lexeme : Syntax.Lexeme} (h : ∀ gs count, lexeme gs = some count → Firm gs count ∧ 0 < count) :
    Fenced lexeme := by
  intro gs count hread
  obtain ⟨hfirm, hpos⟩ := h gs count hread
  exact ⟨hfirm 0 hpos, hfirm.endsFirm hpos⟩

theorem exactly_eq_some_iff {text : String} :
    exactly text gs = some count ↔ startsWithChars text.toList gs = true ∧ count = text.length := by
  rw [exactly]
  split
  · rename_i hstarts
    simp [hstarts, eq_comm]
  · rename_i hstarts
    simp [hstarts]

theorem firm_exactly {text : String} (htext : text.toList.all isFirm = true) (h : exactly text gs = some count) :
    Firm gs count := by
  obtain ⟨hstarts, rfl⟩ := exactly_eq_some_iff.mp h
  exact firm_startsWithChars _ htext hstarts

theorem exactly_of_exactlyNotBefore {text : String} {following : List Char}
    (h : exactlyNotBefore text following gs = some count) : exactly text gs = some count := by
  rw [exactlyNotBefore] at h
  split at h
  · rename_i hread
    split at h
    · cases h
    · rw [hread, Option.some.inj h]
  · cases h

theorem exactly_of_keyword {text : String} (h : keyword text gs = some count) : exactly text gs = some count := by
  rw [keyword] at h
  split at h
  · rename_i hread
    split at h
    · cases h
    · rw [hread, Option.some.inj h]
  · cases h

-- Words.

theorem plainIdentifier_firm (h : plainIdentifier gs = some count) : Firm gs count ∧ 0 < count := by
  cases gs with
  | nil => cases h
  | cons g rest =>
      rw [plainIdentifier] at h
      split at h
      · rename_i hg
        obtain rfl := Option.some.inj h
        refine ⟨Firm.cons ?_ (firm_runLength (fun _ => isFirm_of_isIdentifierPart) rest), Nat.succ_pos _⟩
        exact glyphIs_mono (fun _ => isFirm_of_isIdentifierStart) hg
      · cases h

theorem identifier_firm (h : identifier gs = some count) : Firm gs count ∧ 0 < count := by
  rw [identifier] at h
  split at h
  · rename_i hraw
    split at h
    · rename_i inner hinner
      obtain rfl := Option.some.inj h
      obtain ⟨hfirm, hpos⟩ := plainIdentifier_firm hinner
      rw [Nat.add_comm]
      exact ⟨(firm_startsWithChars ['r', '#'] rfl hraw).add hfirm, by omega⟩
    · exact plainIdentifier_firm h
  · exact plainIdentifier_firm h

theorem identifier_of_identifierBut {words : List String} (h : identifierBut words gs = some count) :
    identifier gs = some count := by
  rw [identifierBut] at h
  split at h
  · rename_i inner hinner
    split at h
    · cases h
    · rw [hinner, Option.some.inj h]
  · cases h

theorem identifier_of_identifierIn {words : List String} (h : identifierIn words gs = some count) :
    identifier gs = some count := by
  rw [identifierIn] at h
  split at h
  · rename_i inner hinner
    split at h
    · rw [hinner, Option.some.inj h]
    · cases h
  · cases h

theorem metavariable_firm (h : metavariable gs = some count) : Firm gs count ∧ 0 < count := by
  cases gs with
  | nil => cases h
  | cons g rest =>
      rw [metavariable] at h
      split at h
      · rename_i hg
        obtain ⟨inner, hinner, rfl⟩ := Option.map_eq_some_iff.mp h
        exact ⟨Firm.cons (glyphIs_of_eq rfl hg) (plainIdentifier_firm hinner).1, Nat.succ_pos _⟩
      · cases h

-- Numbers.

theorem isFirm_of_between (low high : Char) {c : Char} (h : clear (low.toNat, high.toNat) = true)
    (hc : (low ≤ c && c ≤ high) = true) : isFirm c = true := by
  simp only [Bool.and_eq_true, decide_eq_true_eq] at hc
  exact isFirm_of_clear h hc.1 hc.2

theorem isFirm_of_isDecimal {c : Char} (h : isDecimal c = true) : isFirm c = true :=
  isFirm_of_between '0' '9' rfl h

theorem isFirm_of_digit {isDigit : Char → Bool} (hdigit : ∀ c, isDigit c = true → isFirm c = true) (c : Char)
    (h : (isDigit c || c == '_') = true) : isFirm c = true := by
  rcases Bool.or_eq_true _ _ ▸ h with h | h
  · exact hdigit c h
  · rw [beq_iff_eq.mp h]
    rfl

theorem isFirm_of_isHexadecimal {c : Char} (h : isHexadecimal c = true) : isFirm c = true := by
  rw [isHexadecimal, Bool.or_eq_true, Bool.or_eq_true] at h
  rcases h with (h | h) | h
  · exact isFirm_of_isDecimal h
  · exact isFirm_of_between 'a' 'f' rfl h
  · exact isFirm_of_between 'A' 'F' rfl h

theorem basedDigits_firm {mark : List Char} {isDigit : Char → Bool} (hmark : mark.all isFirm = true)
    (hdigit : ∀ c, isDigit c = true → isFirm c = true) (h : basedDigits mark isDigit gs = some count) :
    Firm gs count ∧ 0 < count := by
  rw [basedDigits] at h
  split at h
  · rename_i hstarts
    dsimp only at h
    split at h
    · cases h
    · rename_i hcount
      obtain rfl := Option.some.inj h
      rw [beq_iff_eq] at hcount
      refine ⟨(firm_startsWithChars _ hmark hstarts).add ?_, by omega⟩
      exact firm_runLength (isFirm_of_digit hdigit) _
  · cases h

theorem decimalDigits_firm (h : decimalDigits gs = some count) : Firm gs count ∧ 0 < count := by
  rw [decimalDigits] at h
  split at h
  · rename_i hnext
    obtain rfl := Option.some.inj h
    refine ⟨firm_runLength (isFirm_of_digit fun _ => isFirm_of_isDecimal) gs, ?_⟩
    cases gs with
    | nil => cases hnext
    | cons g rest =>
        have hdigit : glyphIs (fun c => isDecimal c || c == '_') g = true :=
          glyphIs_mono (p := isDecimal) (fun c hc => by simp [hc]) hnext
        rw [runLength, List.takeWhile_cons_of_pos hdigit]
        exact Nat.succ_pos _
  · cases h

theorem firm_numberType (gs : List Glyph) : Firm gs ((numberTypes.findSome? fun type => exactly type gs).getD 0) := by
  cases htype : numberTypes.findSome? fun type => exactly type gs with
  | none => exact firm_zero _
  | some size =>
      obtain ⟨type, hmem, hread⟩ := List.exists_of_findSome?_eq_some htype
      have hfirm : (numberTypes.all fun type => type.toList.all isFirm) = true := by decide
      exact firm_exactly (List.all_eq_true.mp hfirm type hmem) hread

theorem integer_firm (h : integer gs = some count) : Firm gs count ∧ 0 < count := by
  obtain ⟨digits, hdigits, rfl⟩ := Option.map_eq_some_iff.mp h
  have hfirm : Firm gs digits ∧ 0 < digits := by
    simp only [Option.orElse_eq_orElse, ← Option.or_eq_orElse, Option.or_eq_some_iff] at hdigits
    rcases hdigits with hdigits | ⟨-, hdigits | ⟨-, hdigits | ⟨-, hdigits⟩⟩⟩
    · exact basedDigits_firm rfl (fun _ => isFirm_of_isHexadecimal) hdigits
    · refine basedDigits_firm rfl (fun c hc => ?_) hdigits
      simp only [Bool.or_eq_true, beq_iff_eq] at hc
      rcases hc with rfl | rfl <;> rfl
    · exact basedDigits_firm rfl (fun c hc => isFirm_of_between '0' '7' rfl hc) hdigits
    · exact decimalDigits_firm hdigits
  exact ⟨hfirm.1.add (firm_numberType _), by omega⟩

theorem fraction_firm (h : fraction gs = some count) : Firm gs count := by
  cases gs with
  | nil => cases h
  | cons g rest =>
      rw [fraction] at h
      split at h
      · rename_i hpoint
        obtain rfl := Option.some.inj h
        rw [Bool.and_eq_true] at hpoint
        refine Firm.cons (glyphIs_of_eq rfl hpoint.1) ?_
        exact firm_runLength (isFirm_of_digit fun _ => isFirm_of_isDecimal) rest
      · cases h

theorem exponent_firm (h : exponent gs = some count) : Firm gs count := by
  cases gs with
  | nil => cases h
  | cons g rest =>
      rw [exponent] at h
      split at h
      · rename_i hletter
        obtain rfl := Option.some.inj h
        have hmark : glyphIs isFirm g = true := by
          rw [Bool.or_eq_true] at hletter
          exact hletter.elim (glyphIs_of_eq rfl) (glyphIs_of_eq rfl)
        have hsign : Firm rest (if nextIs (fun c => c == '+' || c == '-') rest then 1 else 0) := by
          split
          · rename_i hnext
            refine firm_of_nextIs (fun c hc => ?_) hnext
            simp only [Bool.or_eq_true, beq_iff_eq] at hc
            rcases hc with rfl | rfl <;> rfl
          · exact firm_zero _
        generalize (if nextIs (fun c => c == '+' || c == '-') rest then 1 else 0) = sign at hsign ⊢
        split
        · exact firm_zero _
        · rw [Nat.add_assoc, Nat.add_comm]
          exact Firm.cons hmark (hsign.add (firm_runLength (isFirm_of_digit fun _ => isFirm_of_isDecimal) _))
      · cases h

theorem numberSuffix_firm (gs : List Glyph) : Firm gs (numberSuffix gs) := by
  cases gs with
  | nil => exact firm_zero []
  | cons g rest =>
      rw [numberSuffix]
      split
      · rename_i hsuffix
        rw [Bool.and_eq_true] at hsuffix
        rw [Nat.add_comm]
        refine Firm.cons (glyphIs_mono (fun c hc => ?_) hsuffix.1) (firm_runLength (fun _ => isFirm_of_isDecimal) rest)
        simp only [Bool.or_eq_true, beq_iff_eq] at hc
        rcases hc with (rfl | rfl) | rfl <;> rfl
      · exact firm_zero _

theorem float_firm (h : float gs = some count) : Firm gs count ∧ 0 < count := by
  rw [float] at h
  split at h
  · cases h
  rename_i whole hwhole
  obtain ⟨hdigits, hpos⟩ := decimalDigits_firm hwhole
  dsimp only at h
  split at h
  · split at h
    · cases h
    split at h
    · cases h
    · obtain rfl := Option.some.inj h
      exact ⟨hdigits, hpos⟩
    · rename_i power _ hpower
      obtain rfl := Option.some.inj h
      refine ⟨(hdigits.add (exponent_firm hpower)).add ?_, by omega⟩
      rw [← List.drop_drop]
      exact numberSuffix_firm _
  · rename_i part hpart
    have hparts := hdigits.add (fraction_firm hpart)
    split at h
    · obtain rfl := Option.some.inj h
      exact ⟨hparts, by omega⟩
    · obtain rfl := Option.some.inj h
      have hpower : Firm (gs.drop (whole + part)) ((exponent ((gs.drop whole).drop part)).getD 0) := by
        rw [List.drop_drop]
        cases hexponent : exponent (gs.drop (whole + part)) with
        | none => exact firm_zero _
        | some power => exact exponent_firm hexponent
      refine ⟨(hparts.add hpower).add ?_, by omega⟩
      rw [← List.drop_drop, ← List.drop_drop]
      exact numberSuffix_firm _

-- Literals in quotes: whatever stands inside, a firm mark closes them.

theorem stringRest_ends {skip : Nat} (h : stringRest skip gs = some count) : EndsFirm gs count := by
  induction gs generalizing skip count with
  | nil => cases skip <;> cases h
  | cons g rest ih =>
      cases skip with
      | succ skip =>
          obtain ⟨inner, hinner, rfl⟩ := Option.map_eq_some_iff.mp h
          exact (ih hinner).cons
      | zero =>
          rw [stringRest] at h
          split at h
          · rename_i hquote
            obtain rfl := Option.some.inj h
            exact ⟨0, rfl, firmAt_zero (glyphIs_of_eq rfl hquote)⟩
          split at h
          · split at h
            · obtain ⟨inner, hinner, rfl⟩ := Option.map_eq_some_iff.mp h
              exact (ih hinner).cons
            · cases h
          · obtain ⟨inner, hinner, rfl⟩ := Option.map_eq_some_iff.mp h
            exact (ih hinner).cons

theorem rawStringRest_ends {hashes : Nat} (h : rawStringRest hashes gs = some count) : EndsFirm gs count := by
  induction gs generalizing count with
  | nil => cases h
  | cons g rest ih =>
      rw [rawStringRest] at h
      split at h
      · rename_i hclose
        obtain rfl := Option.some.inj h
        rw [Bool.and_eq_true] at hclose
        have hmarks := firm_startsWithChars _ (by simp [isFirm, isBlank]) hclose.2
        rw [List.length_replicate] at hmarks
        exact (Firm.cons (glyphIs_of_eq rfl hclose.1) hmarks).endsFirm (Nat.succ_pos _)
      · obtain ⟨inner, hinner, rfl⟩ := Option.map_eq_some_iff.mp h
        exact (ih hinner).cons

theorem opening_firm {openings : List String}
    (hfirm : (openings.all fun text => text.toList.all isFirm && 0 < text.length) = true) {opening : String}
    (hmem : opening ∈ openings) (hread : exactly opening gs = some count) : Firm gs count ∧ 0 < count := by
  have hopening := List.all_eq_true.mp hfirm opening hmem
  simp only [Bool.and_eq_true, decide_eq_true_eq] at hopening
  refine ⟨firm_exactly hopening.1 hread, ?_⟩
  rw [(exactly_eq_some_iff.mp hread).2]
  exact hopening.2

theorem fenced_string : Fenced string := by
  intro gs count h
  obtain ⟨opening, hmem, hread⟩ := List.exists_of_findSome?_eq_some h
  split at hread
  · rename_i size hopening
    obtain ⟨inner, hinner, rfl⟩ := Option.map_eq_some_iff.mp hread
    obtain ⟨hfirm, hpos⟩ := opening_firm (by decide) hmem hopening
    rw [Nat.add_comm]
    exact ⟨hfirm 0 hpos, (stringRest_ends hinner).drop⟩
  · cases hread

theorem fenced_rawString : Fenced rawString := by
  intro gs count h
  obtain ⟨opening, hmem, hread⟩ := List.exists_of_findSome?_eq_some h
  split at hread
  · rename_i size hopening
    dsimp only at hread
    split at hread
    · obtain ⟨inner, hinner, rfl⟩ := Option.map_eq_some_iff.mp hread
      obtain ⟨hfirm, hpos⟩ := opening_firm (by decide) hmem hopening
      rw [List.drop_drop] at hinner
      have hends := (rawStringRest_ends hinner).drop
      refine ⟨hfirm 0 hpos, ?_⟩
      convert hends using 1
      omega
    · cases hread
  · cases hread

theorem fenced_char : Fenced char := by
  intro gs count h
  obtain ⟨opening, hmem, hread⟩ := List.exists_of_findSome?_eq_some h
  split at hread
  · rename_i size hopening
    split at hread
    · rename_i content _
      split at hread
      · rename_i hclose
        obtain rfl := Option.some.inj hread
        obtain ⟨hfirm, hpos⟩ := opening_firm (by decide) hmem hopening
        have hquote : Firm (gs.drop (size + content)) 1 := by
          refine firm_of_nextIs (fun c hc => ?_) hclose
          rw [beq_iff_eq.mp hc]
          rfl
        exact ⟨hfirm 0 hpos, (hquote.endsFirm Nat.one_pos).drop⟩
      · cases hread
    · cases hread
  · cases hread

end Lexeme

end CrateDocs.Rust
