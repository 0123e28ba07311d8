import CrateDocs.Proofs.Syntax.Leaves
import CrateDocs.Proofs.Syntax.Passes

namespace CrateDocs.Syntax.Signature

open Text (isBlank dropEndWhile)

-- What is true of every token of the language. It starts and ends with no blank, and a comma or a semicolon at an
-- end of it is all of it.
structure IsToken (text : String) : Prop where
  first : text.toList.head?.any (fun c => !isBlank c) = true
  last : text.toList.getLast?.any (fun c => !isBlank c) = true
  comma : text.toList.head? = some ',' ∨ text.toList.getLast? = some ',' → text = ","
  semicolon : text.toList.getLast? = some ';' → text = ";"

theorem isToken_iff {text : String} :
    IsToken text ↔ text.toList.head?.any (fun c => !isBlank c) = true ∧
      text.toList.getLast?.any (fun c => !isBlank c) = true ∧
      (text.toList.head? = some ',' ∨ text.toList.getLast? = some ',' → text = ",") ∧
      (text.toList.getLast? = some ';' → text = ";") :=
  ⟨fun h => ⟨h.first, h.last, h.comma, h.semicolon⟩, fun h => ⟨h.1, h.2.1, h.2.2.1, h.2.2.2⟩⟩

instance (text : String) : Decidable (IsToken text) := decidable_of_iff' _ isToken_iff

theorem IsToken.exists_first {text : String} (h : IsToken text) :
    ∃ c cs, text.toList = c :: cs ∧ isBlank c = false := by
  have hfirst := h.first
  cases hcs : text.toList with
  | nil => simp [hcs] at hfirst
  | cons c cs => exact ⟨c, cs, rfl, by simpa [hcs] using hfirst⟩

theorem IsToken.exists_last {text : String} (h : IsToken text) :
    ∃ c, text.toList.getLast? = some c ∧ isBlank c = false := by
  obtain ⟨c, hc, hblank⟩ := (Option.any_eq_true ..).mp h.last
  exact ⟨c, hc, by simpa using hblank⟩

-- The passes leave the first and the last character of a token, whatever they do between.

-- A change of texts that leaves both ends of each of some.
def KeepsEnds (f : List Char → List Char) (text : String) : Prop :=
  (f text.toList).head? = text.toList.head? ∧ (f text.toList).getLast? = text.toList.getLast?

theorem IsToken.keepsEnds_dropLastCommas {text : String} (h : IsToken text) :
    KeepsEnds (dropLastCommas false) text := by
  obtain ⟨c, cs, hcs, -⟩ := h.exists_first
  obtain ⟨d, hlast, hd⟩ := h.exists_last
  refine ⟨?_, by rw [getLast?_dropLastCommas false hlast hd, hlast]⟩
  by_cases hc : c = ','
  · obtain rfl := h.comma (Or.inl (by rw [hcs, hc, List.head?_cons]))
    rfl
  · rw [hcs, dropLastCommas_cons hc, List.head?_cons, List.head?_cons]

theorem KeepsEnds.dropAfterOpening {f : List Char → List Char} {text : String} (hf : KeepsEnds f text)
    (h : IsToken text) : KeepsEnds (fun cs => dropAfterOpening false (f cs)) text := by
  obtain ⟨d, hlast, hd⟩ := h.exists_last
  refine ⟨?_, by rw [getLast?_dropAfterOpening false (hf.2.trans hlast) hd, hlast]⟩
  rw [← hf.1]
  dsimp only
  cases f text.toList with
  | nil => rfl
  | cons c cs => rw [dropAfterOpening_cons, List.head?_cons, List.head?_cons]

theorem KeepsEnds.dropBeforeClosing {f : List Char → List Char} {text : String} (hf : KeepsEnds f text)
    (h : IsToken text) : KeepsEnds (fun cs => dropBeforeClosing (f cs)) text := by
  obtain ⟨c, cs, hcs, hc⟩ := h.exists_first
  obtain ⟨d, hlast, hd⟩ := h.exists_last
  refine ⟨?_, by rw [getLast?_dropBeforeClosing (hf.2.trans hlast) hd, hlast]⟩
  have hfirst : (f text.toList).head? = some c := by rw [hf.1, hcs, List.head?_cons]
  obtain ⟨rest, hrest⟩ := List.head?_eq_some_iff.mp hfirst
  dsimp only
  rw [hrest, dropBeforeClosing_cons hc, hcs, List.head?_cons, List.head?_cons]

theorem IsToken.keepsEnds_settled {text : String} (h : IsToken text) : KeepsEnds settled text :=
  (h.keepsEnds_dropLastCommas.dropAfterOpening h).dropBeforeClosing h

-- The cleaned text of a declaration, told by its tokens.

-- Whether blanks go after a token, and before it.
def opens (text : String) : Bool := text.toList.getLast?.any isOpening
def closes (text : String) : Bool := text.toList.head?.any isClosing

-- Whether a token ends a list.
def endsList (text : String) : Bool := text.toList.head?.any isCloser

-- The pieces without every comma that has a gap and then the end of its list after it.
def withoutLastCommas : List Piece → List Piece
  | [] => []
  | p :: rest =>
    if p.text = "," && p.gap && rest.head?.any (fun next => endsList next.text) then withoutLastCommas rest
    else p :: withoutLastCommas rest

-- Whether a blank stands between a piece and the next.
def apart (p : Piece) (next? : Option Piece) : Bool :=
  p.gap && !opens p.text && next?.any fun next => !closes next.text

-- The pieces without the commas and semicolons that stand together at the end of them all.
def withoutEnding : List Piece → List Piece
  | [] => []
  | p :: rest =>
    if (withoutEnding rest).isEmpty && (p.text = "," || p.text = ";") && !apart p rest.head? then []
    else p :: withoutEnding rest

-- The texts of pieces, each changed by `f`, with one blank wherever `g` says so of a piece and the next.
def laidOut (f : List Char → List Char) (g : Piece → Option Piece → Bool) : List Piece → List Char
  | [] => []
  | p :: rest => f p.text.toList ++ ((if g p rest.head? then [' '] else []) ++ laidOut f g rest)

-- Where there are blanks before the passes, after the second of them and after the third.
def gapped (p : Piece) (_ : Option Piece) : Bool := p.gap
def gappedInside (p : Piece) (_ : Option Piece) : Bool := p.gap && !opens p.text
def gappedBetween (p : Piece) (next? : Option Piece) : Bool :=
  p.gap && !opens p.text && !next?.any fun next => closes next.text

-- The texts of pieces, each as the passes leave it, with one blank between those that are apart.
def rendered (ps : List Piece) : List Char := laidOut settled apart ps

theorem toList_joined (ps : List Piece) : (joined ps).toList = laidOut id gapped ps := by
  induction ps with
  | nil => rfl
  | cons p rest ih =>
      rw [joined, laidOut, String.toList_append, String.toList_append, ih, List.append_assoc, gapped, id_eq]
      cases p.gap <;> rfl

theorem withoutLastCommas_sublist (ps : List Piece) : (withoutLastCommas ps).Sublist ps := by
  induction ps with
  | nil => exact .slnil
  | cons p rest ih =>
      rw [withoutLastCommas]
      split
      · exact ih.cons p
      · exact ih.cons_cons p

theorem isToken_withoutLastCommas {ps : List Piece} (hps : ∀ p ∈ ps, IsToken p.text) :
    ∀ p ∈ withoutLastCommas ps, IsToken p.text :=
  fun p hp => hps p ((withoutLastCommas_sublist ps).subset hp)

-- What each pass does with the blank of a gap.

theorem isBlank_space : isBlank ' ' = true := rfl

theorem dropLastCommas_space (dropping : Bool) (cs : List Char) :
    dropLastCommas dropping (' ' :: cs) =
      if dropping then dropLastCommas true cs else ' ' :: dropLastCommas false cs := by
  cases dropping <;> simp [dropLastCommas, isBlank_space]

theorem dropAfterOpening_space (opened : Bool) (cs : List Char) :
    dropAfterOpening opened (' ' :: cs) =
      if opened then dropAfterOpening true cs else ' ' :: dropAfterOpening false cs := by
  cases opened <;> simp [dropAfterOpening, isBlank_space]

theorem dropBeforeClosing_space (cs : List Char) :
    dropBeforeClosing (' ' :: cs) =
      if (cs.dropWhile isBlank).head?.any isClosing then dropBeforeClosing cs else ' ' :: dropBeforeClosing cs := by
  rw [dropBeforeClosing, isBlank_space, Bool.true_and]
  rfl

section Passes

variable {f : List Char → List Char} {g : Piece → Option Piece → Bool} {ps : List Piece}

theorem head?_laidOut (hps : ∀ p ∈ ps, IsToken p.text) (hf : ∀ p ∈ ps, KeepsEnds f p.text) :
    (laidOut f g ps).head? = ps.head?.bind fun p => p.text.toList.head? := by
  cases ps with
  | nil => rfl
  | cons p rest =>
      obtain ⟨c, cs, hcs, -⟩ := (hps p List.mem_cons_self).exists_first
      have hfirst := (hf p List.mem_cons_self).1
      rw [laidOut, List.head?_append, hfirst, List.head?_cons, Option.bind_some, hcs, List.head?_cons, Option.some_or]

-- The next token starts the text after a gap.
theorem isBlank_of_head?_laidOut (hps : ∀ p ∈ ps, IsToken p.text) (hf : ∀ p ∈ ps, KeepsEnds f p.text) {c : Char}
    (hc : (laidOut f g ps).head? = some c) : isBlank c = false := by
  rw [head?_laidOut hps hf] at hc
  obtain ⟨p, hp, hc⟩ := Option.bind_eq_some_iff.mp hc
  obtain ⟨d, ds, hds, hd⟩ := (hps p (List.mem_of_head? hp)).exists_first
  rw [hds, List.head?_cons, Option.some.injEq] at hc
  rwa [← hc]

theorem any_head?_laidOut (hps : ∀ p ∈ ps, IsToken p.text) (hf : ∀ p ∈ ps, KeepsEnds f p.text) (q : Char → Bool) :
    (((laidOut f g ps).dropWhile isBlank).head?).any q = ps.head?.any fun p => p.text.toList.head?.any q := by
  rw [Text.dropWhile_of_head fun c hc => isBlank_of_head?_laidOut hps hf hc, head?_laidOut hps hf]
  cases ps.head? <;> rfl

-- One piece and what follows it, for each pass.

theorem dropLastCommas_laidOut (hps : ∀ p ∈ ps, IsToken p.text) :
    dropLastCommas false (laidOut id gapped ps) =
      laidOut (dropLastCommas false) gapped (withoutLastCommas ps) := by
  induction ps with
  | nil => rfl
  | cons p rest ih =>
      have hrest : ∀ q ∈ rest, IsToken q.text := fun q hq => hps q (List.mem_cons_of_mem p hq)
      have hends : ∀ q ∈ rest, KeepsEnds id q.text := fun _ _ => ⟨rfl, rfl⟩
      have hhead := fun c => isBlank_of_head?_laidOut (f := id) (g := gapped) hrest hends (c := c)
      have hnext : ((laidOut id gapped rest).dropWhile isBlank).head?.any isCloser =
          rest.head?.any fun next => endsList next.text := any_head?_laidOut hrest hends isCloser
      obtain ⟨text, gap⟩ := p
      by_cases hcomma : text = ","
      · subst hcomma
        cases gap with
        | false =>
            -- The comma and the next token touch.
            have htouch : (laidOut id gapped rest).head?.any isBlank = false := by
              rw [Option.any_eq_false]
              exact fun c hc => by simpa using hhead c hc
            simp [withoutLastCommas, laidOut, gapped, dropLastCommas, htouch, ih hrest]
        | true =>
            have hstart : laidOut id gapped (⟨",", true⟩ :: rest) = ',' :: ' ' :: laidOut id gapped rest := rfl
            have hblanks : (' ' :: laidOut id gapped rest).dropWhile isBlank =
                (laidOut id gapped rest).dropWhile isBlank :=
              List.dropWhile_cons_of_pos rfl
            rw [hstart, dropLastCommas, hblanks, hnext]
            by_cases hlist : rest.head?.any (fun next => endsList next.text) = true
            · have hgone : withoutLastCommas (⟨",", true⟩ :: rest) = withoutLastCommas rest := by
                simp [withoutLastCommas, hlist]
              rw [hgone, ← ih hrest, ← dropLastCommas_true hhead]
              simp [isBlank_space, dropLastCommas_space, hlist]
            · have hkept : withoutLastCommas (⟨",", true⟩ :: rest) = ⟨",", true⟩ :: withoutLastCommas rest := by
                simp [withoutLastCommas, hlist]
              have hcomma : dropLastCommas false [','] = [','] := rfl
              rw [hkept]
              simp [isBlank_space, dropLastCommas_space, hlist, laidOut, gapped, hcomma, ih hrest]
      · have htoken := hps ⟨text, gap⟩ List.mem_cons_self
        obtain ⟨c, hlast, hblank⟩ := htoken.exists_last
        have hne : c ≠ ',' := by
          rintro rfl
          exact hcomma (htoken.comma (Or.inr hlast))
        have hkept : withoutLastCommas (⟨text, gap⟩ :: rest) = ⟨text, gap⟩ :: withoutLastCommas rest := by
          simp [withoutLastCommas, hcomma]
        rw [hkept, laidOut, laidOut, id_eq, dropLastCommas_append false _ hlast hblank hne]
        cases gap with
        | false => simp [gapped, ih hrest]
        | true => simp [gapped, dropLastCommas_space, ih hrest]

theorem dropAfterOpening_laidOut (hps : ∀ p ∈ ps, IsToken p.text) (hf : ∀ p ∈ ps, KeepsEnds f p.text) :
    dropAfterOpening false (laidOut f gapped ps) =
      laidOut (fun cs => dropAfterOpening false (f cs)) gappedInside ps := by
  induction ps with
  | nil => rfl
  | cons p rest ih =>
      have hrest : ∀ q ∈ rest, IsToken q.text := fun q hq => hps q (List.mem_cons_of_mem p hq)
      have hends : ∀ q ∈ rest, KeepsEnds f q.text := fun q hq => hf q (List.mem_cons_of_mem p hq)
      obtain ⟨c, hlast, hblank⟩ := (hps p List.mem_cons_self).exists_last
      have hopens : opens p.text = isOpening c := by rw [opens, hlast, Option.any_some]
      -- No blank is left of the next token, so what was opened does not matter to it.
      have hnext := dropAfterOpening_eq fun c hc => isBlank_of_head?_laidOut (g := gapped) hrest hends hc
      rw [laidOut, laidOut, dropAfterOpening_append false _ ((hf p List.mem_cons_self).2.trans hlast) hblank,
        ← ih hrest hends]
      congr 1
      rw [gapped, gappedInside, hopens]
      cases p.gap <;> cases isOpening c <;> simp [dropAfterOpening_space, hnext]

theorem dropBeforeClosing_laidOut (hps : ∀ p ∈ ps, IsToken p.text) (hf : ∀ p ∈ ps, KeepsEnds f p.text) :
    dropBeforeClosing (laidOut f gappedInside ps) =
      laidOut (fun cs => dropBeforeClosing (f cs)) gappedBetween ps := by
  induction ps with
  | nil => rfl
  | cons p rest ih =>
      have hrest : ∀ q ∈ rest, IsToken q.text := fun q hq => hps q (List.mem_cons_of_mem p hq)
      have hends : ∀ q ∈ rest, KeepsEnds f q.text := fun q hq => hf q (List.mem_cons_of_mem p hq)
      obtain ⟨c, hlast, hblank⟩ := (hps p List.mem_cons_self).exists_last
      have hnext : ((laidOut f gappedInside rest).dropWhile isBlank).head?.any isClosing =
          rest.head?.any fun next => closes next.text := any_head?_laidOut hrest hends isClosing
      rw [laidOut, laidOut, dropBeforeClosing_append _ ((hf p List.mem_cons_self).2.trans hlast) hblank,
        ← ih hrest hends]
      congr 1
      rw [gappedInside, gappedBetween]
      cases p.gap && !opens p.text
      · simp
      · cases hclose : rest.head?.any fun next => closes next.text <;>
          simp [dropBeforeClosing_space, hnext, hclose]

-- After all passes the texts are those of the tokens, and only a blank at the end is too much.
theorem settled_joined (hps : ∀ p ∈ ps, IsToken p.text) :
    settled (joined ps).toList = laidOut settled gappedBetween (withoutLastCommas ps) := by
  have hkept := isToken_withoutLastCommas hps
  have hfirst : ∀ p ∈ withoutLastCommas ps, KeepsEnds (dropLastCommas false) p.text :=
    fun p hp => (hkept p hp).keepsEnds_dropLastCommas
  have hsecond : ∀ p ∈ withoutLastCommas ps,
      KeepsEnds (fun cs => dropAfterOpening false (dropLastCommas false cs)) p.text :=
    fun p hp => (hfirst p hp).dropAfterOpening (hkept p hp)
  rw [toList_joined, settled, dropLastCommas_laidOut hps, dropAfterOpening_laidOut hkept hfirst,
    dropBeforeClosing_laidOut hkept hsecond]
  rfl

theorem laidOut_gappedBetween (ps : List Piece) :
    ∃ blanks, laidOut f gappedBetween ps = laidOut f apart ps ++ blanks ∧ ∀ b ∈ blanks, isBlank b = true := by
  induction ps with
  | nil => exact ⟨[], rfl, by simp⟩
  | cons p rest ih =>
      obtain ⟨blanks, hblanks, hall⟩ := ih
      cases rest with
      | nil =>
          cases hgap : gappedBetween p none with
          | false => exact ⟨[], by simp [laidOut, apart, hgap], by simp⟩
          | true => exact ⟨[' '], by simp [laidOut, apart, hgap], by simp [isBlank_space]⟩
      | cons next rest =>
          have hsame : gappedBetween p (some next) = apart p (some next) := by simp [gappedBetween, apart]
          refine ⟨blanks, ?_, hall⟩
          calc laidOut f gappedBetween (p :: next :: rest)
              = f p.text.toList ++
                  ((if apart p (some next) then [' '] else []) ++ (laidOut f apart (next :: rest) ++ blanks)) := by
                rw [laidOut, hblanks, List.head?_cons, hsame]
            _ = laidOut f apart (p :: next :: rest) ++ blanks := by
                rw [laidOut.eq_2 f apart p (next :: rest), List.append_assoc, List.append_assoc, List.head?_cons]

end Passes

theorem rendered_cons (p : Piece) (rest : List Piece) :
    rendered (p :: rest) =
      settled p.text.toList ++ ((if apart p rest.head? then [' '] else []) ++ rendered rest) :=
  rfl

-- The end of a text of tokens.

theorem IsToken.isEnding_last {text : String} {c : Char} (h : IsToken text) (hlast : text.toList.getLast? = some c) :
    isEnding c = true ↔ text = "," ∨ text = ";" := by
  simp only [isEnding, Bool.or_eq_true, beq_iff_eq]
  constructor
  · rintro (rfl | rfl)
    · exact Or.inl (h.comma (Or.inr hlast))
    · exact Or.inr (h.semicolon hlast)
  · rintro (rfl | rfl)
    · exact Or.inl (Option.some.inj hlast).symm
    · exact Or.inr (Option.some.inj hlast).symm

theorem IsToken.dropEndWhile_isBlank {text : String} (h : IsToken text) :
    dropEndWhile isBlank (settled text.toList) = settled text.toList := by
  obtain ⟨c, hlast, hblank⟩ := h.exists_last
  apply Text.dropEndWhile_of_last
  intro d hd
  rw [h.keepsEnds_settled.2, hlast, Option.some.injEq] at hd
  rwa [← hd]

theorem IsToken.dropEndWhile_isEnding {text : String} (h : IsToken text) :
    dropEndWhile isEnding (settled text.toList) = if text = "," ∨ text = ";" then [] else settled text.toList := by
  split
  · rename_i hmark
    rcases hmark with rfl | rfl <;> rfl
  · rename_i hmark
    apply Text.dropEndWhile_of_last
    intro d hd
    rw [h.keepsEnds_settled.2] at hd
    rwa [← h.isEnding_last hd, Bool.not_eq_true] at hmark

theorem head?_withoutEnding {ps : List Piece} (h : withoutEnding ps ≠ []) : (withoutEnding ps).head? = ps.head? := by
  cases ps with
  | nil => rfl
  | cons p rest =>
      rw [withoutEnding] at h ⊢
      split at h
      · exact absurd rfl h
      · rename_i hkept
        rw [if_neg hkept]
        rfl

theorem withoutEnding_sublist (ps : List Piece) : (withoutEnding ps).Sublist ps := by
  induction ps with
  | nil => exact .slnil
  | cons p rest ih =>
      rw [withoutEnding]
      split
      · exact List.nil_sublist _
      · exact ih.cons_cons p

section Rendered

variable {ps : List Piece}

theorem head?_rendered (hps : ∀ p ∈ ps, IsToken p.text) :
    (rendered ps).head? = ps.head?.bind fun p => p.text.toList.head? :=
  head?_laidOut hps fun p hp => (hps p hp).keepsEnds_settled

theorem isBlank_of_head?_rendered (hps : ∀ p ∈ ps, IsToken p.text) {c : Char} (hc : (rendered ps).head? = some c) :
    isBlank c = false :=
  isBlank_of_head?_laidOut hps (fun p hp => (hps p hp).keepsEnds_settled) hc

theorem rendered_ne_nil (hps : ∀ p ∈ ps, IsToken p.text) (hne : ps ≠ []) : rendered ps ≠ [] := by
  obtain ⟨p, rest, rfl⟩ := List.exists_cons_of_ne_nil hne
  obtain ⟨c, cs, hcs, -⟩ := (hps p List.mem_cons_self).exists_first
  intro hnil
  have hhead := head?_rendered hps
  rw [hnil, List.head?_cons, Option.bind_some, hcs] at hhead
  cases hhead

theorem isBlank_of_getLast?_rendered (hps : ∀ p ∈ ps, IsToken p.text) {c : Char}
    (hc : (rendered ps).getLast? = some c) : isBlank c = false := by
  induction ps with
  | nil => cases hc
  | cons p rest ih =>
      have hrest : ∀ q ∈ rest, IsToken q.text := fun q hq => hps q (List.mem_cons_of_mem p hq)
      rw [rendered_cons] at hc
      cases rest with
      | nil =>
          have htoken := hps p List.mem_cons_self
          obtain ⟨d, hlast, hd⟩ := htoken.exists_last
          rw [List.head?_nil, apart, Option.any_none, Bool.and_false, if_neg (by simp), rendered, laidOut,
            List.append_nil, List.append_nil, htoken.keepsEnds_settled.2, hlast, Option.some.injEq] at hc
          rwa [← hc]
      | cons next rest =>
          have hne := rendered_ne_nil hrest (List.cons_ne_nil next rest)
          rw [List.getLast?_append_of_ne_nil _ (by simp [hne]), List.getLast?_append_of_ne_nil _ hne] at hc
          exact ih hrest hc

theorem isEnding_of_withoutEnding_eq_nil (hps : ∀ p ∈ ps, IsToken p.text)
    (h : dropEndWhile isBlank (dropEndWhile isEnding (rendered ps)) = []) : ∀ c ∈ rendered ps, isEnding c = true := by
  rw [← Text.dropEndWhile_eq_nil_iff]
  rw [Text.dropEndWhile_eq_nil_iff] at h
  -- What the marks leave would start as the first token does, and not with a blank.
  cases hleft : dropEndWhile isEnding (rendered ps) with
  | nil => rfl
  | cons c cs =>
      obtain ⟨after, hafter⟩ := Text.dropEndWhile_isPrefix isEnding (rendered ps)
      rw [hleft] at hafter h
      have hblank := isBlank_of_head?_rendered hps (c := c) (by rw [← hafter]; rfl)
      rw [h c List.mem_cons_self] at hblank
      cases hblank

-- Commas and semicolons at the end go token by token. The induction is on the tokens from the front, since a mark
-- goes only if all that follows it goes.
theorem dropEndWhile_rendered (hps : ∀ p ∈ ps, IsToken p.text) :
    dropEndWhile isBlank (dropEndWhile isEnding (rendered ps)) = rendered (withoutEnding ps) := by
  induction ps with
  | nil => rfl
  | cons p rest ih =>
      have hrest : ∀ q ∈ rest, IsToken q.text := fun q hq => hps q (List.mem_cons_of_mem p hq)
      have htoken := hps p List.mem_cons_self
      specialize ih hrest
      rw [rendered_cons]
      by_cases hgone : withoutEnding rest = []
      · rw [hgone] at ih
        have hword : rendered [p] = settled p.text.toList := by simp [rendered, laidOut, apart]
        rw [← List.append_assoc, Text.dropEndWhile_append_of_pos (isEnding_of_withoutEnding_eq_nil hrest ih),
          withoutEnding, hgone]
        cases hspace : apart p rest.head? with
        | true =>
            -- The blank keeps the marks before it.
            rw [if_pos rfl, Text.dropEndWhile_of_last (p := isEnding) (by simp [isEnding]),
              Text.dropEndWhile_append_of_pos (by simp [isBlank_space]), htoken.dropEndWhile_isBlank, if_neg (by simp),
              hword]
        | false =>
            rw [if_neg (by simp), List.append_nil, htoken.dropEndWhile_isEnding]
            by_cases hmark : p.text = "," ∨ p.text = ";"
            · rw [if_pos hmark, if_pos (by simpa using hmark)]
              rfl
            · rw [if_neg hmark, if_neg (by simpa using hmark), htoken.dropEndWhile_isBlank, hword]
      · have hkept : withoutEnding (p :: rest) = p :: withoutEnding rest := by simp [withoutEnding, hgone]
        have hleft : rendered (withoutEnding rest) ≠ [] :=
          rendered_ne_nil (fun q hq => hrest q ((withoutEnding_sublist rest).subset hq)) hgone
        rw [← ih] at hleft
        have hmarks : dropEndWhile isEnding (rendered rest) ≠ [] := by
          intro hnil
          rw [hnil] at hleft
          exact hleft rfl
        rw [hkept, rendered_cons, head?_withoutEnding hgone, ← ih, ← List.append_assoc,
          Text.dropEndWhile_append_of_ne_nil hmarks, Text.dropEndWhile_append_of_ne_nil hleft, List.append_assoc]

-- The cleaned text of tokens.
theorem tidy_joined (hps : ∀ p ∈ ps, IsToken p.text) :
    tidy (joined ps) = String.ofList (rendered (withoutEnding (withoutLastCommas ps))) := by
  have hkept := isToken_withoutLastCommas hps
  obtain ⟨blanks, hblanks, hall⟩ := laidOut_gappedBetween (f := settled) (withoutLastCommas ps)
  have hframed : Text.Framed isBlank (settled (joined ps).toList) (rendered (withoutLastCommas ps)) := by
    refine ⟨⟨[], blanks, ?_, by simp, hall⟩, ?_, ?_⟩
    · rw [settled_joined hps, hblanks]
      rfl
    · exact fun c hc => isBlank_of_head?_rendered hkept hc
    · exact fun c hc => isBlank_of_getLast?_rendered hkept hc
  have htidy : tidy (joined ps) = String.ofList
      (dropEndWhile isBlank (dropEndWhile isEnding (Text.trimWhile isBlank (settled (joined ps).toList)))) :=
    rfl
  rw [htidy, hframed.trimWhile_eq, dropEndWhile_rendered hkept]

end Rendered

-- What is left out.

-- The pieces of a declaration that its signature shows.
def kept (ps : List Piece) : List Piece := withoutEnding (withoutLastCommas ps)

-- A piece that is neither a comma nor a semicolon.
def isOther (p : Piece) : Bool := p.text != "," && p.text != ";"

theorem filter_withoutLastCommas (ps : List Piece) : (withoutLastCommas ps).filter isOther = ps.filter isOther := by
  induction ps with
  | nil => rfl
  | cons p rest ih =>
      rw [withoutLastCommas]
      split
      · rename_i hcomma
        simp only [Bool.and_eq_true, decide_eq_true_eq] at hcomma
        rw [ih, List.filter_cons_of_neg (by simp [isOther, hcomma.1.1])]
      · rw [List.filter_cons, List.filter_cons, ih]

theorem filter_withoutEnding (ps : List Piece) : (withoutEnding ps).filter isOther = ps.filter isOther := by
  induction ps with
  | nil => rfl
  | cons p rest ih =>
      rw [withoutEnding]
      split
      · rename_i hmark
        simp only [Bool.and_eq_true, Bool.or_eq_true, decide_eq_true_eq, List.isEmpty_iff] at hmark
        have hmark' : isOther p = false := by
          rcases hmark.1.2 with htext | htext <;> simp [isOther, htext]
        rw [List.filter_cons_of_neg (by simp [hmark']), ← ih, hmark.1.1]
      · rw [List.filter_cons, List.filter_cons, ih]

theorem withoutLastCommas_append {p : Piece} (hp : endsList p.text = false) (before after : List Piece) :
    withoutLastCommas (before ++ p :: after) = withoutLastCommas before ++ withoutLastCommas (p :: after) := by
  induction before with
  | nil => rfl
  | cons q before ih =>
      have hnext : (before ++ p :: after).head?.any (fun next => endsList next.text) =
          before.head?.any fun next => endsList next.text := by
        cases before with
        | nil => simp [hp]
        | cons next before => rfl
      rw [List.cons_append, withoutLastCommas, hnext, ih, withoutLastCommas.eq_2 q before]
      split <;> rfl

theorem withoutLastCommas_lastComma {comma close : Piece} (hcomma : comma.text = ",")
    (hclose : endsList close.text = true) (before after : List Piece) :
    withoutLastCommas (before ++ comma :: close :: after) =
      withoutLastCommas before ++ (if comma.gap then [] else [comma]) ++ withoutLastCommas (close :: after) := by
  have hother : endsList comma.text = false := by
    rw [hcomma]
    rfl
  rw [withoutLastCommas_append hother, withoutLastCommas, List.append_assoc]
  cases hgap : comma.gap <;> simp [hcomma, hclose]

-- What the signature of a declaration shows of its tokens, which are given by its leaves.
structure KeepsTokens (s : Source) (n : Node) (ls : List Node) : Prop where
  -- It is made of the tokens that are kept, one after the other, and of blanks between them.
  text : ofNode s n = String.ofList (rendered (kept (pieces s ls)))
  order : (kept (pieces s ls)).Sublist (pieces s ls)
  -- Nothing but commas and semicolons is missing.
  others : (kept (pieces s ls)).filter isOther = (pieces s ls).filter isOther
  -- Of the commas right before the end of a list those stay that touch it, whatever the list is.
  lastComma : ∀ before comma close after, pieces s ls = before ++ comma :: close :: after → comma.text = "," →
    endsList close.text = true → withoutLastCommas (pieces s ls) =
      withoutLastCommas before ++ (if comma.gap then [] else [comma]) ++ withoutLastCommas (close :: after)
  -- A token is shown as it is written exactly if it has nothing inside that the passes look for.
  verbatim : ∀ leaf ∈ ls, settled (s.text leaf).toList = (s.text leaf).toList ↔ Quiet (s.text leaf).toList
  solid : ∀ leaf ∈ ls, (∀ c ∈ (s.text leaf).toList, isBlank c = false) →
    settled (s.text leaf).toList = (s.text leaf).toList

theorem text_of_mem_pieces {s : Source} {ls : List Node} {p : Piece} (hp : p ∈ pieces s ls) :
    ∃ leaf ∈ ls, p.text = s.text leaf := by
  induction ls with
  | nil => cases hp
  | cons leaf rest ih =>
      cases rest with
      | nil =>
          rw [pieces, List.mem_singleton] at hp
          exact ⟨leaf, List.mem_cons_self, by rw [hp]⟩
      | cons next rest =>
          rw [pieces] at hp
          rcases List.mem_cons.mp hp with rfl | hp
          · exact ⟨leaf, List.mem_cons_self, rfl⟩
          · obtain ⟨other, hother, htext⟩ := ih hp
            exact ⟨other, List.mem_cons_of_mem leaf hother, htext⟩

-- The signature of a declaration whose leaves are tokens is made of these tokens. The comma of a list goes if anything
-- stands between it and the end of the list, be it a tuple that has no other, and a literal changes if there are
-- blanks at brackets or commas inside it.
theorem signature_keeps_tokens {s : Source} {n : Node} {ls : List Node} (h : LeafSequence n ls)
    (htokens : ∀ leaf ∈ ls, IsToken (s.text leaf)) : KeepsTokens s n ls := by
  have hps : ∀ p ∈ pieces s ls, IsToken p.text := by
    intro p hp
    obtain ⟨leaf, hleaf, htext⟩ := text_of_mem_pieces hp
    rw [htext]
    exact htokens leaf hleaf
  constructor
  · rw [ofNode, ← leafSequence_iff.mp h, spaced_eq_joined, tidy_joined hps, kept]
  · exact (withoutEnding_sublist _).trans (withoutLastCommas_sublist _)
  · rw [kept, filter_withoutEnding, filter_withoutLastCommas]
  · intro before comma close after hpieces hcomma hclose
    rw [hpieces, withoutLastCommas_lastComma hcomma hclose]
  · exact fun leaf _ => settled_eq_self_iff
  · exact fun leaf _ hsolid => settled_eq_self_iff.mpr (quiet_of_no_blanks hsolid)

-- A function that gives back a tuple of one element, with a line break before the end of the tuple and a text inside
-- it.
def singleTuple : Source :=
  ⟨⟨.here, ["lib.rs"]⟩, Utf8.encode "fn one() -> (S<\"( a , )\">,\n) \x7b s() \x7d\n"⟩

def singleTupleText : Node :=
  ⟨"string_literal", 15, 24, none, true, false,
    [.leaf "\"" 15 16 false, .leaf "string_content" 16 23 true, .leaf "\"" 23 24 false]⟩

def singleTupleType : Node :=
  ⟨"tuple_type", 12, 28, some "return_type", true, false, [
    .leaf "(" 12 13 false,
    ⟨"generic_type", 13, 25, none, true, false, [
      ⟨"type_identifier", 13, 14, some "type", true, false, []⟩,
      ⟨"type_arguments", 14, 25, some "type_arguments", true, false,
        [.leaf "<" 14 15 false, singleTupleText, .leaf ">" 24 25 false]⟩]⟩,
    .leaf "," 25 26 false, .leaf ")" 27 28 false]⟩

def singleTupleFunction : Node :=
  ⟨"function_item", 0, 36, none, true, false, [
    .leaf "fn" 0 2 false, ⟨"identifier", 3, 6, some "name", true, false, []⟩,
    ⟨"parameters", 6, 8, some "parameters", true, false, [.leaf "(" 6 7 false, .leaf ")" 7 8 false]⟩,
    .leaf "->" 9 11 false, singleTupleType,
    ⟨"block", 29, 36, some "body", true, false, [
      .leaf "\x7b" 29 30 false,
      ⟨"call_expression", 31, 34, none, true, false, [
        ⟨"identifier", 31, 32, some "function", true, false, []⟩,
        ⟨"arguments", 32, 34, some "arguments", true, false, [.leaf "(" 32 33 false, .leaf ")" 33 34 false]⟩]⟩,
      .leaf "\x7d" 35 36 false]⟩]⟩

theorem signature_of_singleTuple :
    KeepsTokens singleTuple singleTupleFunction (declarationLeaves singleTupleFunction) ∧
      ofNode singleTuple singleTupleFunction = "fn one() -> (S<\"(a)\">)" := by
  have htokens : ∀ leaf ∈ declarationLeaves singleTupleFunction, IsToken (singleTuple.text leaf) := by
    rw [declarationLeaves_eq]
    decide +kernel
  refine ⟨signature_keeps_tokens (leafSequence_iff.mpr rfl) htokens, ?_⟩
  rw [ofNode, declarationLeaves_eq]
  decide +kernel

end CrateDocs.Syntax.Signature
