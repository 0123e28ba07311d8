import CrateDocs.Proofs.Text.Trim
import CrateDocs.Syntax.Signature
import Mathlib.Data.List.Infix

namespace CrateDocs.Syntax.Signature

open Text (isBlank)

-- The brackets after which blanks go, what blanks go before, and what goes at the end.
def isOpening (c : Char) : Bool := c == '(' || c == '['
def isClosing (c : Char) : Bool := c == ')' || c == ']' || c == ','
def isEnding (c : Char) : Bool := c == ',' || c == ';'

variable {cs ds : List Char} {c : Char}

-- The passes that take layout away, on texts one after the other. What ends in something other than a blank is
-- not touched by what comes after it.

theorem dropWhile_ne_nil_of_last (hlast : cs.getLast? = some c) (hblank : isBlank c = false) :
    cs.dropWhile isBlank ≠ [] := by
  intro hnil
  have hall := List.dropWhile_eq_nil_iff.mp hnil c (List.mem_of_getLast? hlast)
  rw [hblank] at hall
  cases hall

theorem head?_dropWhile_append (ds : List Char) (hlast : cs.getLast? = some c) (hblank : isBlank c = false) :
    ((cs ++ ds).dropWhile isBlank).head? = (cs.dropWhile isBlank).head? := by
  have hne := dropWhile_ne_nil_of_last hlast hblank
  rw [List.dropWhile_append, if_neg (by simpa using hne), List.head?_append_of_ne_nil _ hne]

theorem dropLastCommas_append (dropping : Bool) (ds : List Char) (hlast : cs.getLast? = some c)
    (hblank : isBlank c = false) (hcomma : c ≠ ',') :
    dropLastCommas dropping (cs ++ ds) = dropLastCommas dropping cs ++ dropLastCommas false ds := by
  induction cs generalizing dropping with
  | nil => simp at hlast
  | cons a cs ih =>
      cases cs with
      | nil =>
          obtain rfl : a = c := Option.some.inj hlast
          simp [dropLastCommas, hblank, hcomma]
      | cons b cs =>
          rw [List.getLast?_cons_cons] at hlast
          have hnext : ((b :: cs ++ ds).head?) = (b :: cs).head? := rfl
          rw [List.cons_append, dropLastCommas, dropLastCommas, hnext, head?_dropWhile_append ds hlast hblank,
            ih true hlast, ih false hlast]
          split
          · rfl
          split <;> rfl

theorem dropAfterOpening_append (opened : Bool) (ds : List Char) (hlast : cs.getLast? = some c)
    (hblank : isBlank c = false) :
    dropAfterOpening opened (cs ++ ds) =
      dropAfterOpening opened cs ++ dropAfterOpening (isOpening c) ds := by
  induction cs generalizing opened with
  | nil => simp at hlast
  | cons a cs ih =>
      cases cs with
      | nil =>
          obtain rfl : a = c := Option.some.inj hlast
          simp [dropAfterOpening, isOpening, hblank]
      | cons b cs =>
          rw [List.getLast?_cons_cons] at hlast
          rw [List.cons_append, dropAfterOpening, dropAfterOpening, ih _ hlast, ih _ hlast]
          split <;> rfl

theorem dropBeforeClosing_append (ds : List Char) (hlast : cs.getLast? = some c) (hblank : isBlank c = false) :
    dropBeforeClosing (cs ++ ds) = dropBeforeClosing cs ++ dropBeforeClosing ds := by
  induction cs with
  | nil => simp at hlast
  | cons a cs ih =>
      cases cs with
      | nil =>
          obtain rfl : a = c := Option.some.inj hlast
          simp [dropBeforeClosing, hblank]
      | cons b cs =>
          rw [List.getLast?_cons_cons] at hlast
          rw [List.cons_append, dropBeforeClosing, dropBeforeClosing, head?_dropWhile_append ds hlast hblank, ih hlast]
          split <;> rfl

-- The first and the last character stay if they are no blanks, the first also if it is no comma.

theorem dropLastCommas_cons (hcomma : c ≠ ',') (cs : List Char) :
    dropLastCommas false (c :: cs) = c :: dropLastCommas false cs := by
  simp [dropLastCommas, hcomma]

theorem dropLastCommas_true (hfirst : ∀ c, cs.head? = some c → isBlank c = false) :
    dropLastCommas true cs = dropLastCommas false cs := by
  cases cs with
  | nil => rfl
  | cons c cs => simp [dropLastCommas, hfirst c rfl]

theorem dropAfterOpening_cons (c : Char) (cs : List Char) :
    dropAfterOpening false (c :: cs) = c :: dropAfterOpening (isOpening c) cs := by
  simp [dropAfterOpening, isOpening]

theorem dropAfterOpening_eq (hfirst : ∀ c, cs.head? = some c → isBlank c = false) (opened : Bool) :
    dropAfterOpening opened cs = dropAfterOpening false cs := by
  cases cs with
  | nil => rfl
  | cons c cs => simp [dropAfterOpening, hfirst c rfl]

theorem dropBeforeClosing_cons (hblank : isBlank c = false) (cs : List Char) :
    dropBeforeClosing (c :: cs) = c :: dropBeforeClosing cs := by
  simp [dropBeforeClosing, hblank]

theorem getLast?_dropLastCommas (dropping : Bool) (hlast : cs.getLast? = some c) (hblank : isBlank c = false) :
    (dropLastCommas dropping cs).getLast? = some c := by
  obtain ⟨init, rfl⟩ := List.getLast?_eq_some_iff.mp hlast
  induction init generalizing dropping with
  | nil => simp [dropLastCommas, hblank]
  | cons a init ih =>
      rw [List.cons_append, dropLastCommas]
      split
      · exact ih true (by simp)
      split
      · exact ih true (by simp)
      · rw [List.getLast?_cons, ih false (by simp)]
        rfl

theorem getLast?_dropAfterOpening (opened : Bool) (hlast : cs.getLast? = some c) (hblank : isBlank c = false) :
    (dropAfterOpening opened cs).getLast? = some c := by
  obtain ⟨init, rfl⟩ := List.getLast?_eq_some_iff.mp hlast
  induction init generalizing opened with
  | nil => simp [dropAfterOpening, hblank]
  | cons a init ih =>
      rw [List.cons_append, dropAfterOpening]
      split
      · exact ih true (by simp)
      · rw [List.getLast?_cons, ih _ (by simp)]
        rfl

theorem getLast?_dropBeforeClosing (hlast : cs.getLast? = some c) (hblank : isBlank c = false) :
    (dropBeforeClosing cs).getLast? = some c := by
  obtain ⟨init, rfl⟩ := List.getLast?_eq_some_iff.mp hlast
  induction init with
  | nil => simp [dropBeforeClosing, hblank]
  | cons a init ih =>
      rw [List.cons_append, dropBeforeClosing]
      split
      · exact ih (by simp)
      · rw [List.getLast?_cons, ih (by simp)]
        rfl

-- Nothing is added or moved.

theorem dropLastCommas_sublist (dropping : Bool) (cs : List Char) : (dropLastCommas dropping cs).Sublist cs := by
  induction cs generalizing dropping with
  | nil => exact .slnil
  | cons c cs ih =>
      rw [dropLastCommas]
      split
      · exact (ih true).cons c
      split
      · exact (ih true).cons c
      · exact (ih false).cons_cons c

theorem dropAfterOpening_sublist (opened : Bool) (cs : List Char) : (dropAfterOpening opened cs).Sublist cs := by
  induction cs generalizing opened with
  | nil => exact .slnil
  | cons c cs ih =>
      rw [dropAfterOpening]
      split
      · exact (ih true).cons c
      · exact (ih _).cons_cons c

theorem dropBeforeClosing_sublist (cs : List Char) : (dropBeforeClosing cs).Sublist cs := by
  induction cs with
  | nil => exact .slnil
  | cons c cs ih =>
      rw [dropBeforeClosing]
      split
      · exact ih.cons c
      · exact ih.cons_cons c

-- A text that has nothing of what the passes look for.
structure Quiet (cs : List Char) : Prop where
  commas : ∀ blanks c, blanks ≠ [] → (∀ b ∈ blanks, isBlank b = true) → isCloser c = true →
    ¬(',' :: blanks ++ [c]) <:+: cs
  opening : ∀ o b, isOpening o = true → isBlank b = true → ¬[o, b] <:+: cs
  closing : ∀ b c, isBlank b = true → isClosing c = true → ¬[b, c] <:+: cs

theorem isBlank_of_isCloser (h : isCloser c = true) : isBlank c = false := by
  simp only [isCloser, Bool.or_eq_true, beq_iff_eq] at h
  rcases h with (rfl | rfl) | rfl <;> rfl

theorem isBlank_of_isClosing (h : isClosing c = true) : isBlank c = false := by
  simp only [isClosing, Bool.or_eq_true, beq_iff_eq] at h
  rcases h with (rfl | rfl) | rfl <;> rfl

-- What stands after the blanks at the start of a text.
theorem head?_dropWhile_eq_some_iff (hc : isBlank c = false) :
    (cs.dropWhile isBlank).head? = some c ↔ ∃ blanks rest, cs = blanks ++ c :: rest ∧ ∀ b ∈ blanks, isBlank b = true := by
  constructor
  · intro h
    obtain ⟨rest, hrest⟩ := List.head?_eq_some_iff.mp h
    refine ⟨cs.takeWhile isBlank, rest, ?_, fun b hb => List.mem_takeWhile_imp hb⟩
    rw [← hrest, List.takeWhile_append_dropWhile]
  · rintro ⟨blanks, rest, rfl, hblanks⟩
    rw [List.dropWhile_append_of_pos hblanks, List.dropWhile_cons_of_neg (by simp [hc]), List.head?_cons]

theorem ne_self_of_sublist {a : Char} {less : List Char} (h : less.Sublist cs) : less ≠ a :: cs := by
  rintro rfl
  have hlength := h.length_le
  rw [List.length_cons] at hlength
  omega

theorem comma_isPrefix_iff {a : Char} :
    (∃ blanks c, blanks ≠ [] ∧ (∀ b ∈ blanks, isBlank b = true) ∧ isCloser c = true ∧ (',' :: blanks ++ [c]) <+: a :: cs) ↔
      (a == ',' && cs.head?.any isBlank && (cs.dropWhile isBlank).head?.any isCloser) = true := by
  simp only [Bool.and_eq_true, beq_iff_eq, Option.any_eq_true, List.cons_append, List.cons_prefix_cons]
  constructor
  · rintro ⟨blanks, c, hne, hblanks, hc, rfl, rest, rfl⟩
    obtain ⟨b, blanks, rfl⟩ := List.exists_cons_of_ne_nil hne
    refine ⟨⟨rfl, b, rfl, hblanks b List.mem_cons_self⟩, c, ?_, hc⟩
    exact (head?_dropWhile_eq_some_iff (isBlank_of_isCloser hc)).mpr ⟨b :: blanks, rest, by simp, hblanks⟩
  · rintro ⟨⟨rfl, b, hb, hblank⟩, c, hhead, hc⟩
    obtain ⟨blanks, rest, rfl, hblanks⟩ := (head?_dropWhile_eq_some_iff (isBlank_of_isCloser hc)).mp hhead
    refine ⟨blanks, c, ?_, hblanks, hc, rfl, rest, by simp⟩
    rintro rfl
    obtain rfl : c = b := Option.some.inj hb
    rw [isBlank_of_isCloser hc] at hblank
    cases hblank

theorem dropLastCommas_eq_self_iff :
    dropLastCommas false cs = cs ↔ ∀ blanks c, blanks ≠ [] → (∀ b ∈ blanks, isBlank b = true) → isCloser c = true →
      ¬(',' :: blanks ++ [c]) <:+: cs := by
  induction cs with
  | nil => simp [dropLastCommas]
  | cons a cs ih =>
      rw [dropLastCommas]
      simp only [Bool.false_and, Bool.false_eq_true, if_false, List.infix_cons_iff, not_or]
      split
      · rename_i hcomma
        obtain ⟨blanks, c, hne, hblanks, hc, hstart⟩ := comma_isPrefix_iff.mpr hcomma
        refine iff_of_false (ne_self_of_sublist (dropLastCommas_sublist true cs)) ?_
        exact fun h => (h blanks c hne hblanks hc).1 hstart
      · rename_i hcomma
        rw [List.cons_inj_right, ih]
        constructor
        · intro h blanks c hne hblanks hc
          refine ⟨fun hstart => hcomma ?_, h blanks c hne hblanks hc⟩
          exact comma_isPrefix_iff.mp ⟨blanks, c, hne, hblanks, hc, hstart⟩
        · exact fun h blanks c hne hblanks hc => (h blanks c hne hblanks hc).2

theorem dropAfterOpening_eq_self_iff {opened : Bool} :
    dropAfterOpening opened cs = cs ↔ (opened = true → ∀ b, cs.head? = some b → isBlank b = false) ∧
      ∀ o b, isOpening o = true → isBlank b = true → ¬[o, b] <:+: cs := by
  induction cs generalizing opened with
  | nil => simp [dropAfterOpening]
  | cons a cs ih =>
      rw [dropAfterOpening]
      split
      · rename_i hopened
        rw [Bool.and_eq_true] at hopened
        refine iff_of_false (ne_self_of_sublist (dropAfterOpening_sublist true cs)) ?_
        rintro ⟨hfirst, _⟩
        have hblank := hfirst hopened.1 a rfl
        rw [hopened.2] at hblank
        cases hblank
      · rename_i hopened
        have hfirst : opened = true → ∀ b, (a :: cs).head? = some b → isBlank b = false := by
          rintro rfl b hb
          obtain rfl : a = b := Option.some.inj hb
          simpa using hopened
        have hpair : ∀ o b, [o, b] <+: a :: cs ↔ o = a ∧ cs.head? = some b := by
          intro o b
          rw [List.cons_prefix_cons, List.singleton_prefix_iff_head?_eq_some]
        simp only [List.cons_inj_right, ih, List.infix_cons_iff, not_or, hpair]
        constructor
        · rintro ⟨hnext, hrest⟩
          refine ⟨hfirst, fun o b ho hb => ⟨?_, hrest o b ho hb⟩⟩
          rintro ⟨rfl, hhead⟩
          have hblank := hnext ho b hhead
          rw [hb] at hblank
          cases hblank
        · rintro ⟨_, hall⟩
          refine ⟨fun ha b hb => ?_, fun o b ho hb => (hall o b ho hb).2⟩
          by_contra hblank
          exact (hall a b ha (by simpa using hblank)).1 ⟨rfl, hb⟩

theorem dropBeforeClosing_eq_self_iff :
    dropBeforeClosing cs = cs ↔ ∀ b c, isBlank b = true → isClosing c = true → ¬[b, c] <:+: cs := by
  induction cs with
  | nil => simp [dropBeforeClosing]
  | cons a cs ih =>
      rw [dropBeforeClosing]
      split
      · rename_i hclosing
        simp only [Bool.and_eq_true, Option.any_eq_true] at hclosing
        obtain ⟨ha, c, hhead, hc⟩ := hclosing
        obtain ⟨blanks, rest, rfl, hblanks⟩ := (head?_dropWhile_eq_some_iff (isBlank_of_isClosing hc)).mp hhead
        refine iff_of_false (ne_self_of_sublist (dropBeforeClosing_sublist _)) fun hall => ?_
        -- The last of the blanks stands right before the bracket.
        have hlast : isBlank ((a :: blanks).getLast (List.cons_ne_nil a blanks)) = true := by
          have hall : ∀ b ∈ a :: blanks, isBlank b = true := List.forall_mem_cons.mpr ⟨ha, hblanks⟩
          exact hall _ (List.getLast_mem _)
        refine hall _ c hlast hc ⟨(a :: blanks).dropLast, rest, ?_⟩
        calc (a :: blanks).dropLast ++ [(a :: blanks).getLast (List.cons_ne_nil a blanks), c] ++ rest
            = ((a :: blanks).dropLast ++ [(a :: blanks).getLast (List.cons_ne_nil a blanks)]) ++ c :: rest := by simp
          _ = a :: (blanks ++ c :: rest) := by rw [List.dropLast_append_getLast, List.cons_append]
      · rename_i hclosing
        simp only [Bool.and_eq_true, Option.any_eq_true, not_and] at hclosing
        rw [List.cons_inj_right, ih]
        simp only [List.infix_cons_iff, not_or]
        constructor
        · refine fun h b c hb hc => ⟨fun hpair => ?_, h b c hb hc⟩
          obtain ⟨rfl, rest, rfl⟩ := List.cons_prefix_cons.mp hpair
          refine hclosing hb ⟨c, ?_, hc⟩
          exact (head?_dropWhile_eq_some_iff (isBlank_of_isClosing hc)).mpr ⟨[], rest, rfl, by simp⟩
        · exact fun h b c hb hc => (h b c hb hc).2

-- All passes one after the other.
def settled (cs : List Char) : List Char :=
  dropBeforeClosing (dropAfterOpening false (dropLastCommas false cs))

-- They leave a text as it is exactly if it has nothing of what they look for.
theorem settled_eq_self_iff : settled cs = cs ↔ Quiet cs := by
  constructor
  · intro h
    have hcommas := dropLastCommas_sublist false cs
    have hopening := dropAfterOpening_sublist false (dropLastCommas false cs)
    have hclosing := dropBeforeClosing_sublist (dropAfterOpening false (dropLastCommas false cs))
    rw [settled] at h
    rw [h] at hclosing
    -- Each pass loses characters or none, and in the end none is lost.
    have hfirst : dropLastCommas false cs = cs := hcommas.eq_of_length_le (hclosing.trans hopening).length_le
    rw [hfirst] at h hopening hclosing
    have hsecond : dropAfterOpening false cs = cs := hopening.eq_of_length_le hclosing.length_le
    rw [hsecond] at h
    exact ⟨dropLastCommas_eq_self_iff.mp hfirst, (dropAfterOpening_eq_self_iff.mp hsecond).2,
      dropBeforeClosing_eq_self_iff.mp h⟩
  · rintro ⟨hcommas, hopening, hclosing⟩
    rw [settled, dropLastCommas_eq_self_iff.mpr hcommas, dropAfterOpening_eq_self_iff.mpr ⟨by simp, hopening⟩,
      dropBeforeClosing_eq_self_iff.mpr hclosing]

theorem quiet_of_no_blanks (h : ∀ c ∈ cs, isBlank c = false) : Quiet cs := by
  have hnone : ∀ {b : Char} {part : List Char}, isBlank b = true → b ∈ part → ¬part <:+: cs := by
    intro b part hb hmem hpart
    have hblank := h b (hpart.subset hmem)
    rw [hb] at hblank
    cases hblank
  refine ⟨fun blanks c hne hblanks _ => ?_, fun o b _ hb => hnone hb (by simp), fun b c hb _ => hnone hb (by simp)⟩
  obtain ⟨b, blanks, rfl⟩ := List.exists_cons_of_ne_nil hne
  exact hnone (hblanks b List.mem_cons_self) (by simp)

end CrateDocs.Syntax.Signature
