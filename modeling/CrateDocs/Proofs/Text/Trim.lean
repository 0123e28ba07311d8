import CrateDocs.Text.Blank
import Mathlib.Data.List.TakeWhile

namespace CrateDocs.Text

variable {p : Char → Bool} {cs inner : List Char}

-- A text with characters of one kind around another that neither starts nor ends with any of them.
structure Framed (p : Char → Bool) (cs inner : List Char) : Prop where
  around : ∃ before after, cs = before ++ inner ++ after ∧ (∀ c ∈ before, p c = true) ∧ ∀ c ∈ after, p c = true
  first : ∀ c, inner.head? = some c → p c = false
  last : ∀ c, inner.getLast? = some c → p c = false

theorem head?_dropWhile_not {c : Char} (h : (cs.dropWhile p).head? = some c) : p c = false := by
  have hnot := List.head?_dropWhile_not p cs
  rw [h] at hnot
  simpa using hnot

theorem dropWhile_of_head (h : ∀ c, cs.head? = some c → p c = false) : cs.dropWhile p = cs := by
  cases cs with
  | nil => rfl
  | cons c cs =>
      have hc : p c = false := h c List.head?_cons
      simp [hc]

theorem framed_trimWhile (p : Char → Bool) (cs : List Char) : Framed p cs (trimWhile p cs) := by
  set rest := cs.dropWhile p with hrest
  set back := rest.reverse.dropWhile p with hback
  have htrim : trimWhile p cs = back.reverse := rfl
  have hsplit : rest = back.reverse ++ (rest.reverse.takeWhile p).reverse := by
    rw [← List.reverse_append, List.takeWhile_append_dropWhile, List.reverse_reverse]
  rw [htrim]
  refine ⟨⟨cs.takeWhile p, (rest.reverse.takeWhile p).reverse, ?_, ?_, ?_⟩, ?_, ?_⟩
  · rw [List.append_assoc, ← hsplit, hrest, List.takeWhile_append_dropWhile]
  · intro c hc
    exact List.mem_takeWhile_imp hc
  · intro c hc
    exact List.mem_takeWhile_imp (List.mem_reverse.mp hc)
  · -- What is left starts as the text does once the front is gone.
    intro c hc
    have hfirst : (cs.dropWhile p).head? = some c := by
      rw [← hrest, hsplit, List.head?_append, hc]
      rfl
    exact head?_dropWhile_not hfirst
  · intro c hc
    rw [List.getLast?_reverse] at hc
    exact head?_dropWhile_not hc

theorem Framed.trimWhile_eq (h : Framed p cs inner) : trimWhile p cs = inner := by
  obtain ⟨⟨before, after, rfl, hbefore, hafter⟩, hfirst, hlast⟩ := h
  rw [trimWhile, dropEndWhile, List.append_assoc, List.dropWhile_append_of_pos hbefore]
  have hafter' : ∀ c ∈ after.reverse, p c = true := by
    intro c hc
    exact hafter c (List.mem_reverse.mp hc)
  cases inner with
  | nil =>
      have hnone : after.dropWhile p = [] := List.dropWhile_eq_nil_iff.mpr hafter
      simp [hnone]
  | cons c inner =>
      have hfront : ((c :: inner) ++ after).dropWhile p = (c :: inner) ++ after := dropWhile_of_head hfirst
      have hback : (c :: inner).reverse.dropWhile p = (c :: inner).reverse := by
        apply dropWhile_of_head
        intro d hd
        rw [List.head?_reverse] at hd
        exact hlast d hd
      rw [hfront, List.reverse_append, List.dropWhile_append_of_pos hafter', hback, List.reverse_reverse]

-- Trimming takes away all that it can at either end, and nothing between.
theorem trimWhile_eq_iff : trimWhile p cs = inner ↔ Framed p cs inner := by
  constructor
  · rintro rfl
    exact framed_trimWhile p cs
  · exact Framed.trimWhile_eq

-- Trimming one end only.

theorem dropEndWhile_eq_nil_iff : dropEndWhile p cs = [] ↔ ∀ c ∈ cs, p c = true := by
  rw [dropEndWhile, List.reverse_eq_nil_iff, List.dropWhile_eq_nil_iff]
  simp only [List.mem_reverse]

theorem dropEndWhile_isPrefix (p : Char → Bool) (cs : List Char) : dropEndWhile p cs <+: cs := by
  have h := List.reverse_prefix.mpr (List.dropWhile_suffix p (l := cs.reverse))
  rwa [List.reverse_reverse] at h

theorem dropEndWhile_append_ending (p : Char → Bool) (cs : List Char) :
    ∃ ending, dropEndWhile p cs ++ ending = cs ∧ ∀ c ∈ ending, p c = true := by
  refine ⟨(cs.reverse.takeWhile p).reverse, ?_, fun c hc => List.mem_takeWhile_imp (List.mem_reverse.mp hc)⟩
  rw [dropEndWhile, ← List.reverse_append, List.takeWhile_append_dropWhile, List.reverse_reverse]

theorem getLast?_dropEndWhile_not {c : Char} (h : (dropEndWhile p cs).getLast? = some c) : p c = false := by
  rw [dropEndWhile, List.getLast?_reverse] at h
  exact head?_dropWhile_not h

theorem dropEndWhile_append_of_pos {ds : List Char} (h : ∀ c ∈ ds, p c = true) :
    dropEndWhile p (cs ++ ds) = dropEndWhile p cs := by
  rw [dropEndWhile, dropEndWhile, List.reverse_append, List.dropWhile_append_of_pos]
  intro c hc
  exact h c (List.mem_reverse.mp hc)

theorem dropEndWhile_of_last (h : ∀ c, cs.getLast? = some c → p c = false) : dropEndWhile p cs = cs := by
  rw [dropEndWhile, dropWhile_of_head, List.reverse_reverse]
  intro c hc
  rw [List.head?_reverse] at hc
  exact h c hc

theorem dropEndWhile_append_of_ne_nil {ds : List Char} (h : dropEndWhile p ds ≠ []) :
    dropEndWhile p (cs ++ ds) = cs ++ dropEndWhile p ds := by
  rw [dropEndWhile, List.reverse_ne_nil_iff] at h
  rw [dropEndWhile, dropEndWhile, List.reverse_append, List.dropWhile_append, if_neg (by simpa using h),
    List.reverse_append, List.reverse_reverse]

end CrateDocs.Text
