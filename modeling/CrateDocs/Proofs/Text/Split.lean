import CrateDocs.Text.Blank
import CrateDocs.Text.Pieces
import Mathlib.Data.List.Basic

namespace CrateDocs.Text

-- Splitting a text at a separator. A piece that holds no character of the kind that the separator
-- starts with goes through whole.

variable {mark : Char}

theorem splitFrom_of_notMem (more cs current : List Char) (h : mark ∉ cs) :
    splitFrom (mark :: more) 0 current cs = [current.reverse ++ cs] := by
  induction cs generalizing current with
  | nil => simp [splitFrom]
  | cons c cs ih =>
      rw [List.mem_cons, not_or] at h
      have hhead : (mark :: more).isPrefixOf (c :: cs) = false := by simp [List.isPrefixOf, h.1]
      rw [splitFrom, hhead]
      simp [ih (c :: current) h.2]

theorem splitFrom_length (sep current passed rest : List Char) :
    splitFrom sep passed.length current (passed ++ rest) = splitFrom sep 0 current rest := by
  induction passed with
  | nil => rfl
  | cons c passed ih => rw [List.length_cons, List.cons_append, splitFrom, ih]

theorem splitFrom_append (more rest cs current : List Char) (h : mark ∉ cs) :
    splitFrom (mark :: more) 0 current (cs ++ (mark :: more) ++ rest) =
      (current.reverse ++ cs) :: splitFrom (mark :: more) 0 [] rest := by
  induction cs generalizing current with
  | nil =>
      have hhead : (mark :: more).isPrefixOf (mark :: (more ++ rest)) = true := by
        rw [List.isPrefixOf_iff_prefix]
        exact List.prefix_append (mark :: more) rest
      have hskip : (mark :: more).length - 1 = more.length := rfl
      rw [List.nil_append, List.cons_append, splitFrom, if_pos hhead, hskip, splitFrom_length,
        List.append_nil]
  | cons c cs ih =>
      rw [List.mem_cons, not_or] at h
      have hhead : (mark :: more).isPrefixOf (c :: (cs ++ (mark :: more) ++ rest)) = false := by
        simp [List.isPrefixOf, h.1]
      rw [List.cons_append, List.cons_append, splitFrom, hhead, if_neg Bool.false_ne_true, ih _ h.2,
        List.reverse_cons, List.append_assoc, List.singleton_append]

theorem splitFrom_ne_nil (sep : List Char) (skip : Nat) (current cs : List Char) :
    splitFrom sep skip current cs ≠ [] := by
  induction cs generalizing skip current with
  | nil => cases skip <;> exact List.cons_ne_nil _ _
  | cons c cs ih =>
      cases skip with
      | zero =>
          rw [splitFrom]
          split
          · exact List.cons_ne_nil _ _
          · exact ih 0 _
      | succ skip => exact ih skip current

-- Splitting undoes joining.
theorem split_intercalate {sep : String} {more : List Char} (hsep : sep.toList = mark :: more) {pieces : List String}
    (hne : pieces ≠ []) (h : ∀ piece ∈ pieces, mark ∉ piece.toList) :
    split sep (sep.intercalate pieces) = pieces := by
  induction pieces with
  | nil => exact absurd rfl hne
  | cons piece pieces ih =>
      rw [List.forall_mem_cons] at h
      cases pieces with
      | nil =>
          have hwhole := splitFrom_of_notMem more piece.toList [] h.1
          simp [split, hsep, hwhole]
      | cons next pieces =>
          have hrest := ih (List.cons_ne_nil next pieces) h.2
          have hfirst := splitFrom_append more (sep.intercalate (next :: pieces)).toList piece.toList [] h.1
          rw [split, hsep] at hrest
          rw [split, String.intercalate_cons_cons, String.toList_append, String.toList_append, hsep, hfirst,
            List.map_cons, hrest, List.reverse_nil, List.nil_append, String.ofList_toList]

theorem startsWith_iff (mark s : String) : startsWith mark s = true ↔ ∃ rest, s.toList = mark.toList ++ rest := by
  rw [startsWith, List.isPrefixOf_iff_prefix]
  exact exists_congr fun rest => eq_comm

-- A text with no blank at either end has none to lose.
theorem trimBlanks_of_ends {s : String} (hfirst : ∀ c, s.toList.head? = some c → isBlank c = false)
    (hlast : ∀ c, s.toList.getLast? = some c → isBlank c = false) : trimBlanks s = s := by
  have hstart : s.toList.dropWhile isBlank = s.toList := by
    cases hs : s.toList with
    | nil => rfl
    | cons c cs =>
        have hc : isBlank c = false := hfirst c (by rw [hs, List.head?_cons])
        simp [hc]
  have hend : s.toList.reverse.dropWhile isBlank = s.toList.reverse := by
    cases hs : s.toList.reverse with
    | nil => rfl
    | cons c cs =>
        have hc : isBlank c = false := hlast c (by rw [← List.head?_reverse, hs, List.head?_cons])
        simp [hc]
  rw [trimBlanks, trimWhile, dropEndWhile, hstart, hend, List.reverse_reverse, String.ofList_toList]

end CrateDocs.Text
