import CrateDocs.Proofs.Crate.Declared
import Mathlib.Data.List.Basic

namespace CrateDocs.Syntax

-- An error that is not part of another one.
def Site.Outermost (site : Site) : Prop :=
  (site.node.kind = "ERROR" ∨ site.node.missing = true) ∧
    ∀ n ∈ site.above, n.kind ≠ "ERROR" ∧ n.missing = false

instance (site : Site) : Decidable site.Outermost :=
  inferInstanceAs (Decidable (_ ∧ _))

-- The errors that a walk through a whole tree comes to first. It asks of no node whether there is an error
-- below it.
mutual
def firstErrors : Node → List Node
  | ⟨kind, start, stop, field, named, missing, children⟩ =>
    let n : Node := ⟨kind, start, stop, field, named, missing, children⟩
    if n.isError then [n] else firstErrorsIn children
def firstErrorsIn : List Node → List Node
  | [] => []
  | n :: rest => firstErrors n ++ firstErrorsIn rest
end

theorem firstErrors_eq (n : Node) : firstErrors n = if n.isError then [n] else firstErrorsIn n.children := by
  cases n
  rw [firstErrors]

theorem firstErrorsIn_append (ns ms : List Node) :
    firstErrorsIn (ns ++ ms) = firstErrorsIn ns ++ firstErrorsIn ms := by
  induction ns with
  | nil => rfl
  | cons n ns ih => rw [List.cons_append, firstErrorsIn, firstErrorsIn, ih, List.append_assoc]

theorem Node.isError_eq_true_iff (n : Node) : n.isError = true ↔ n.kind = "ERROR" ∨ n.missing = true := by
  rw [isError, Bool.or_eq_true, beq_iff_eq, errorKind]

theorem Node.isError_eq_false_iff (n : Node) : n.isError = false ↔ n.kind ≠ "ERROR" ∧ n.missing = false := by
  rw [← Bool.not_eq_true, isError_eq_true_iff, not_or, Bool.not_eq_true]

theorem Node.hasError_eq (n : Node) : n.hasError = (n.isError || anyHasError n.children) := by
  cases n
  rw [hasError, isError]

-- Where there is no error, the walk comes to none, so nothing is lost if it is not made.
mutual
theorem firstErrors_eq_nil_iff (n : Node) : firstErrors n = [] ↔ n.hasError = false := by
  cases n with
  | mk kind start stop field named missing children =>
      rw [firstErrors_eq, Node.hasError_eq, Bool.or_eq_false_iff, ← firstErrorsIn_eq_nil_iff children]
      cases Node.isError ⟨kind, start, stop, field, named, missing, children⟩ with
      | false => simp
      | true => simp
theorem firstErrorsIn_eq_nil_iff (ns : List Node) : firstErrorsIn ns = [] ↔ Node.anyHasError ns = false := by
  cases ns with
  | nil => simp [firstErrorsIn, Node.anyHasError]
  | cons n ns =>
      rw [firstErrorsIn, Node.anyHasError, List.append_eq_nil_iff, Bool.or_eq_false_iff, firstErrors_eq_nil_iff n,
        firstErrorsIn_eq_nil_iff ns]
end

-- The search adds what the walk comes to, in the same order, whatever is still to be looked at.
theorem searchErrors_eq (s : Source) (nodes : List Node) (found : List Diagnostic) :
    s.searchErrors nodes found = found ++ (firstErrorsIn nodes).map s.errorAt := by
  fun_induction Source.searchErrors s nodes found with
  | case1 found => rw [firstErrorsIn, List.map_nil, List.append_nil]
  | case2 found n rest herror ih =>
      rw [ih, firstErrorsIn, firstErrors_eq, if_pos herror, List.append_assoc, List.map_append, List.map_singleton]
  | case3 found n rest herror hhas ih =>
      rw [ih, firstErrorsIn_append, firstErrorsIn, firstErrors_eq, if_neg herror]
  | case4 found n rest herror hhas ih =>
      have hnone := (firstErrors_eq_nil_iff n).mpr (Bool.not_eq_true _ ▸ hhas)
      rw [ih, firstErrorsIn, hnone, List.nil_append]

theorem syntaxErrors_eq (s : Source) (root : Node) : s.syntaxErrors root = (firstErrors root).map s.errorAt := by
  rw [Source.syntaxErrors]
  split
  · rw [searchErrors_eq, firstErrorsIn, firstErrorsIn, List.append_nil, List.nil_append]
  · rename_i hhas
    rw [(firstErrors_eq_nil_iff root).mpr (Bool.not_eq_true _ ▸ hhas), List.map_nil]

theorem syntaxErrors_eq_nil_iff (s : Source) (n : Node) : s.syntaxErrors n = [] ↔ n.hasError = false := by
  rw [syntaxErrors_eq, List.map_eq_nil_iff, firstErrors_eq_nil_iff]

-- A tree has an error if one of its nodes is one.
mutual
theorem hasError_iff (n : Node) (way : List Nat) (above : List Node) :
    n.hasError = true ↔ ∃ site ∈ sites way above n, site.node.isError = true := by
  cases n with
  | mk kind start stop field named missing children =>
      rw [Node.hasError, sites, List.exists_mem_cons_iff, ← anyHasError_iff children, Bool.or_eq_true, Node.isError]
theorem anyHasError_iff (ns : List Node) (way : List Nat) (index : Nat) (above : List Node) :
    Node.anyHasError ns = true ↔ ∃ site ∈ sitesIn way index above ns, site.node.isError = true := by
  cases ns with
  | nil => simp [Node.anyHasError, sitesIn]
  | cons n ns =>
      rw [Node.anyHasError, sitesIn, Bool.or_eq_true, hasError_iff n (way ++ [index]) above,
        anyHasError_iff ns way (index + 1) above]
      simp only [List.mem_append, or_and_right, exists_or]
end

-- Below an error no other one is outermost.

mutual
theorem above_subset_of_mem_sites (n : Node) {way : List Nat} {above : List Node} {site : Site}
    (h : site ∈ sites way above n) : above ⊆ site.above := by
  cases n with
  | mk kind start stop field named missing children =>
      rw [sites, List.mem_cons] at h
      cases h with
      | inl h => rw [h]; exact List.Subset.refl above
      | inr h => exact List.Subset.trans (List.subset_append_left above _) (above_subset_of_mem_sitesIn children h)
theorem above_subset_of_mem_sitesIn (ns : List Node) {way : List Nat} {index : Nat} {above : List Node} {site : Site}
    (h : site ∈ sitesIn way index above ns) : above ⊆ site.above := by
  cases ns with
  | nil => cases h
  | cons n ns =>
      rw [sitesIn, List.mem_append] at h
      cases h with
      | inl h => exact above_subset_of_mem_sites n h
      | inr h => exact above_subset_of_mem_sitesIn ns h
end

theorem filter_outermost_below_error {ns : List Node} {way : List Nat} {index : Nat} {above : List Node} {n : Node}
    (hn : n ∈ above) (herror : n.isError = true) :
    (sitesIn way index above ns).filter (fun site => site.Outermost) = [] := by
  rw [List.filter_eq_nil_iff]
  intro site hsite houtermost
  have hclean := (of_decide_eq_true houtermost).2 n (above_subset_of_mem_sitesIn ns hsite hn)
  rw [(Node.isError_eq_false_iff n).mpr hclean] at herror
  cases herror

theorem outermost_iff {way : List Nat} {above : List Node} (hclean : ∀ m ∈ above, m.isError = false) (n : Node) :
    Site.Outermost ⟨way, above, n⟩ ↔ n.isError = true := by
  rw [Node.isError_eq_true_iff]
  exact and_iff_left fun m hm => (Node.isError_eq_false_iff m).mp (hclean m hm)

-- What is outermost in a tree: its root, or else what is outermost below the root.
theorem filter_outermost_sites {way : List Nat} {above : List Node} (hclean : ∀ m ∈ above, m.isError = false)
    (n : Node) :
    ((sites way above n).filter fun site => site.Outermost) =
      if n.isError then [⟨way, above, n⟩]
      else (sitesIn way 0 (above ++ [n]) n.children).filter fun site => site.Outermost := by
  have houter : decide (Site.Outermost ⟨way, above, n⟩) = n.isError := by
    rw [Bool.eq_iff_iff, decide_eq_true_eq, outermost_iff hclean]
  rw [sites_eq, List.filter_cons, houter]
  cases herror : n.isError with
  | true => rw [filter_outermost_below_error List.mem_concat_self herror]
  | false => rfl

-- Below nodes that are no errors, the walk comes to the outermost errors.
mutual
theorem filter_outermost (n : Node) (way : List Nat) (above : List Node) (hclean : ∀ m ∈ above, m.isError = false) :
    ((sites way above n).filter fun site => site.Outermost).map (·.node) = firstErrors n := by
  rw [filter_outermost_sites hclean, firstErrors_eq]
  split
  · rfl
  · rename_i herror
    cases n with
    | mk kind start stop field named missing children =>
        refine filter_outermost_in children way 0 _ fun m hm => ?_
        rcases List.mem_append.mp hm with hm | hm
        · exact hclean m hm
        · rw [List.mem_singleton.mp hm]
          exact Bool.not_eq_true _ ▸ herror
theorem filter_outermost_in (ns : List Node) (way : List Nat) (index : Nat) (above : List Node)
    (hclean : ∀ m ∈ above, m.isError = false) :
    ((sitesIn way index above ns).filter fun site => site.Outermost).map (·.node) = firstErrorsIn ns := by
  cases ns with
  | nil => rfl
  | cons n ns =>
      rw [sitesIn, List.filter_append, List.map_append, filter_outermost n (way ++ [index]) above hclean,
        filter_outermost_in ns way (index + 1) above hclean, firstErrorsIn]
end

-- The search finds every error that is not part of another, once and in the order of the tree, as a walk does
-- that leaves nothing out. It finds none exactly if there is none.
theorem syntaxErrors_outermost (s : Source) (root : Node) :
    s.syntaxErrors root =
        ((sites [] [] root).filter fun site => site.Outermost).map (fun site => s.errorAt site.node) ∧
      s.syntaxErrors root = (firstErrors root).map s.errorAt ∧
      (s.syntaxErrors root = [] ↔
        ∀ site ∈ sites [] [] root, site.node.kind ≠ "ERROR" ∧ site.node.missing = false) := by
  refine ⟨?_, syntaxErrors_eq s root, ?_⟩
  · have hwalk := filter_outermost root [] [] (fun m hm => absurd hm List.not_mem_nil)
    rw [syntaxErrors_eq, ← hwalk, List.map_map]
    rfl
  · rw [syntaxErrors_eq_nil_iff, ← Bool.not_eq_true, hasError_iff root [] [], not_exists]
    refine forall_congr' fun site => ?_
    rw [not_and, Bool.not_eq_true, Node.isError_eq_false_iff]

end CrateDocs.Syntax
