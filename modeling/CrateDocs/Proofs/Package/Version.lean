import CrateDocs.Package.Version
import CrateDocs.Proofs.Result
import Mathlib.Data.List.SplitBy

namespace CrateDocs.Version

-- Keys are compared by a total preorder.

instance : Ord Part := ⟨Part.compare⟩

instance : Std.OrientedOrd Part where
  eq_swap {a b} := by
    cases a <;> cases b
    case number.number m n => exact Std.OrientedOrd.eq_swap (a := m) (b := n)
    case word.word s t => exact Std.OrientedOrd.eq_swap (a := s) (b := t)
    all_goals rfl

instance : Std.TransOrd Part where
  isLE_trans {a b c} hab hbc := by
    cases a <;> cases b <;> cases c
    case number.number.number l m n => exact Std.TransOrd.isLE_trans (a := l) (b := m) (c := n) hab hbc
    case word.word.word s t u => exact Std.TransOrd.isLE_trans (a := s) (b := t) (c := u) hab hbc
    case number.number.word | number.word.word => rfl
    -- What is left has a word before a number.
    case word.number.number | word.number.word => cases hab
    case number.word.number | word.word.number => cases hbc

theorem compareParts_eq (as bs : List Part) : compareParts as bs = Ord.compare as bs := by
  induction as generalizing bs with
  | nil => cases bs <;> rfl
  | cons a as ih =>
      cases bs with
      | nil => rfl
      | cons b bs =>
          rw [compareParts, ih]
          exact List.compareLex_cons_cons.symm

theorem Key.compare_eq :
    Key.compare = compareLex (compareOn (·.release)) (compareLex (compareOn (·.isRelease)) (compareOn (·.pre))) := by
  funext a b
  simp only [Key.compare, compareParts_eq]
  rfl

instance : Std.TransCmp Key.compare := by
  rw [Key.compare_eq]
  infer_instance

-- A version has a key if none of its numbers is too long to be read.

-- Whether no run of digits in a version is longer than a number that is read.
def ShortRuns (version : String) : Prop :=
  ∀ run, run <:+: version.toList → (∀ c ∈ run, Text.isDigit c = true) → run.length ≤ Text.digitLimit

theorem infix_of_mem_tokens {cs token : List Char} (h : token ∈ tokens cs) : token <:+: cs := by
  have hrun := List.mem_of_mem_filter h
  rw [← List.flatten_splitBy (fun a b => classOf a == classOf b) cs]
  exact List.infix_of_mem_flatten hrun

theorem exists_part {token : List Char}
    (h : (∀ c ∈ token, Text.isDigit c = true) → token.length ≤ Text.digitLimit) :
    ∃ p, part token = .ok p := by
  rw [part]
  split
  · rename_i hdigits
    have hshort := h (List.all_eq_true.mp hdigits)
    rw [if_neg (Nat.not_lt.mpr hshort)]
    exact ⟨_, rfl⟩
  · exact ⟨_, rfl⟩

theorem exists_parts {version : String} (h : ShortRuns version) {cs : List Char}
    (hcs : cs <:+: version.toList) : ∃ found, parts cs = .ok found := by
  apply (Result.mapM_isOk_iff part _).mpr
  intro token htoken
  exact exists_part (h token ((infix_of_mem_tokens htoken).trans hcs))

theorem cutFirst_within (mark : Char) (cs : List Char) :
    (Text.cutFirst mark cs).1 <:+: cs ∧ (Text.cutFirst mark cs).2 <:+: cs :=
  ⟨(List.takeWhile_prefix _).isInfix, ((List.drop_suffix 1 _).trans (List.dropWhile_suffix _)).isInfix⟩

theorem exists_key {version : String} (h : ShortRuns version) : ∃ k, key version = .ok k := by
  have hcounted := (cutFirst_within '+' version.toList).1
  have hsides := cutFirst_within '-' (Text.cutFirst '+' version.toList).1
  obtain ⟨release, hrelease⟩ := exists_parts h (hsides.1.trans hcounted)
  obtain ⟨pre, hpre⟩ := exists_parts h (hsides.2.trans hcounted)
  refine ⟨⟨release, (Text.cutFirst '-' (Text.cutFirst '+' version.toList).1).2.isEmpty, pre⟩, ?_⟩
  simp only [key, hrelease, hpre]
  rfl

end CrateDocs.Version
