import Mathlib.Data.List.Forall2

namespace CrateDocs.Result

variable {ε α β : Type} {each : α → Except ε β}

theorem map_eq_ok_iff {x : Except ε α} {f : α → β} {b : β} : x.map f = .ok b ↔ ∃ a, x = .ok a ∧ f a = b := by
  cases x <;> simp [Except.map]

theorem map_eq_error_iff {x : Except ε α} {f : α → β} {e : ε} : x.map f = .error e ↔ x = .error e := by
  cases x <;> simp [Except.map]

-- Doing something with every item of a list ends well if it does with each.

theorem mapM_eq_ok_iff {l : List α} {found : List β} :
    l.mapM each = .ok found ↔ List.Forall₂ (fun a b => each a = .ok b) l found := by
  induction l generalizing found with
  | nil =>
      rw [List.forall₂_nil_left_iff, List.mapM_nil]
      exact ⟨fun h => (Except.ok.inj h).symm, fun h => by rw [h]; rfl⟩
  | cons a l ih =>
      rw [List.forall₂_cons_left_iff, List.mapM_cons]
      constructor
      · intro h
        cases hhead : each a with
        | error e => rw [hhead] at h; cases h
        | ok b =>
            cases htail : l.mapM each with
            | error e => rw [hhead, htail] at h; cases h
            | ok bs =>
                rw [hhead, htail] at h
                exact ⟨b, bs, rfl, ih.mp htail, (Except.ok.inj h).symm⟩
      · rintro ⟨b, bs, hhead, htail, rfl⟩
        rw [hhead, ih.mpr htail]
        rfl

-- Where each result tells the item that it comes from, all results tell the list.
theorem mapM_eq_ok_iff_map {back : β → α} (h : ∀ a b, each a = .ok b ↔ a = back b) {l : List α} {found : List β} :
    l.mapM each = .ok found ↔ l = found.map back := by
  simp only [mapM_eq_ok_iff, h]
  rw [← List.forall₂_map_right_iff, List.forall₂_eq_eq_eq]

theorem mapM_isOk_iff (each : α → Except ε β) (l : List α) :
    (∃ found, l.mapM each = .ok found) ↔ ∀ a ∈ l, ∃ b, each a = .ok b := by
  simp only [mapM_eq_ok_iff]
  induction l with
  | nil => exact ⟨fun _ => nofun, fun _ => ⟨[], .nil⟩⟩
  | cons a l ih =>
      rw [List.forall_mem_cons, ← ih]
      constructor
      · rintro ⟨_, hall⟩
        obtain ⟨b, bs, hhead, htail, _⟩ := List.forall₂_cons_left_iff.mp hall
        exact ⟨⟨b, hhead⟩, bs, htail⟩
      · rintro ⟨⟨b, hhead⟩, bs, htail⟩
        exact ⟨b :: bs, .cons hhead htail⟩

-- The first item of a list that something holds of.
def First (p : α → Prop) (l : List α) (a : α) : Prop :=
  ∃ before after, l = before ++ a :: after ∧ p a ∧ ∀ b ∈ before, ¬p b

section first

variable {p : α → Prop} {l : List α} {a b : α}

theorem first_cons : First p (a :: l) b ↔ p a ∧ b = a ∨ ¬p a ∧ First p l b := by
  constructor
  · rintro ⟨before, after, hl, hb, hbefore⟩
    cases before with
    | nil =>
        obtain ⟨rfl, rfl⟩ := List.cons.inj hl
        exact Or.inl ⟨hb, rfl⟩
    | cons c before =>
        obtain ⟨rfl, rfl⟩ := List.cons.inj hl
        rw [List.forall_mem_cons] at hbefore
        exact Or.inr ⟨hbefore.1, before, after, rfl, hb, hbefore.2⟩
  · rintro (⟨ha, rfl⟩ | ⟨ha, before, after, rfl, hb, hbefore⟩)
    · exact ⟨[], l, rfl, ha, by simp⟩
    · exact ⟨a :: before, after, rfl, hb, List.forall_mem_cons.mpr ⟨ha, hbefore⟩⟩

theorem not_first_nil : ¬First p [] a := by
  rintro ⟨before, after, hl, _⟩
  simp at hl

theorem First.mem (h : First p l a) : a ∈ l := by
  obtain ⟨before, after, rfl, _⟩ := h
  simp

theorem First.holds (h : First p l a) : p a := by
  obtain ⟨_, _, _, ha, _⟩ := h
  exact ha

theorem first_congr {q : α → Prop} (h : ∀ b ∈ l, p b ↔ q b) : First p l a ↔ First q l a := by
  induction l with
  | nil => simp only [not_first_nil]
  | cons c l ih =>
      rw [List.forall_mem_cons] at h
      rw [first_cons, first_cons, h.1, ih h.2]

theorem exists_first_iff : (∃ a, First p l a) ↔ ∃ a ∈ l, p a := by
  constructor
  · rintro ⟨a, ha⟩
    exact ⟨a, ha.mem, ha.holds⟩
  · induction l with
    | nil => simp
    | cons c l ih =>
        rintro ⟨a, ha, hp⟩
        by_cases hc : p c
        · exact ⟨c, first_cons.mpr (Or.inl ⟨hc, rfl⟩)⟩
        · have hne : a ≠ c := by
            rintro rfl
            exact hc hp
          obtain ⟨b, hb⟩ := ih ⟨a, List.mem_of_ne_of_mem hne ha, hp⟩
          exact ⟨b, first_cons.mpr (Or.inr ⟨hc, hb⟩)⟩

theorem find?_eq_some_iff_first {test : α → Bool} : l.find? test = some a ↔ First (fun b => test b = true) l a := by
  rw [List.find?_eq_some_iff_append]
  constructor
  · rintro ⟨ha, before, after, rfl, hbefore⟩
    exact ⟨before, after, rfl, ha, by simpa using hbefore⟩
  · rintro ⟨before, after, rfl, ha, hbefore⟩
    exact ⟨ha, before, after, rfl, by simpa using hbefore⟩

-- The first failure ends the work on a list, whether its results are gathered or passed on.

theorem mapM_eq_error_iff {e : ε} :
    l.mapM each = .error e ↔ ∃ a, First (fun a => ∃ e, each a = .error e) l a ∧ each a = .error e := by
  induction l with
  | nil => simp [not_first_nil, pure, Except.pure]
  | cons a l ih =>
      rw [List.mapM_cons]
      cases hhead : each a with
      | error e' =>
          constructor
          · intro h
            obtain rfl : e' = e := Except.error.inj h
            exact ⟨a, first_cons.mpr (Or.inl ⟨⟨e', hhead⟩, rfl⟩), hhead⟩
          · rintro ⟨b, hb, he⟩
            rcases first_cons.mp hb with ⟨_, rfl⟩ | ⟨hnot, _⟩
            · rw [← hhead, he]
              rfl
            · exact absurd ⟨e', hhead⟩ hnot
      | ok b =>
          have hnot : ¬∃ e, each a = .error e := by simp [hhead]
          simp only [first_cons, hnot, false_and, not_false_eq_true, true_and, false_or, ← ih]
          cases l.mapM each with
          | error e' => exact Iff.rfl
          | ok bs => simp [bind, Except.bind, pure, Except.pure]

theorem foldlM_eq_error_iff {step : β → α → Except ε β} {fails : α → ε → Prop}
    (hstep : ∀ b a e, step b a = .error e ↔ fails a e) (b : β) {e : ε} :
    l.foldlM step b = .error e ↔ ∃ a, First (fun a => ∃ e, fails a e) l a ∧ fails a e := by
  induction l generalizing b with
  | nil => simp [not_first_nil, pure, Except.pure]
  | cons a l ih =>
      rw [List.foldlM_cons]
      cases hhead : step b a with
      | error e' =>
          have hfails := (hstep b a e').mp hhead
          constructor
          · intro h
            obtain rfl : e' = e := Except.error.inj h
            exact ⟨a, first_cons.mpr (Or.inl ⟨⟨e', hfails⟩, rfl⟩), hfails⟩
          · rintro ⟨c, hc, he⟩
            rcases first_cons.mp hc with ⟨_, rfl⟩ | ⟨hnot, _⟩
            · rw [← hhead, (hstep b c e).mpr he]
              rfl
            · exact absurd ⟨e', hfails⟩ hnot
      | ok b' =>
          have hnot : ¬∃ e, fails a e := by
            rintro ⟨e, he⟩
            rw [(hstep b a e).mpr he] at hhead
            cases hhead
          simp only [first_cons, hnot, false_and, not_false_eq_true, true_and, false_or]
          exact ih b'

end first

end CrateDocs.Result
