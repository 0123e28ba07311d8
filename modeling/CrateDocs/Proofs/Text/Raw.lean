import CrateDocs.Proofs.Result
import CrateDocs.Text.Raw

namespace CrateDocs

-- What a byte of a name that encodes no character comes as.
def RawUnit.ofByte (b : UInt8) : RawUnit :=
  half ⟨0x400 + b.toNat, Nat.lt_trans (Nat.add_lt_add_left b.toNat_lt 0x400) (by decide)⟩

namespace RawText

open RawUnit (char half)

-- A raw text is one of characters only, or it has a first half.

theorem ofText_injective {s t : String} (h : ofText s = ofText t) : s = t :=
  String.toList_injective (List.map_injective_iff.mpr (fun _ _ h => RawUnit.char.inj h) h)

theorem toText_cons (unit : RawUnit) (t : RawText) :
    toText (unit :: t) = match unit with
      | char c => (toText t).map fun s => String.ofList (c :: s.toList)
      | half n => .error ⟨n⟩ := by
  rw [toText, List.mapM_cons, toText]
  cases unit with
  | half n => rfl
  | char c =>
      cases hrest : t.mapM RawUnit.toChar with
      | error e => rfl
      | ok cs => simp [RawUnit.toChar, bind, Except.bind, pure, Except.pure, Except.map]

theorem toText_eq_ok_iff {t : RawText} {s : String} : t.toText = .ok s ↔ t = ofText s := by
  induction t generalizing s with
  | nil =>
      have hempty : [] = ofText s ↔ s = "" := by
        rw [ofText, List.nil_eq, List.map_eq_nil_iff, String.toList_eq_nil_iff]
      rw [hempty]
      exact ⟨fun h => (Except.ok.inj h).symm, fun h => by rw [h]; rfl⟩
  | cons unit t ih =>
      rw [toText_cons]
      cases unit with
      | half n =>
          constructor
          · rintro ⟨⟩
          · intro h
            obtain ⟨c, _, _, hc, _⟩ := List.map_eq_cons_iff.mp h.symm
            cases hc
      | char c =>
          simp only [Result.map_eq_ok_iff, ih]
          constructor
          · rintro ⟨rest, rfl, rfl⟩
            simp [ofText]
          · intro h
            obtain ⟨d, cs, hs, hd, hcs⟩ := List.map_eq_cons_iff.mp h.symm
            refine ⟨String.ofList cs, ?_, ?_⟩
            · rw [ofText, String.toList_ofList, hcs]
            · rw [String.toList_ofList, ← RawUnit.char.inj hd, ← hs, String.ofList_toList]

theorem toText_ofText (s : String) : (ofText s).toText = .ok s :=
  toText_eq_ok_iff.mpr rfl

-- The first half in a raw text.
def FirstHalf (t : RawText) (e : Unencodable) : Prop :=
  ∃ s rest, t = ofText s ++ half e.half :: rest

theorem toText_eq_error_iff {t : RawText} {e : Unencodable} : t.toText = .error e ↔ t.FirstHalf e := by
  simp only [FirstHalf]
  induction t with
  | nil =>
      constructor
      · rintro ⟨⟩
      · rintro ⟨s, rest, h⟩
        simp at h
  | cons unit t ih =>
      rw [toText_cons]
      cases unit with
      | half n =>
          constructor
          · intro h
            exact ⟨"", t, by rw [← Except.error.inj h]; rfl⟩
          · rintro ⟨s, rest, h⟩
            cases hs : s.toList with
            | nil =>
                rw [ofText, hs] at h
                rw [RawUnit.half.inj (List.cons.inj h).1]
            | cons c cs =>
                rw [ofText, hs] at h
                cases (List.cons.inj h).1
      | char c =>
          simp only [Result.map_eq_error_iff, ih]
          constructor
          · rintro ⟨s, rest, rfl⟩
            exact ⟨String.ofList (c :: s.toList), rest, by simp [ofText]⟩
          · rintro ⟨s, rest, h⟩
            cases hs : s.toList with
            | nil =>
                rw [ofText, hs] at h
                cases (List.cons.inj h).1
            | cons d cs =>
                rw [ofText, hs] at h
                refine ⟨String.ofList cs, rest, ?_⟩
                rw [ofText, String.toList_ofList]
                exact (List.cons.inj h).2

-- Of several raw texts the first that is no text tells why all together are none.

theorem toText_append (a b : RawText) :
    toText (a ++ b) = a.toText.bind fun s => b.toText.map fun t => s ++ t := by
  induction a with
  | nil =>
      have hempty : toText [] = .ok "" := rfl
      rw [List.nil_append, hempty, Except.bind]
      cases b.toText <;> simp [Except.map]
  | cons unit a ih =>
      rw [List.cons_append, toText_cons, toText_cons, ih]
      cases unit with
      | half n => rfl
      | char c =>
          cases toText a with
          | error e => rfl
          | ok s =>
              cases b.toText with
              | error e => rfl
              | ok t => simp [Except.bind, Except.map, String.append_assoc]

theorem toText_append_eq_error_iff {a b : RawText} {e : Unencodable} :
    toText (a ++ b) = .error e ↔ a.toText = .error e ∨ (∀ e', a.toText ≠ .error e') ∧ b.toText = .error e := by
  rw [toText_append]
  cases a.toText with
  | error e' => simp [Except.bind]
  | ok s => cases b.toText <;> simp [Except.bind, Except.map]

theorem mapM_toText_eq_error_iff {l : List RawText} {e : Unencodable} :
    l.mapM toText = .error e ↔ toText l.flatten = .error e := by
  induction l with
  | nil => simp [toText, pure, Except.pure, Except.map]
  | cons t l ih =>
      rw [List.mapM_cons, List.flatten_cons, toText_append_eq_error_iff, ← ih]
      cases t.toText with
      | error e' => simp [bind, Except.bind]
      | ok s => cases l.mapM toText <;> simp [bind, Except.bind, pure, Except.pure]

-- Raw texts are compared unit by unit. Of two texts this is the usual order.

theorem comesFirst_total (a b : RawText) : (a.comesFirst b || b.comesFirst a) = true := by
  induction a generalizing b with
  | nil => rfl
  | cons x a ih =>
      cases b with
      | nil => rfl
      | cons y b =>
          have hrest := ih b
          simp only [comesFirst, Bool.or_eq_true, Bool.and_eq_true, decide_eq_true_eq, beq_iff_eq] at hrest ⊢
          rcases Nat.lt_trichotomy x.code y.code with hlt | heq | hgt
          · exact Or.inl (Or.inl hlt)
          · exact hrest.imp (fun h => Or.inr ⟨heq, h⟩) fun h => Or.inr ⟨heq.symm, h⟩
          · exact Or.inr (Or.inl hgt)

theorem comesFirst_trans {a b c : RawText} (hab : a.comesFirst b = true) (hbc : b.comesFirst c = true) :
    a.comesFirst c = true := by
  induction a generalizing b c with
  | nil => rfl
  | cons x a ih =>
      cases b with
      | nil => cases hab
      | cons y b =>
          cases c with
          | nil => cases hbc
          | cons z c =>
              simp only [comesFirst, Bool.or_eq_true, Bool.and_eq_true, decide_eq_true_eq, beq_iff_eq] at hab hbc ⊢
              rcases hab with hab | ⟨hab, hfirst⟩
              · omega
              · rcases hbc with hbc | ⟨hbc, hsecond⟩
                · omega
                · exact Or.inr ⟨hab.trans hbc, ih hfirst hsecond⟩

theorem comesFirst_ofText (s t : String) : (ofText s).comesFirst (ofText t) = decide (s ≤ t) := by
  have hchars : ∀ cs ds : List Char, comesFirst (cs.map char) (ds.map char) = true ↔ ¬ds < cs := by
    intro cs
    induction cs with
    | nil =>
        intro ds
        simp [comesFirst]
    | cons c cs ih =>
        intro ds
        cases ds with
        | nil => simp [comesFirst]
        | cons d ds =>
            have hlt : d < c ↔ d.toNat < c.toNat := Iff.rfl
            have heq : d = c ↔ d.toNat = c.toNat := ⟨fun h => by rw [h], Char.toNat_inj.mp⟩
            simp only [List.map_cons, comesFirst, List.cons_lt_cons_iff, hlt, heq, Bool.or_eq_true, Bool.and_eq_true,
              decide_eq_true_eq, beq_iff_eq, ih, not_or, not_and, Nat.not_lt]
            simp only [RawUnit.code]
            constructor
            · rintro (hless | ⟨hsame, hrest⟩)
              · exact ⟨by omega, fun h => by omega⟩
              · exact ⟨by omega, fun _ => hrest⟩
            · rintro ⟨hle, hrest⟩
              rcases Nat.lt_or_eq_of_le hle with hless | hsame
              · exact Or.inl hless
              · exact Or.inr ⟨hsame, hrest hsame.symm⟩
  rw [Bool.eq_iff_iff, decide_eq_true_eq]
  exact hchars s.toList t.toList

end RawText

end CrateDocs
