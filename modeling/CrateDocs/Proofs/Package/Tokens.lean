import CrateDocs.Proofs.Package.Precedence
import CrateDocs.Proofs.Text.Trim
import Mathlib.Data.Nat.Digits.Defs

namespace CrateDocs.Version

open Text (isDigit digitLimit)

variable {cs token rest : List Char} {ts : List (List Char)}

theorem classOf_eq_digit_iff (c : Char) : classOf c = .digit ↔ isDigit c = true := by
  rw [classOf]
  by_cases h : isDigit c = true
  · simp [h]
  · rw [if_neg h]
    split <;> simp [h]

theorem classOf_eq_dot_iff (c : Char) : classOf c = .dot ↔ c = '.' := by
  constructor
  · intro h
    rw [classOf] at h
    split at h
    · cases h
    · split at h
      · rename_i hdot
        exact beq_iff_eq.mp hdot
      · cases h
  · rintro rfl
    exact classOf_dot

-- A component is a number or a word by its characters.

def Digits (token : List Char) : Prop :=
  ∀ c ∈ token, isDigit c = true

def DigitFree (token : List Char) : Prop :=
  ∀ c ∈ token, isDigit c = false

theorem Solid.digits_iff {cls : CharClass} (h : Solid token) (hclass : ∀ c ∈ token, classOf c = cls) :
    Digits token ↔ cls = .digit := by
  obtain ⟨c, hc⟩ := List.exists_mem_of_ne_nil token h.1
  constructor
  · intro hdigits
    rw [← hclass c hc, classOf_eq_digit_iff]
    exact hdigits c hc
  · rintro rfl c hc
    exact (classOf_eq_digit_iff c).mp (hclass c hc)

theorem Solid.digits_or_digitFree (h : Solid token) : Digits token ∨ DigitFree token := by
  obtain ⟨_, cls, _, hclass⟩ := h
  by_cases hcls : cls = .digit
  · exact Or.inl fun c hc => (classOf_eq_digit_iff c).mp ((hclass c hc).trans hcls)
  · refine Or.inr fun c hc => ?_
    rw [← Bool.not_eq_true, ← classOf_eq_digit_iff, hclass c hc]
    exact hcls

-- How a text is spelled out of components: dots, a component, and so on, with dots at the end. Two components of the
-- same kind in a row have a dot between them.
inductive Spelled : List (List Char) → List Char → Prop
  | nil {dots : List Char} (hdots : ∀ c ∈ dots, c = '.') : Spelled [] dots
  | cons {dots token rest : List Char} {ts : List (List Char)} (hdots : ∀ c ∈ dots, c = '.') (htoken : Solid token)
      (hrest : Spelled ts rest)
      (hapart : ∀ next, ts.head? = some next → (Digits token ↔ Digits next) → rest.head? = some '.') :
      Spelled (token :: ts) (dots ++ token ++ rest)

theorem tokens_append {front back : List Char}
    (h : ∀ a ∈ front.getLast?, ∀ b ∈ back.head?, classOf a ≠ classOf b) :
    tokens (front ++ back) = tokens front ++ tokens back := by
  rw [tokens, List.splitBy_append, List.filter_append, tokens, tokens]
  intro a ha b hb
  simpa using h a ha b hb

theorem Solid.tokens_eq (h : Solid token) : tokens token = [token] := by
  rw [tokens, h.splitBy_eq]
  simp [h.head_ne]

theorem tokens_dots {dots : List Char} (h : ∀ c ∈ dots, c = '.') : tokens dots = [] := by
  rw [tokens, List.filter_eq_nil_iff]
  intro run hrun
  obtain ⟨c, hc⟩ := Option.isSome_iff_exists.mp (List.isSome_head?.mpr (List.ne_nil_of_mem_splitBy hrun))
  have hmem : c ∈ dots := by
    rw [← List.flatten_splitBy (fun a b => classOf a == classOf b) dots]
    exact List.mem_flatten.mpr ⟨run, hrun, List.mem_of_head? hc⟩
  simp [hc, (classOf_eq_dot_iff c).mpr (h c hmem)]

-- Dots at the start make no difference.
theorem tokens_dots_append {dots : List Char} (hdots : ∀ c ∈ dots, c = '.')
    (hrest : ∀ c, rest.head? = some c → c ≠ '.') : tokens (dots ++ rest) = tokens rest := by
  rw [tokens_append, tokens_dots hdots, List.nil_append]
  intro a ha b hb
  rw [(classOf_eq_dot_iff a).mpr (hdots a (List.mem_of_getLast? ha)), Ne, eq_comm, classOf_eq_dot_iff]
  exact hrest b hb

theorem Solid.head_ne_dot (h : Solid token) (rest : List Char) (c : Char) (hc : (token ++ rest).head? = some c) :
    c ≠ '.' := by
  obtain ⟨hne, cls, hdot, hclass⟩ := h
  rw [List.head?_append_of_ne_nil _ hne] at hc
  rw [Ne, ← classOf_eq_dot_iff, hclass c (List.mem_of_head? hc)]
  exact hdot

-- A component is not followed by a character of its own class.
theorem Spelled.classOf_ne {cls : CharClass} (hrest : Spelled ts rest) (htoken : Solid token)
    (hclass : ∀ c ∈ token, classOf c = cls) (hdot : cls ≠ .dot)
    (hapart : ∀ next, ts.head? = some next → (Digits token ↔ Digits next) → rest.head? = some '.')
    {c : Char} (hc : rest.head? = some c) : classOf c ≠ cls := by
  intro hcls
  have hne : c ≠ '.' := by
    rintro rfl
    exact hdot (hcls.symm.trans classOf_dot)
  cases hrest with
  | nil hdots => exact hne (hdots c (List.mem_of_head? hc))
  | @cons dots next rest ts hdots hnext _ _ =>
      cases dots with
      | cons d dots =>
          obtain rfl : d = c := Option.some.inj hc
          exact hne (hdots d List.mem_cons_self)
      | nil =>
          obtain ⟨hnil, kind, _, hkind⟩ := hnext
          -- The next component starts right here, so it is of the same class and there had to be a dot.
          have hfirst : next.head? = some c := by
            rwa [List.nil_append, List.head?_append_of_ne_nil _ hnil] at hc
          obtain rfl : kind = cls := (hkind c (List.mem_of_head? hfirst)).symm.trans hcls
          have hdots := hapart next rfl (by
            rw [htoken.digits_iff hclass, Solid.digits_iff ⟨hnil, kind, hdot, hkind⟩ hkind])
          exact hne (Option.some.inj (hc.symm.trans hdots))

theorem Spelled.tokens_eq (h : Spelled ts cs) : tokens cs = ts := by
  induction h with
  | nil hdots => exact tokens_dots hdots
  | @cons dots token rest ts hdots htoken hrest hapart ih =>
      have hfollow : tokens (token ++ rest) = token :: tokens rest := by
        obtain ⟨_, cls, hdot, hclass⟩ := id htoken
        rw [tokens_append, htoken.tokens_eq, List.singleton_append]
        intro a ha b hb
        rw [hclass a (List.mem_of_getLast? ha)]
        exact (hrest.classOf_ne htoken hclass hdot hapart hb).symm
      rw [List.append_assoc, tokens_dots_append hdots (htoken.head_ne_dot rest), hfollow, ih]

-- Components of the same kind are of the same class.
theorem class_eq_of_digits_iff {cls next : CharClass} (hcls : cls ≠ .dot) (hnext : next ≠ .dot)
    (h : cls = .digit ↔ next = .digit) : cls = next := by
  cases cls <;> cases next <;> simp_all

theorem digits_cons_iff (c : Char) (token : List Char) : Digits (c :: token) ↔ isDigit c = true ∧ Digits token :=
  List.forall_mem_cons

theorem Solid.cons {c : Char} (hc : Solid [c]) (htoken : Solid token) (hsame : Digits [c] ↔ Digits token) :
    Solid (c :: token) := by
  obtain ⟨_, first, hfirst, hclass⟩ := id hc
  obtain ⟨_, cls, hdot, htokens⟩ := id htoken
  rw [hc.digits_iff hclass, htoken.digits_iff htokens] at hsame
  refine ⟨List.cons_ne_nil c token, cls, hdot, List.forall_mem_cons.mpr ⟨?_, htokens⟩⟩
  rw [hclass c List.mem_cons_self]
  exact class_eq_of_digits_iff hfirst hdot hsame

-- A character in front of a text is one more dot, one more character of the first component, or a component of its own.
theorem Spelled.exists_cons (h : Spelled ts cs) (c : Char) : ∃ more, Spelled more (c :: cs) := by
  by_cases hc : c = '.'
  · cases h with
    | nil hdots => exact ⟨[], .nil (List.forall_mem_cons.mpr ⟨hc, hdots⟩)⟩
    | cons hdots htoken hrest hapart =>
        exact ⟨_, .cons (List.forall_mem_cons.mpr ⟨hc, hdots⟩) htoken hrest hapart⟩
  · have hsolid : Solid [c] :=
      ⟨List.cons_ne_nil c [], classOf c, mt (classOf_eq_dot_iff c).mp hc, List.forall_mem_singleton.mpr rfl⟩
    cases h with
    | nil hdots => exact ⟨[[c]], .cons (List.forall_mem_nil _) hsolid (.nil hdots) (by simp)⟩
    | @cons dots token rest ts hdots htoken hrest hapart =>
        by_cases hsame : Digits [c] ↔ Digits token
        · cases dots with
          | nil =>
              refine ⟨(c :: token) :: ts, .cons (List.forall_mem_nil _) (hsolid.cons htoken hsame) hrest ?_⟩
              intro next hnext hkind
              refine hapart next hnext (Iff.trans ?_ hkind)
              rw [digits_cons_iff, ← hsame, digits_cons_iff, and_self_left]
          | cons d dots =>
              obtain rfl : d = '.' := hdots d List.mem_cons_self
              exact ⟨[c] :: token :: ts, .cons (List.forall_mem_nil _) hsolid (.cons hdots htoken hrest hapart)
                fun _ _ _ => rfl⟩
        · refine ⟨[c] :: token :: ts, .cons (List.forall_mem_nil _) hsolid (.cons hdots htoken hrest hapart) ?_⟩
          intro next hnext hkind
          obtain rfl : token = next := Option.some.inj hnext
          exact absurd hkind hsame

theorem spelled_tokens (cs : List Char) : Spelled (tokens cs) cs := by
  have hexists : ∃ ts, Spelled ts cs := by
    induction cs with
    | nil => exact ⟨[], .nil (List.forall_mem_nil _)⟩
    | cons c cs ih =>
        obtain ⟨ts, hts⟩ := ih
        exact hts.exists_cons c
  obtain ⟨ts, hts⟩ := hexists
  rwa [hts.tokens_eq]

theorem tokens_eq_iff : tokens cs = ts ↔ Spelled ts cs :=
  ⟨fun h => h ▸ spelled_tokens cs, Spelled.tokens_eq⟩

theorem Spelled.solid (h : Spelled ts cs) : ∀ token ∈ ts, Solid token := by
  induction h with
  | nil _ => exact List.forall_mem_nil _
  | cons _ htoken _ _ ih => exact List.forall_mem_cons.mpr ⟨htoken, ih⟩

theorem filter_dots {dots : List Char} (h : ∀ c ∈ dots, c = '.') : dots.filter (· != '.') = [] := by
  rw [List.filter_eq_nil_iff]
  intro c hc
  simp [h c hc]

-- Nothing is lost but the dots.
theorem Spelled.flatten_eq (h : Spelled ts cs) : ts.flatten = cs.filter (· != '.') := by
  induction h with
  | nil hdots => rw [filter_dots hdots, List.flatten_nil]
  | @cons dots token rest ts hdots htoken _ _ ih =>
      have hkept : token.filter (· != '.') = token := by
        obtain ⟨_, cls, hdot, hclass⟩ := htoken
        rw [List.filter_eq_self]
        intro c hc
        rw [bne_iff_ne, Ne, ← classOf_eq_dot_iff, hclass c hc]
        exact hdot
      rw [List.flatten_cons, ih, List.filter_append, List.filter_append, filter_dots hdots, hkept, List.nil_append]

-- A run of digits between two parts of a text that goes on at neither side.
structure DigitRun (before run after : List Char) : Prop where
  ne_nil : run ≠ []
  digits : Digits run
  starts : ∀ c, before.getLast? = some c → isDigit c = false
  ends : ∀ c, after.head? = some c → isDigit c = false

theorem DigitRun.solid {before run after : List Char} (h : DigitRun before run after) : Solid run :=
  ⟨h.ne_nil, .digit, by decide, fun c hc => (classOf_eq_digit_iff c).mpr (h.digits c hc)⟩

theorem classOf_ne_iff_of_isDigit {a b : Char} (ha : isDigit a = true) : classOf a ≠ classOf b ↔ isDigit b = false := by
  rw [(classOf_eq_digit_iff a).mpr ha, Ne, eq_comm, classOf_eq_digit_iff, Bool.not_eq_true]

-- The components that are numbers are the longest runs of digits.

theorem Spelled.exists_digitRun {run : List Char} (h : Spelled ts cs) (hrun : run ∈ ts) (hdigits : Digits run) :
    ∃ before after, cs = before ++ run ++ after ∧ DigitRun before run after := by
  induction h with
  | nil _ => cases hrun
  | @cons dots token rest ts hdots htoken hrest hapart ih =>
      obtain ⟨hne, cls, hdot, hclass⟩ := id htoken
      have hfollow : ∀ c, rest.head? = some c → classOf c ≠ cls :=
        fun c hc => hrest.classOf_ne htoken hclass hdot hapart hc
      rcases List.mem_cons.mp hrun with rfl | hlater
      · refine ⟨dots, rest, rfl, hne, hdigits, fun c hc => ?_, fun c hc => ?_⟩
        · rw [hdots c (List.mem_of_getLast? hc)]
          decide
        · obtain rfl := (htoken.digits_iff hclass).mp hdigits
          rw [← Bool.not_eq_true, ← classOf_eq_digit_iff]
          exact hfollow c hc
      · obtain ⟨before, after, rfl, hmaximal⟩ := ih hlater
        refine ⟨dots ++ token ++ before, after, by simp, hmaximal.ne_nil, hdigits, fun c hc => ?_, hmaximal.ends⟩
        by_cases hbefore : before = []
        · -- The run follows right after a component, which then is none of digits.
          subst hbefore
          rw [List.append_nil, List.getLast?_append_of_ne_nil _ hne] at hc
          obtain ⟨d, hd⟩ := Option.isSome_iff_exists.mp (List.isSome_head?.mpr hmaximal.ne_nil)
          have hnext := hfollow d (by rw [List.nil_append, List.head?_append_of_ne_nil _ hmaximal.ne_nil, hd])
          rw [(classOf_eq_digit_iff d).mpr (hdigits d (List.mem_of_head? hd))] at hnext
          rw [← Bool.not_eq_true, ← classOf_eq_digit_iff, hclass c (List.mem_of_getLast? hc)]
          exact hnext.symm
        · rw [List.getLast?_append_of_ne_nil _ hbefore] at hc
          exact hmaximal.starts c hc

theorem DigitRun.mem_tokens {before run after : List Char} (h : DigitRun before run after) :
    run ∈ tokens (before ++ run ++ after) := by
  have hends : tokens (run ++ after) = [run] ++ tokens after := by
    rw [tokens_append, h.solid.tokens_eq]
    intro a ha b hb
    exact (classOf_ne_iff_of_isDigit (h.digits a (List.mem_of_getLast? ha))).mpr (h.ends b hb)
  have hstarts : tokens (before ++ (run ++ after)) = tokens before ++ tokens (run ++ after) := by
    refine tokens_append fun a ha b hb => ?_
    rw [List.head?_append_of_ne_nil _ h.ne_nil] at hb
    exact ((classOf_ne_iff_of_isDigit (h.digits b (List.mem_of_head? hb))).mpr (h.starts a ha)).symm
  rw [List.append_assoc, hstarts, hends]
  simp

-- Whether a text has a run of digits that is too long to be read as a number.
def Overlong (cs : List Char) : Prop :=
  ∃ before run after, cs = before ++ run ++ after ∧ DigitRun before run after ∧ digitLimit < run.length

theorem overlong_iff_tokens : Overlong cs ↔ ∃ token ∈ tokens cs, Digits token ∧ digitLimit < token.length := by
  constructor
  · rintro ⟨before, run, after, rfl, hrun, hlong⟩
    exact ⟨run, hrun.mem_tokens, hrun.digits, hlong⟩
  · rintro ⟨token, htoken, hdigits, hlong⟩
    obtain ⟨before, after, hcs, hrun⟩ := (spelled_tokens cs).exists_digitRun htoken hdigits
    exact ⟨before, token, after, hcs, hrun, hlong⟩

-- What a component stands for: the number with its digits in base ten, or the word itself.
inductive Denotes (token : List Char) : Part → Prop
  | number (h : Digits token) :
      Denotes token (.number (Nat.ofDigits 10 (token.reverse.map fun c => (Text.digitValue? c).getD 0)))
  | word (h : DigitFree token) : Denotes token (.word (String.ofList token))

theorem decimalValue_eq_ofDigits (cs : List Char) :
    Text.decimalValue cs = Nat.ofDigits 10 (cs.reverse.map fun c => (Text.digitValue? c).getD 0) := by
  induction cs using List.reverseRecOn with
  | nil => rfl
  | append_singleton front c ih =>
      rw [Text.decimalValue, List.foldl_append, List.foldl_cons, List.foldl_nil, ← Text.decimalValue, ih,
        List.reverse_append, List.reverse_singleton, List.singleton_append, List.map_cons, Nat.ofDigits_cons,
        Nat.add_comm]

theorem part_of_digits (h : Digits token) (hshort : ¬digitLimit < token.length) :
    part token = .ok (.number (Text.decimalValue token)) := by
  rw [part, if_pos (List.all_eq_true.mpr h), if_neg hshort]

theorem part_of_overlong (h : Digits token) (hlong : digitLimit < token.length) :
    part token = .error ⟨token.length⟩ := by
  rw [part, if_pos (List.all_eq_true.mpr h), if_pos hlong]

theorem Solid.part_of_digitFree (hsolid : Solid token) (h : DigitFree token) :
    part token = .ok (.word (String.ofList token)) := by
  obtain ⟨c, hc⟩ := List.exists_mem_of_ne_nil token hsolid.1
  rw [part, if_neg]
  intro hdigits
  have hdigit := List.all_eq_true.mp hdigits c hc
  rw [h c hc] at hdigit
  cases hdigit

theorem Solid.part_fails_iff (h : Solid token) :
    (∃ e, part token = .error e) ↔ Digits token ∧ digitLimit < token.length := by
  constructor
  · rintro ⟨e, he⟩
    rcases h.digits_or_digitFree with hdigits | hfree
    · refine ⟨hdigits, ?_⟩
      by_contra hshort
      cases (part_of_digits hdigits hshort).symm.trans he
    · cases (h.part_of_digitFree hfree).symm.trans he
  · rintro ⟨hdigits, hlong⟩
    exact ⟨_, part_of_overlong hdigits hlong⟩

theorem Solid.denotes_of_part (h : Solid token) {p : Part} (hp : part token = .ok p) : Denotes token p := by
  rcases h.digits_or_digitFree with hdigits | hfree
  · by_cases hlong : digitLimit < token.length
    · cases (part_of_overlong hdigits hlong).symm.trans hp
    · obtain rfl := Except.ok.inj ((part_of_digits hdigits hlong).symm.trans hp)
      rw [decimalValue_eq_ofDigits]
      exact .number hdigits
  · obtain rfl := Except.ok.inj ((h.part_of_digitFree hfree).symm.trans hp)
    exact .word hfree

theorem solid_of_mem_tokens (h : token ∈ tokens cs) : Solid token :=
  (spelled_tokens cs).solid token h

-- The components are read unless a run of digits is too long.
theorem parts_fails_iff : (∃ e, parts cs = .error e) ↔ Overlong cs := by
  rw [overlong_iff_tokens]
  constructor
  · rintro ⟨e, he⟩
    obtain ⟨token, hfirst, hpart⟩ := Result.mapM_eq_error_iff.mp he
    exact ⟨token, hfirst.mem, (solid_of_mem_tokens hfirst.mem).part_fails_iff.mp ⟨e, hpart⟩⟩
  · rintro ⟨token, htoken, hlong⟩
    cases hparts : parts cs with
    | error e => exact ⟨e, rfl⟩
    | ok found =>
        obtain ⟨p, hp⟩ := (Result.mapM_isOk_iff part (tokens cs)).mp ⟨found, hparts⟩ token htoken
        obtain ⟨e, he⟩ := (solid_of_mem_tokens htoken).part_fails_iff.mpr hlong
        cases hp.symm.trans he

theorem denotes_of_parts {found : List Part} (h : parts cs = .ok found) : List.Forall₂ Denotes (tokens cs) found := by
  have hread : List.Forall₂ (fun token p => Solid token ∧ part token = .ok p) (tokens cs) found :=
    (List.forall₂_and_left _ _).mpr ⟨fun _ => solid_of_mem_tokens, Result.mapM_eq_ok_iff.mp h⟩
  exact hread.imp fun token p htoken => htoken.1.denotes_of_part htoken.2

-- A run of digits that is too long is the same as any part of a text that is all digits and too long.
theorem overlong_iff_digits : Overlong cs ↔ ∃ run, run <:+: cs ∧ Digits run ∧ digitLimit < run.length := by
  constructor
  · rintro ⟨before, run, after, rfl, hrun, hlong⟩
    exact ⟨run, ⟨before, after, rfl⟩, hrun.digits, hlong⟩
  · rintro ⟨run, ⟨front, back, rfl⟩, hdigits, hlong⟩
    -- The digits around it belong to the run as well.
    obtain ⟨earlier, hfront, hearlier⟩ := Text.dropEndWhile_append_ending isDigit front
    have hback := List.takeWhile_append_dropWhile (p := isDigit) (l := back)
    refine ⟨Text.dropEndWhile isDigit front, earlier ++ run ++ back.takeWhile isDigit, back.dropWhile isDigit, ?_,
      ⟨?_, ?_, fun c hc => Text.getLast?_dropEndWhile_not hc, fun c hc => Text.head?_dropWhile_not hc⟩, ?_⟩
    · calc front ++ run ++ back
          = (Text.dropEndWhile isDigit front ++ earlier) ++ run ++ (back.takeWhile isDigit ++ back.dropWhile isDigit) := by
            rw [hfront, hback]
        _ = _ := by simp only [List.append_assoc]
    · rintro hnil
      simp only [List.append_eq_nil_iff] at hnil
      rw [hnil.1.2] at hlong
      exact absurd hlong (Nat.not_lt_zero _)
    · intro c hc
      rcases List.mem_append.mp hc with hc | hc
      · rcases List.mem_append.mp hc with hc | hc
        · exact hearlier c hc
        · exact hdigits c hc
      · exact List.mem_takeWhile_imp hc
    · simp only [List.length_append]
      omega

-- A part of a text without a mark lies on one side of the mark.

theorem prefix_of_notMem {mark : Char} {run front back : List Char} (hmark : mark ∉ run)
    (h : run <+: front ++ mark :: back) : run <+: front := by
  have hfront : front ++ [mark] <+: front ++ mark :: back := ⟨back, by simp⟩
  rcases List.prefix_or_prefix_of_prefix h hfront with hrun | hrun
  · rcases List.prefix_concat_iff.mp hrun with rfl | hrun
    · simp at hmark
    · exact hrun
  · exact absurd (hrun.subset (by simp)) hmark

theorem infix_of_notMem {mark : Char} {run front back : List Char} (hmark : mark ∉ run)
    (h : run <:+: front ++ mark :: back) : run <:+: front ∨ run <:+: back := by
  induction front with
  | nil =>
      rcases List.infix_cons_iff.mp h with hstart | hback
      · exact Or.inl (prefix_of_notMem hmark hstart).isInfix
      · exact Or.inr hback
  | cons c front ih =>
      rcases List.infix_cons_iff.mp h with hstart | hlater
      · exact Or.inl (prefix_of_notMem hmark hstart).isInfix
      · exact (ih hlater).imp_left fun hfront => hfront.trans (List.infix_cons (List.infix_refl front))

theorem eq_cutFirst (mark : Char) (cs : List Char) :
    cs = (Text.cutFirst mark cs).1 ∨ cs = (Text.cutFirst mark cs).1 ++ mark :: (Text.cutFirst mark cs).2 := by
  have hsplit := List.takeWhile_append_dropWhile (p := (· != mark)) (l := cs)
  rw [Text.cutFirst]
  cases hback : cs.dropWhile (· != mark) with
  | nil =>
      rw [hback, List.append_nil] at hsplit
      exact Or.inl hsplit.symm
  | cons c back =>
      have hmark : (c != mark) = false := Text.head?_dropWhile_not (p := (· != mark)) (by rw [hback, List.head?_cons])
      rw [bne_eq_false_iff_eq] at hmark
      rw [hback, hmark] at hsplit
      exact Or.inr hsplit.symm

-- A mark that is no digit divides no run of digits.
theorem overlong_cutFirst_iff {mark : Char} (hmark : isDigit mark = false) :
    Overlong cs ↔ Overlong (Text.cutFirst mark cs).1 ∨ Overlong (Text.cutFirst mark cs).2 := by
  simp only [overlong_iff_digits]
  constructor
  · rintro ⟨run, hrun, hdigits, hlong⟩
    have hnot : mark ∉ run := by
      intro hmem
      rw [hdigits mark hmem] at hmark
      cases hmark
    rcases eq_cutFirst mark cs with hcs | hcs
    · rw [hcs] at hrun
      exact Or.inl ⟨run, hrun, hdigits, hlong⟩
    · rw [hcs] at hrun
      rcases infix_of_notMem hnot hrun with hrun | hrun
      · exact Or.inl ⟨run, hrun, hdigits, hlong⟩
      · exact Or.inr ⟨run, hrun, hdigits, hlong⟩
  · rintro (⟨run, hrun, hdigits, hlong⟩ | ⟨run, hrun, hdigits, hlong⟩)
    · exact ⟨run, hrun.trans (cutFirst_within mark cs).1, hdigits, hlong⟩
    · exact ⟨run, hrun.trans (cutFirst_within mark cs).2, hdigits, hlong⟩

-- What follows a run may be longer or shorter, as long as no digit comes right after.

theorem DigitRun.append {before run after more : List Char} (h : DigitRun before run after)
    (hmore : ∀ c, more.head? = some c → isDigit c = false) : DigitRun before run (after ++ more) := by
  refine ⟨h.ne_nil, h.digits, h.starts, fun c hc => ?_⟩
  cases after with
  | nil => exact hmore c hc
  | cons d after => exact h.ends c hc

theorem DigitRun.takeWhile {before run after : List Char} (h : DigitRun before run after) (p : Char → Bool) :
    DigitRun before run (after.takeWhile p) := by
  refine ⟨h.ne_nil, h.digits, h.starts, fun c hc => h.ends c ?_⟩
  cases after with
  | nil => cases hc
  | cons d after =>
      rw [List.takeWhile_cons] at hc
      split at hc
      · exact hc
      · cases hc

-- A run before the first mark is one of what is before the mark.
theorem overlong_before_iff {mark : Char} (hmark : isDigit mark = false) :
    Overlong (Text.cutFirst mark cs).1 ↔ ∃ before run after, cs = before ++ run ++ after ∧ mark ∉ before ∧
      DigitRun before run after ∧ digitLimit < run.length := by
  have hcut : (Text.cutFirst mark cs).1 = cs.takeWhile (· != mark) := rfl
  rw [hcut]
  constructor
  · rintro ⟨before, run, after, hcs, hrun, hlong⟩
    have hbefore : mark ∉ before := by
      intro hmem
      have hin : mark ∈ cs.takeWhile (· != mark) := by
        rw [hcs]
        exact List.mem_append_left _ (List.mem_append_left _ hmem)
      simpa using List.mem_takeWhile_imp hin
    refine ⟨before, run, after ++ cs.dropWhile (· != mark), ?_, hbefore, hrun.append fun c hc => ?_, hlong⟩
    · rw [← List.append_assoc, ← hcs, List.takeWhile_append_dropWhile]
    · -- The mark itself follows.
      have hnot := Text.head?_dropWhile_not (p := (· != mark)) hc
      rw [bne_eq_false_iff_eq] at hnot
      rw [hnot, hmark]
  · rintro ⟨before, run, after, rfl, hbefore, hrun, hlong⟩
    have hfront : ∀ c ∈ before ++ run, (c != mark) = true := by
      intro c hc
      rw [bne_iff_ne]
      rintro rfl
      rcases List.mem_append.mp hc with hc | hc
      · exact hbefore hc
      · rw [hrun.digits c hc] at hmark
        cases hmark
    exact ⟨before, run, after.takeWhile (· != mark), List.takeWhile_append_of_pos hfront, hrun.takeWhile _, hlong⟩

-- A version has no key exactly if a run of digits before its build is too long.
theorem key_fails_iff {version : String} :
    (∃ e, key version = .error e) ↔ Overlong (Text.cutFirst '+' version.toList).1 := by
  have hdash : isDigit '-' = false := by decide
  rw [overlong_cutFirst_iff hdash, ← parts_fails_iff, ← parts_fails_iff]
  simp only [key]
  cases parts (Text.cutFirst '-' (Text.cutFirst '+' version.toList).1).1 with
  | error e => exact iff_of_true ⟨e, rfl⟩ (Or.inl ⟨e, rfl⟩)
  | ok release =>
      cases parts (Text.cutFirst '-' (Text.cutFirst '+' version.toList).1).2 with
      | error e => exact iff_of_true ⟨e, rfl⟩ (Or.inr ⟨e, rfl⟩)
      | ok pre =>
          refine iff_of_false ?_ ?_
          · rintro ⟨_, ⟨⟩⟩
          · rintro (⟨_, ⟨⟩⟩ | ⟨_, ⟨⟩⟩)

-- The components of a text are all of it but the dots, each of one kind, with a dot between two of the same kind in a
-- row. They are read unless a run of digits is too long, numbers by their value. A version has a key unless such a run
-- comes before its build.
theorem components_of_text (cs : List Char) :
    (∀ ts, tokens cs = ts ↔ Spelled ts cs) ∧
      (tokens cs).flatten = cs.filter (· != '.') ∧
      (∀ token ∈ tokens cs, token ≠ [] ∧ (Digits token ∨ DigitFree token)) ∧
      ((∃ e, parts cs = .error e) ↔ Overlong cs) ∧
      (Overlong cs ∨ ∃ found, parts cs = .ok found ∧ List.Forall₂ Denotes (tokens cs) found) ∧
      ∀ version : String, (∃ e, key version = .error e) ↔ ∃ before run after,
        version.toList = before ++ run ++ after ∧ '+' ∉ before ∧ DigitRun before run after ∧ digitLimit < run.length := by
  refine ⟨fun ts => tokens_eq_iff, (spelled_tokens cs).flatten_eq, fun token htoken => ?_, parts_fails_iff, ?_,
    fun version => ?_⟩
  · have hsolid := solid_of_mem_tokens htoken
    exact ⟨hsolid.1, hsolid.digits_or_digitFree⟩
  · cases hparts : parts cs with
    | error e => exact Or.inl (parts_fails_iff.mp ⟨e, hparts⟩)
    | ok found => exact Or.inr ⟨found, rfl, denotes_of_parts hparts⟩
  · rw [key_fails_iff, overlong_before_iff (by decide)]

end CrateDocs.Version
