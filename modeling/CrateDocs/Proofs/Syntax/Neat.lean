import CrateDocs.Proofs.Syntax.Passes

namespace CrateDocs.Syntax.Signature

open Text (isBlank dropEndWhile trimWhile)

-- Characters that are only layout. All that is left without them is the content of a text.
def isLayout (c : Char) : Bool := isBlank c || c == ',' || c == ';'

def content (cs : List Char) : List Char :=
  cs.filter fun c => !isLayout c

variable {cs : List Char} {c : Char} {p : Char → Bool}

theorem isLayout_of_isBlank (h : isBlank c = true) : isLayout c = true := by
  simp [isLayout, h]

theorem isLayout_of_isEnding (h : isEnding c = true) : isLayout c = true := by
  simp only [isEnding, Bool.or_eq_true, beq_iff_eq] at h
  rcases h with rfl | rfl <;> decide

theorem content_cons_of_isLayout (h : isLayout c = true) (cs : List Char) : content (c :: cs) = content cs :=
  List.filter_cons_of_neg (by simp [h])

theorem content_cons_congr {ds : List Char} (h : content ds = content cs) (c : Char) :
    content (c :: ds) = content (c :: cs) := by
  simp only [content, List.filter_cons] at h ⊢
  rw [h]

theorem content_eq_nil_of_isLayout (h : ∀ c ∈ cs, isLayout c = true) : content cs = [] := by
  rw [content, List.filter_eq_nil_iff]
  intro c hc
  simp [h c hc]

-- No pass takes away anything but layout.

theorem content_dropLastCommas (dropping : Bool) (cs : List Char) :
    content (dropLastCommas dropping cs) = content cs := by
  induction cs generalizing dropping with
  | nil => rfl
  | cons c cs ih =>
      rw [dropLastCommas]
      split
      · rename_i hblank
        rw [Bool.and_eq_true] at hblank
        rw [ih, content_cons_of_isLayout (isLayout_of_isBlank hblank.2)]
      split
      · rename_i hcomma
        simp only [Bool.and_eq_true, beq_iff_eq] at hcomma
        rw [ih, hcomma.1.1, content_cons_of_isLayout (by decide)]
      · exact content_cons_congr (ih false) c

theorem content_dropAfterOpening (opened : Bool) (cs : List Char) :
    content (dropAfterOpening opened cs) = content cs := by
  induction cs generalizing opened with
  | nil => rfl
  | cons c cs ih =>
      rw [dropAfterOpening]
      split
      · rename_i hblank
        rw [Bool.and_eq_true] at hblank
        rw [ih, content_cons_of_isLayout (isLayout_of_isBlank hblank.2)]
      · exact content_cons_congr (ih _) c

theorem content_dropBeforeClosing (cs : List Char) : content (dropBeforeClosing cs) = content cs := by
  induction cs with
  | nil => rfl
  | cons c cs ih =>
      rw [dropBeforeClosing]
      split
      · rename_i hblank
        rw [Bool.and_eq_true] at hblank
        rw [ih, content_cons_of_isLayout (isLayout_of_isBlank hblank.1)]
      · exact content_cons_congr ih c

theorem content_frame {before after : List Char} (hbefore : ∀ c ∈ before, isLayout c = true)
    (hafter : ∀ c ∈ after, isLayout c = true) (inner : List Char) :
    content (before ++ inner ++ after) = content inner := by
  have hstart := content_eq_nil_of_isLayout hbefore
  have hend := content_eq_nil_of_isLayout hafter
  rw [content] at hstart hend
  rw [content, List.filter_append, List.filter_append, hstart, hend, List.nil_append, List.append_nil, content]

theorem content_dropEndWhile (h : ∀ c, p c = true → isLayout c = true) (cs : List Char) :
    content (dropEndWhile p cs) = content cs := by
  obtain ⟨ending, hcs, hending⟩ := Text.dropEndWhile_append_ending p cs
  have hframe := content_frame (List.forall_mem_nil _) (fun c hc => h c (hending c hc)) (dropEndWhile p cs)
  rw [List.nil_append, hcs] at hframe
  exact hframe.symm

theorem content_trimWhile (h : ∀ c, p c = true → isLayout c = true) (cs : List Char) :
    content (trimWhile p cs) = content cs := by
  obtain ⟨⟨before, after, hcs, hbefore, hafter⟩, _, _⟩ := Text.framed_trimWhile p cs
  conv_rhs => rw [hcs]
  exact (content_frame (fun c hc => h c (hbefore c hc)) (fun c hc => h c (hafter c hc)) _).symm

-- What a pass takes away does not come up again, neither by the pass itself nor by the one after it.

theorem dropAfterOpening_idem (opened : Bool) (cs : List Char) :
    dropAfterOpening opened (dropAfterOpening opened cs) = dropAfterOpening opened cs := by
  induction cs generalizing opened with
  | nil => rfl
  | cons c cs ih =>
      by_cases hblank : (opened && isBlank c) = true
      · obtain rfl : opened = true := (Bool.and_eq_true_iff.mp hblank).1
        rw [dropAfterOpening, if_pos hblank, ih]
      · rw [dropAfterOpening, if_neg hblank, dropAfterOpening, if_neg hblank, ih]

-- The first character that is no blank stays the first.
theorem head?_dropWhile_dropBeforeClosing (cs : List Char) :
    ((dropBeforeClosing cs).dropWhile isBlank).head? = (cs.dropWhile isBlank).head? := by
  induction cs with
  | nil => rfl
  | cons c cs ih =>
      by_cases hblank : isBlank c = true
      · rw [List.dropWhile_cons_of_pos hblank, ← ih, dropBeforeClosing]
        split
        · rfl
        · rw [List.dropWhile_cons_of_pos hblank]
      · rw [dropBeforeClosing_cons (by simpa using hblank), List.dropWhile_cons_of_neg hblank,
          List.dropWhile_cons_of_neg hblank, List.head?_cons, List.head?_cons]

theorem dropBeforeClosing_idem (cs : List Char) : dropBeforeClosing (dropBeforeClosing cs) = dropBeforeClosing cs := by
  induction cs with
  | nil => rfl
  | cons c cs ih =>
      rw [dropBeforeClosing]
      split
      · exact ih
      · rename_i hstays
        rw [dropBeforeClosing, head?_dropWhile_dropBeforeClosing, if_neg hstays, ih]

-- A text that starts with a blank after the pass started with one before.
theorem head?_of_dropBeforeClosing {b : Char} (h : (dropBeforeClosing cs).head? = some b) (hb : isBlank b = true) :
    ∃ first, cs.head? = some first ∧ isBlank first = true := by
  cases cs with
  | nil => cases h
  | cons c cs =>
      refine ⟨c, rfl, ?_⟩
      by_contra hc
      rw [dropBeforeClosing_cons (by simpa using hc)] at h
      obtain rfl : c = b := Option.some.inj h
      exact hc hb

theorem opening_dropBeforeClosing (h : ∀ o b, isOpening o = true → isBlank b = true → ¬[o, b] <:+: cs) (o b : Char)
    (ho : isOpening o = true) (hb : isBlank b = true) : ¬[o, b] <:+: dropBeforeClosing cs := by
  induction cs with
  | nil => simp [dropBeforeClosing]
  | cons c cs ih =>
      have hrest : ¬[o, b] <:+: dropBeforeClosing cs :=
        ih fun o b ho hb hpair => h o b ho hb (List.infix_cons hpair)
      rw [dropBeforeClosing]
      split
      · exact hrest
      · rw [List.infix_cons_iff, not_or]
        refine ⟨fun hpair => ?_, hrest⟩
        rw [List.cons_prefix_cons, List.singleton_prefix_iff_head?_eq_some] at hpair
        obtain ⟨rfl, hhead⟩ := hpair
        obtain ⟨first, hfirst, hblank⟩ := head?_of_dropBeforeClosing hhead hb
        refine h o first ho hblank (List.infix_cons_iff.mpr (Or.inl ?_))
        rw [List.cons_prefix_cons, List.singleton_prefix_iff_head?_eq_some]
        exact ⟨rfl, hfirst⟩

-- A text without blanks at its ends and inside its brackets, or before its commas.
structure Neat (cs : List Char) : Prop where
  first : ∀ c, cs.head? = some c → isBlank c = false
  last : ∀ c, cs.getLast? = some c → isBlank c = false
  opening : ∀ o b, isOpening o = true → isBlank b = true → ¬[o, b] <:+: cs
  closing : ∀ b c, isBlank b = true → isClosing c = true → ¬[b, c] <:+: cs

theorem opening_settled (cs : List Char) (o b : Char) (ho : isOpening o = true) (hb : isBlank b = true) :
    ¬[o, b] <:+: settled cs :=
  opening_dropBeforeClosing (dropAfterOpening_eq_self_iff.mp (dropAfterOpening_idem false _)).2 o b ho hb

theorem closing_settled (cs : List Char) (b c : Char) (hb : isBlank b = true) (hc : isClosing c = true) :
    ¬[b, c] <:+: settled cs :=
  dropBeforeClosing_eq_self_iff.mp (dropBeforeClosing_idem _) b c hb hc

-- The ends of a text taken off: blanks at both, then commas and semicolons, then blanks again.
def trimmed (cs : List Char) : List Char :=
  dropEndWhile isBlank (dropEndWhile isEnding (trimWhile isBlank cs))

theorem toList_tidy (raw : String) : (tidy raw).toList = trimmed (settled raw.toList) :=
  String.toList_ofList

theorem trimmed_isPrefix (cs : List Char) : trimmed cs <+: trimWhile isBlank cs :=
  (Text.dropEndWhile_isPrefix _ _).trans (Text.dropEndWhile_isPrefix _ _)

theorem trimmed_isInfix (cs : List Char) : trimmed cs <:+: cs := by
  obtain ⟨⟨before, after, hcs, _, _⟩, _, _⟩ := Text.framed_trimWhile isBlank cs
  exact (trimmed_isPrefix cs).isInfix.trans ⟨before, after, hcs.symm⟩

theorem content_trimmed (cs : List Char) : content (trimmed cs) = content cs := by
  rw [trimmed, content_dropEndWhile fun _ => isLayout_of_isBlank, content_dropEndWhile fun _ => isLayout_of_isEnding,
    content_trimWhile fun _ => isLayout_of_isBlank]

theorem content_settled (cs : List Char) : content (settled cs) = content cs := by
  rw [settled, content_dropBeforeClosing, content_dropAfterOpening, content_dropLastCommas]

theorem settled_sublist (cs : List Char) : (settled cs).Sublist cs :=
  ((dropBeforeClosing_sublist _).trans (dropAfterOpening_sublist _ _)).trans (dropLastCommas_sublist _ _)

theorem neat_trimmed (hopening : ∀ o b, isOpening o = true → isBlank b = true → ¬[o, b] <:+: cs)
    (hclosing : ∀ b c, isBlank b = true → isClosing c = true → ¬[b, c] <:+: cs) : Neat (trimmed cs) := by
  have hwithin := trimmed_isInfix cs
  refine ⟨fun c hc => ?_, fun c hc => Text.getLast?_dropEndWhile_not hc,
    fun o b ho hb hpair => hopening o b ho hb (hpair.trans hwithin),
    fun b c hb hc hpair => hclosing b c hb hc (hpair.trans hwithin)⟩
  -- What is taken off behind leaves the start as it is, unless nothing is left.
  obtain ⟨rest, hrest⟩ := trimmed_isPrefix cs
  refine (Text.framed_trimWhile isBlank cs).first c ?_
  rw [← hrest, List.head?_append, hc, Option.some_or]

-- Tidying takes away blanks, commas and semicolons only, moves nothing, and leaves a neat text, whatever the text was.
theorem tidy_keeps_content (raw : String) :
    (tidy raw).toList.Sublist raw.toList ∧ content (tidy raw).toList = content raw.toList ∧ Neat (tidy raw).toList := by
  rw [toList_tidy]
  refine ⟨(trimmed_isInfix _).sublist.trans (settled_sublist _), ?_, ?_⟩
  · rw [content_trimmed, content_settled]
  · exact neat_trimmed (opening_settled raw.toList) (closing_settled raw.toList)

end CrateDocs.Syntax.Signature
