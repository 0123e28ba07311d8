import CrateDocs.Disk.Basic
import CrateDocs.Proofs.Disk.Folder
import CrateDocs.Proofs.Text.Split
import Mathlib.Data.List.Induction

namespace CrateDocs

theorem Utf8.size_append (s t : String) : Utf8.size (s ++ t) = Utf8.size s + Utf8.size t := by
  simp [Utf8.size, Utf8.encode]

theorem ne_up_of_isFileName {name : String} (h : isFileName name = true) : name ≠ ".." := by
  rintro rfl
  cases h

theorem zero_notMem_of_isFileName {name : String} (h : isFileName name = true) : '\x00' ∉ name.toList := by
  simp only [isFileName, Bool.and_eq_true, List.all_eq_true] at h
  exact fun hmem => absurd (h.2 _ hmem).2 (by decide)

namespace Path

-- The path of an entry in the directory that a path leads to.
def below (p : Path) (name : String) : Path :=
  ⟨p.anchor, p.parts ++ [name]⟩

-- A path that never goes up again.
def Plain (p : Path) : Prop :=
  ".." ∉ p.parts

instance (p : Path) : Decidable p.Plain :=
  inferInstanceAs (Decidable (¬_))

-- A path whose text the system takes.
def Fitting (p : Path) : Prop :=
  '\x00' ∉ p.text.toList ∧ Utf8.size p.text < Disk.pathLimit

-- A path whose names the system takes as well.
def Usable (p : Path) : Prop :=
  p.Fitting ∧ ∀ part ∈ p.parts, Utf8.size part ≤ Disk.nameLimit

theorem plain_below {p : Path} {name : String} (hp : p.Plain) (hname : name ≠ "..") :
    (p.below name).Plain := by
  rw [Plain, below, List.mem_append, List.mem_singleton, not_or]
  exact ⟨hp, Ne.symm hname⟩

theorem text_below_of_ne {p : Path} (hparts : p.parts ≠ []) (name : String) :
    (p.below name).text = p.text ++ "/" ++ name := by
  obtain ⟨anchor, parts⟩ := p
  have hnames : "/".intercalate (parts ++ [name]) = "/".intercalate parts ++ "/" ++ name := by
    rw [String.intercalate_append_of_ne_nil hparts (by simp), String.intercalate_singleton]
  have hempty : parts.isEmpty = false := List.isEmpty_eq_false_iff.mpr hparts
  cases anchor <;> simp [below, text, hnames, hempty, String.append_assoc]

theorem size_text_below {p : Path} (hparts : p.parts ≠ []) (name : String) :
    Utf8.size (p.below name).text = Utf8.size p.text + Utf8.size name + 1 := by
  have hslash : Utf8.size "/" = 1 := by decide
  rw [text_below_of_ne hparts, Utf8.size_append, Utf8.size_append, hslash]
  omega

-- The text of a path goes on from the text of the path above it. Only the path without components
-- has a text that is not part of any other.
theorem text_below (p : Path) (name : String) :
    p.text = "." ∧ (p.below name).text = name ∨
      ∃ between, (between = "/" ∨ between = "") ∧ (p.below name).text = p.text ++ between ++ name := by
  by_cases hparts : p.parts = []
  · obtain ⟨anchor, parts⟩ := p
    obtain rfl : parts = [] := hparts
    cases anchor with
    | here => exact Or.inl ⟨rfl, by simp [below, text]⟩
    | root => exact Or.inr ⟨"", Or.inr rfl, by simp [below, text]⟩
    | doubleRoot => exact Or.inr ⟨"", Or.inr rfl, by simp [below, text]⟩
  · exact Or.inr ⟨"/", Or.inl rfl, text_below_of_ne hparts name⟩

theorem zero_mem_text_below (p : Path) (name : String) :
    '\x00' ∈ (p.below name).text.toList ↔ '\x00' ∈ p.text.toList ∨ '\x00' ∈ name.toList := by
  rcases text_below p name with ⟨hdot, htext⟩ | ⟨between, hbetween, htext⟩
  · simp [hdot, htext]
  · rcases hbetween with rfl | rfl <;> simp [htext]

theorem zero_mem_text_iff (p : Path) :
    '\x00' ∈ p.text.toList ↔ ∃ part ∈ p.parts, '\x00' ∈ part.toList := by
  obtain ⟨anchor, parts⟩ := p
  induction parts using List.reverseRecOn with
  | nil => cases anchor <;> simp [text]
  | append_singleton parts name ih =>
      rw [show (⟨anchor, parts ++ [name]⟩ : Path) = Path.below ⟨anchor, parts⟩ name from rfl,
        zero_mem_text_below, ih, below]
      simp [or_and_right, exists_or]

theorem fitting_of_below {p : Path} {name : String} (h : (p.below name).Fitting) : p.Fitting := by
  obtain ⟨hzero, hsize⟩ := h
  refine ⟨fun hmem => hzero ((zero_mem_text_below p name).mpr (Or.inl hmem)), ?_⟩
  rcases text_below p name with ⟨hdot, _⟩ | ⟨between, _, htext⟩
  · rw [hdot]
    decide
  · rw [htext, Utf8.size_append, Utf8.size_append] at hsize
    omega

-- A proper name leads one step down.

theorem child_of_notMem (p : Path) {name : String} (hempty : name ≠ "") (hdot : name ≠ ".")
    (hslash : '/' ∉ name.toList) : p.child name = p.below name := by
  have hparts : partsOf name = [name] := by
    have hsplit := Text.splitFrom_of_notMem [] name.toList [] hslash
    simp only [List.reverse_nil, List.nil_append] at hsplit
    simp [partsOf, Text.split, hsplit, hempty, hdot]
  have hslashes : name.toList.takeWhile (· == '/') = [] := by
    cases hname : name.toList with
    | nil => rfl
    | cons c cs =>
        have hc : c ≠ '/' := by
          rintro rfl
          exact hslash (by simp [hname])
        simp [hc]
  simp [child, ofText, join, below, hparts, hslashes]

theorem child_of_isFileName (p : Path) {name : String} (h : isFileName name = true) :
    p.child name = p.below name := by
  simp only [isFileName, Bool.and_eq_true, bne_iff_ne, List.all_eq_true] at h
  obtain ⟨⟨⟨hempty, hdot⟩, _⟩, hchars⟩ := h
  exact child_of_notMem p hempty hdot fun hmem => (hchars '/' hmem).1 rfl

theorem parent_below (p : Path) (name : String) : (p.below name).parent = p := by
  simp [parent, below]

end Path

namespace Disk

-- How components are followed.

theorem walk_append (root : Folder) (spot : Location) (parts more : List String) :
    walk root spot (parts ++ more) = (walk root spot parts).bind fun next => walk root next more := by
  induction parts generalizing spot with
  | nil => rfl
  | cons part parts ih =>
      rw [List.cons_append, walk, walk]
      cases hspot : root.find? spot with
      | none => rfl
      | some e =>
          cases e with
          | file content => rfl
          | folder inner =>
              simp only
              split
              · exact ih _
              · split
                · rfl
                · exact ih _

-- Components that never go up lead to the location they spell, through directories only.

theorem walk_plain {root : Folder} {spot found : Location} {parts : List String} (hparts : ".." ∉ parts)
    (h : walk root spot parts = .ok found) :
    found = spot ++ parts ∧ ∀ part ∈ parts, Utf8.size part ≤ nameLimit := by
  induction parts generalizing spot with
  | nil => exact ⟨by simpa [walk] using h.symm, by simp⟩
  | cons part parts ih =>
      rw [List.mem_cons, not_or] at hparts
      rw [walk] at h
      split at h
      · cases h
      · cases h
      · rw [if_neg (Ne.symm hparts.1)] at h
        split at h
        · cases h
        · rename_i hsize
          obtain ⟨hfound, hsizes⟩ := ih hparts.2 h
          refine ⟨by rw [hfound, List.append_assoc, List.singleton_append], fun other hother => ?_⟩
          cases List.mem_cons.mp hother with
          | inl hother => rw [hother]; omega
          | inr hother => exact hsizes other hother

theorem walk_of_find? {root : Folder} {spot : Location} {parts : List String} {e : Entry}
    (hparts : ".." ∉ parts) (hsizes : ∀ part ∈ parts, Utf8.size part ≤ nameLimit)
    (h : root.find? (spot ++ parts) = some e) : walk root spot parts = .ok (spot ++ parts) := by
  induction parts generalizing spot with
  | nil => rw [walk, List.append_nil]
  | cons part parts ih =>
      rw [List.mem_cons, not_or] at hparts
      obtain ⟨inner, hinner, _⟩ := Folder.find?_above h
      have hsize := hsizes part List.mem_cons_self
      rw [walk, hinner]
      simp only [if_neg (Ne.symm hparts.1), if_neg (Nat.not_lt.mpr hsize)]
      rw [ih hparts.2 (fun other hother => hsizes other (List.mem_cons_of_mem part hother))]
      · simp
      · simpa using h

theorem walk_one (root : Folder) (spot : Location) (name : String) :
    walk root spot [name] =
      match root.find? spot with
      | none => .error .noEntry
      | some (.file _) => .error .notFolder
      | some (.folder _) =>
        if nameLimit < Utf8.size name then .error .nameTooLong
        else .ok (if name = ".." then spot.dropLast else spot ++ [name]) := by
  have hup : ¬nameLimit < Utf8.size ".." := by decide
  rw [walk]
  cases hspot : root.find? spot with
  | none => rfl
  | some e =>
      cases e with
      | file content => rfl
      | folder inner =>
          by_cases hname : name = ".."
          · subst hname
            simp only [if_pos, if_neg hup, walk]
          · simp only [if_neg hname, walk]

-- What the text of a path alone is refused for.
def textRefusal? (p : Path) : Option Refusal :=
  if p.text.toList.contains '\x00' then some .zeroByte
  else if pathLimit ≤ Utf8.size p.text then some .nameTooLong
  else none

theorem textRefusal?_eq_none_iff (p : Path) : textRefusal? p = none ↔ p.Fitting := by
  unfold textRefusal? Path.Fitting
  by_cases hzero : '\x00' ∈ p.text.toList
  · simp [hzero]
  · by_cases hsize : pathLimit ≤ Utf8.size p.text
    · simp [hzero, hsize]
    · simp [hzero, hsize]
      omega

theorem textRefusal?_cases (p : Path) :
    textRefusal? p = some .zeroByte ∨ textRefusal? p = some .nameTooLong ∨ textRefusal? p = none := by
  unfold textRefusal?
  split
  · exact Or.inl rfl
  · split
    · exact Or.inr (Or.inl rfl)
    · exact Or.inr (Or.inr rfl)

theorem locate_eq (d : Disk) (p : Path) :
    d.locate p =
      match textRefusal? p with
      | some refusal => .error refusal
      | none => walk d.root (d.start p) p.parts := by
  unfold locate textRefusal?
  split
  · rfl
  · split <;> rfl

theorem walk_ne_zeroByte (root : Folder) (spot : Location) (parts : List String) :
    walk root spot parts ≠ .error .zeroByte := by
  induction parts generalizing spot with
  | nil => simp [walk]
  | cons part parts ih =>
      rw [walk]
      split
      · simp
      · simp
      · split
        · exact ih _
        · split
          · simp
          · exact ih _

theorem locate_eq_zeroByte_iff (d : Disk) (p : Path) :
    d.locate p = .error .zeroByte ↔ '\x00' ∈ p.text.toList := by
  unfold locate
  by_cases hzero : '\x00' ∈ p.text.toList
  · simp [hzero]
  · by_cases hsize : pathLimit ≤ Utf8.size p.text
    · simp [hzero, hsize]
    · simp [hzero, hsize, walk_ne_zeroByte]

theorem locate_eq_ok_iff (d : Disk) (p : Path) (spot : Location) :
    d.locate p = .ok spot ↔ p.Fitting ∧ walk d.root (d.start p) p.parts = .ok spot := by
  rw [locate_eq, ← textRefusal?_eq_none_iff]
  cases textRefusal? p <;> simp

theorem entry_eq (d : Disk) (p : Path) :
    d.entry p =
      match d.locate p with
      | .error refusal => .error refusal
      | .ok spot =>
        match d.root.find? spot with
        | some e => .ok e
        | none => .error .noEntry := by
  rw [entry]
  cases d.locate p with
  | error refusal => rfl
  | ok spot =>
      simp only [bind, Except.bind]
      cases d.root.find? spot <;> rfl

theorem entry_eq_ok_iff (d : Disk) (p : Path) (e : Entry) :
    d.entry p = .ok e ↔ ∃ spot, d.locate p = .ok spot ∧ d.root.find? spot = some e := by
  rw [entry_eq]
  cases d.locate p with
  | error refusal => simp
  | ok spot => cases hfind : d.root.find? spot <;> simp [hfind]

-- One step down from a directory that a path leads to.
theorem locate_below {d : Disk} {p : Path} {above : Location} {inner : Folder} (habove : d.locate p = .ok above)
    (hinner : d.root.find? above = some (.folder inner)) (name : String) :
    d.locate (p.below name) =
      match textRefusal? (p.below name) with
      | some refusal => .error refusal
      | none =>
        if nameLimit < Utf8.size name then .error .nameTooLong
        else .ok (if name = ".." then above.dropLast else above ++ [name]) := by
  have hwalk := ((locate_eq_ok_iff d p above).mp habove).2
  rw [locate_eq, Path.below, walk_append]
  rw [start] at hwalk ⊢
  simp only [hwalk, Except.bind, walk_one, hinner]

theorem locate_below_eq_ok_iff (d : Disk) (p : Path) {name : String} (hname : name ≠ "..")
    (found : Location) :
    d.locate (p.below name) = .ok found ↔
      (p.below name).Fitting ∧ Utf8.size name ≤ nameLimit ∧
        ∃ above inner, d.locate p = .ok above ∧ d.root.find? above = some (.folder inner) ∧
          found = above ++ [name] := by
  constructor
  · intro h
    obtain ⟨hfit, hwalk⟩ := (locate_eq_ok_iff d _ found).mp h
    rw [Path.below, walk_append] at hwalk
    cases habove : walk d.root (d.start ⟨p.anchor, p.parts ++ [name]⟩) p.parts with
    | error refusal => rw [habove] at hwalk; cases hwalk
    | ok above =>
        rw [habove] at hwalk
        simp only [Except.bind, walk_one, if_neg hname] at hwalk
        split at hwalk
        · cases hwalk
        · cases hwalk
        · rename_i inner hinner
          split at hwalk
          · cases hwalk
          · rename_i hsize
            refine ⟨hfit, by omega, above, inner, ?_, hinner, (Except.ok.inj hwalk).symm⟩
            exact (locate_eq_ok_iff d p above).mpr ⟨Path.fitting_of_below hfit, habove⟩
  · rintro ⟨hfit, hsize, above, inner, hlocate, hinner, rfl⟩
    have htext := (textRefusal?_eq_none_iff _).mpr hfit
    simp only [locate_below hlocate hinner, htext, if_neg (Nat.not_lt.mpr hsize), if_neg hname]

theorem entry_below_eq_ok_iff (d : Disk) (p : Path) {name : String} (hname : name ≠ "..") (e : Entry) :
    d.entry (p.below name) = .ok e ↔
      (p.below name).Fitting ∧ Utf8.size name ≤ nameLimit ∧
        ∃ inner, d.entry p = .ok (.folder inner) ∧ inner.get? name = some e := by
  rw [entry_eq_ok_iff]
  constructor
  · rintro ⟨found, hlocate, hfind⟩
    obtain ⟨hfit, hsize, above, inner, habove, hinner, rfl⟩ :=
      (locate_below_eq_ok_iff d p hname found).mp hlocate
    rw [Folder.find?_snoc hinner] at hfind
    exact ⟨hfit, hsize, inner, (entry_eq_ok_iff d p _).mpr ⟨above, habove, hinner⟩, hfind⟩
  · rintro ⟨hfit, hsize, inner, hentry, hget⟩
    obtain ⟨above, habove, hinner⟩ := (entry_eq_ok_iff d p _).mp hentry
    refine ⟨above ++ [name], (locate_below_eq_ok_iff d p hname _).mpr ?_, ?_⟩
    · exact ⟨hfit, hsize, above, inner, habove, hinner, rfl⟩
    · rw [Folder.find?_snoc hinner, hget]

-- The location of a path that never goes up again.
def spot (d : Disk) (p : Path) : Location :=
  d.start p ++ p.parts

theorem locate_plain {d : Disk} {p : Path} {found : Location} (hp : p.Plain)
    (h : d.locate p = .ok found) : found = d.spot p ∧ p.Usable := by
  obtain ⟨hfit, hwalk⟩ := (locate_eq_ok_iff d p found).mp h
  obtain ⟨hfound, hsizes⟩ := walk_plain hp hwalk
  exact ⟨hfound, hfit, hsizes⟩

theorem entry_plain_iff (d : Disk) {p : Path} (hp : p.Plain) (e : Entry) :
    d.entry p = .ok e ↔ p.Usable ∧ d.root.find? (d.spot p) = some e := by
  rw [entry_eq_ok_iff]
  constructor
  · rintro ⟨found, hlocate, hfind⟩
    obtain ⟨rfl, husable⟩ := locate_plain hp hlocate
    exact ⟨husable, hfind⟩
  · rintro ⟨⟨hfit, hsizes⟩, hfind⟩
    exact ⟨d.spot p, (locate_eq_ok_iff d p _).mpr ⟨hfit, walk_of_find? hp hsizes hfind⟩, hfind⟩

theorem spot_below (d : Disk) (p : Path) (name : String) : d.spot (p.below name) = d.spot p ++ [name] := by
  rw [spot, spot, Path.below, ← List.append_assoc]
  rfl

-- The questions that are asked of the disk, by the entry that a path leads to.

theorem test_eq_true_iff (d : Disk) (p : Path) (holds : Entry → Bool) :
    d.test p holds = .ok true ↔ ∃ e, d.entry p = .ok e ∧ holds e = true := by
  rw [test]
  cases d.entry p with
  | ok e => simp
  | error refusal => cases habsent : refusal.meansAbsent <;> simp [habsent]

theorem walk_error {root : Folder} {spot : Location} {parts : List String} {refusal : Refusal}
    (h : walk root spot parts = .error refusal) : refusal = .nameTooLong ∨ refusal.meansAbsent = true := by
  induction parts generalizing spot with
  | nil => cases h
  | cons part parts ih =>
      rw [walk] at h
      split at h
      · cases h
        exact Or.inr rfl
      · cases h
        exact Or.inr rfl
      · split at h
        · exact ih h
        · split at h
          · cases h
            exact Or.inl rfl
          · exact ih h

theorem entry_error {d : Disk} {p : Path} {refusal : Refusal} (h : d.entry p = .error refusal) :
    refusal = .nameTooLong ∨ refusal.meansAbsent = true := by
  rw [entry_eq, locate_eq] at h
  rcases textRefusal?_cases p with htext | htext | htext
  · rw [htext] at h
    cases h
    exact Or.inr rfl
  · rw [htext] at h
    cases h
    exact Or.inl rfl
  · rw [htext] at h
    dsimp only at h
    cases hwalk : walk d.root (d.start p) p.parts with
    | error other =>
        rw [hwalk] at h
        cases h
        exact walk_error hwalk
    | ok spot =>
        rw [hwalk] at h
        dsimp only at h
        split at h
        · cases h
        · cases h
          exact Or.inr rfl

-- A test fails for one reason only: a path, or a name in it, is too long.
theorem test_eq_error_iff (d : Disk) (p : Path) (holds : Entry → Bool) (e : DiskError) :
    d.test p holds = .error e ↔ d.entry p = .error .nameTooLong ∧ e = ⟨.nameTooLong, some p.text⟩ := by
  rw [test]
  cases hentry : d.entry p with
  | ok found => simp
  | error refusal =>
      dsimp only
      rcases entry_error hentry with rfl | habsent
      · simp [Refusal.meansAbsent, eq_comm]
      · rw [habsent]
        simp only [if_true, reduceCtorEq, Except.error.injEq, false_iff, not_and]
        rintro rfl
        cases habsent

theorem hasEntry_eq_error_iff (d : Disk) (p : Path) (e : DiskError) :
    d.hasEntry p = .error e ↔ d.entry p = .error .nameTooLong ∧ e = ⟨.nameTooLong, some p.text⟩ :=
  test_eq_error_iff d p _ e

theorem isFolder_eq_error_iff (d : Disk) (p : Path) (e : DiskError) :
    d.isFolder p = .error e ↔ d.entry p = .error .nameTooLong ∧ e = ⟨.nameTooLong, some p.text⟩ :=
  test_eq_error_iff d p _ e

theorem hasEntry_eq_true_iff (d : Disk) (p : Path) : d.hasEntry p = .ok true ↔ ∃ e, d.entry p = .ok e := by
  simp [hasEntry, test_eq_true_iff]

theorem isFolder_eq_true_iff (d : Disk) (p : Path) :
    d.isFolder p = .ok true ↔ ∃ inner, d.entry p = .ok (.folder inner) := by
  rw [isFolder, test_eq_true_iff]
  constructor
  · rintro ⟨e, he, hfolder⟩
    cases e with
    | file content => cases hfolder
    | folder inner => exact ⟨inner, he⟩
  · rintro ⟨inner, he⟩
    exact ⟨_, he, rfl⟩

-- A name that can be asked about in the directory that a path leads to. What is in the directory has
-- nothing to do with it.
def Askable (p : Path) (name : String) : Prop :=
  textRefusal? (p.below name) = some .zeroByte ∨
    textRefusal? (p.below name) = none ∧ Utf8.size name ≤ nameLimit

theorem isFolder_below_eq_ok_iff {d : Disk} {p : Path} {inner : Folder}
    (h : d.entry p = .ok (.folder inner)) (name : String) :
    (∃ answer, d.isFolder (p.below name) = .ok answer) ↔ Askable p name := by
  unfold Askable
  obtain ⟨above, habove, hinner⟩ := (entry_eq_ok_iff d p _).mp h
  rw [isFolder, test, entry_eq, locate_below habove hinner]
  rcases textRefusal?_cases (p.below name) with htext | htext | htext
  · simp [htext, Refusal.meansAbsent]
  · simp [htext, Refusal.meansAbsent]
  · by_cases hsize : nameLimit < Utf8.size name
    · simp [htext, hsize, Refusal.meansAbsent, Nat.not_le.mpr hsize]
    · simp only [htext, if_neg hsize, Nat.not_lt.mp hsize, and_self, or_true, iff_true]
      split
      · exact ⟨_, rfl⟩
      · rename_i refusal hrefusal
        split at hrefusal
        · cases hrefusal
        · cases hrefusal
          exact ⟨false, rfl⟩

theorem read_eq (d : Disk) (p : Path) :
    d.read p =
      match d.entry p with
      | .ok (.file content) => .ok content
      | .ok (.folder _) => .error ⟨.isFolder, some p.text⟩
      | .error refusal => .error ⟨refusal, some p.text⟩ := by
  rw [read]
  cases d.entry p with
  | error refusal => rfl
  | ok e => cases e <;> rfl

theorem read_eq_ok_iff (d : Disk) (p : Path) (content : List UInt8) :
    d.read p = .ok content ↔ d.entry p = .ok (.file content) := by
  rw [read_eq]
  cases d.entry p with
  | error refusal => simp
  | ok e => cases e <;> simp

-- A path that leads to something leads where its text alone leads.

theorem walk_eq_foldl {root : Folder} {spot found : Location} {parts : List String}
    (h : walk root spot parts = .ok found) :
    found = parts.foldl (fun spot part => if part = ".." then spot.dropLast else spot ++ [part]) spot := by
  induction parts generalizing spot with
  | nil => exact (Except.ok.inj h).symm
  | cons part parts ih =>
      rw [walk] at h
      split at h
      · cases h
      · cases h
      · rw [List.foldl_cons]
        split at h
        · rename_i hup
          rw [if_pos hup]
          exact ih h
        · rename_i hup
          split at h
          · cases h
          · rw [if_neg hup]
            exact ih h

theorem locate_eq_resolve {d : Disk} {p : Path} {spot : Location} (h : d.locate p = .ok spot) :
    spot = d.resolve p :=
  walk_eq_foldl ((locate_eq_ok_iff d p spot).mp h).2

theorem find?_resolve {d : Disk} {p : Path} {content : List UInt8} (h : d.read p = .ok content) :
    d.root.find? (d.resolve p) = some (.file content) := by
  obtain ⟨spot, hlocate, hfind⟩ := (entry_eq_ok_iff d p _).mp ((read_eq_ok_iff d p content).mp h)
  rw [← locate_eq_resolve hlocate]
  exact hfind

theorem list_eq (d : Disk) (p : Path) :
    d.list p =
      if p.text ∈ d.limits.unlistable then .error ⟨.denied, some p.text⟩
      else
        match d.entry p with
        | .ok (.file _) => .error ⟨.notFolder, some p.text⟩
        | .ok (.folder inner) => .ok (inner.names.map p.below)
        | .error refusal => .error ⟨refusal, some p.text⟩ := by
  rw [list]
  by_cases hdenied : p.text ∈ d.limits.unlistable
  · rw [if_pos hdenied, if_pos (List.contains_iff_mem.mpr hdenied)]
    rfl
  · rw [if_neg hdenied, if_neg fun h => hdenied (List.contains_iff_mem.mp h)]
    cases d.entry p with
    | error refusal => rfl
    | ok e => cases e <;> rfl

theorem list_eq_ok_iff (d : Disk) (p : Path) (paths : List Path) :
    d.list p = .ok paths ↔
      p.text ∉ d.limits.unlistable ∧
        ∃ inner, d.entry p = .ok (.folder inner) ∧ paths = inner.names.map p.below := by
  rw [list_eq]
  by_cases hdenied : p.text ∈ d.limits.unlistable
  · simp [hdenied]
  · cases d.entry p with
    | error refusal => simp [hdenied]
    | ok e => cases e <;> simp [hdenied, eq_comm]

end Disk

end CrateDocs
