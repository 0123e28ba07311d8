import CrateDocs.Proofs.Disk.Marks

namespace CrateDocs.Disk

variable {d : Disk}

-- Whether a file is in the way at a location.
def blocks (d : Disk) (location : Location) : Bool :=
  match d.mark? location with
  | some (.file _) => true
  | _ => false

-- What is in the way of directories that are made from a location on, the components given back to front.
-- A file is, and so is a name that is too long, whichever comes first.
def obstacle? (d : Disk) (start : Location) : List String → Option Refusal
  | [] => if d.blocks start then some .taken else none
  | part :: above =>
    match obstacle? d start above with
    | some .taken => some .notFolder
    | some refusal => some refusal
    | none =>
      if nameLimit < Utf8.size part then some .nameTooLong
      else if d.blocks (start ++ (part :: above).reverse) then some .taken else none

theorem obstacle?_cons_of_some {start : Location} (part : String) {above : List String} {refusal : Refusal}
    (h : d.obstacle? start above = some refusal) (hrefusal : refusal ≠ .taken) :
    d.obstacle? start (part :: above) = some refusal := by
  rw [obstacle?, h]
  cases refusal <;> first | rfl | exact absurd rfl hrefusal

-- How far components lead, and what is in the way. Up to what is in the way there is something everywhere.
def Leads (d : Disk) (start : Location) (back : List String) : Except Refusal Location → Prop
  | .ok found => found = start ++ back.reverse ∧
      d.obstacle? start back = (if d.blocks found then some .taken else none) ∧
      ∀ front, front <:+ back → front ≠ back → d.mark? (start ++ front.reverse) = some .folder
  | .error refusal =>
    if refusal = .noEntry then back ≠ [] ∧ d.mark? (start ++ back.tail.reverse) = none
    else d.obstacle? start back = some refusal ∧ refusal ≠ .taken ∧
      ∀ front, front <:+ back → d.obstacle? start front = none → d.mark? (start ++ front.reverse) ≠ none

section leads

variable {start : Location} {part : String} {above : List String}

theorem Leads.of_error {refusal : Refusal} (h : Leads d start above (.error refusal)) (part : String) :
    Leads d start (part :: above) (.error refusal) := by
  rw [Leads] at h ⊢
  by_cases hnone : refusal = .noEntry
  · rw [if_pos hnone] at h ⊢
    refine ⟨List.cons_ne_nil _ _, ?_⟩
    obtain ⟨last, rest, rfl⟩ := List.exists_cons_of_ne_nil h.1
    rw [List.tail_cons, List.reverse_cons, ← List.append_assoc]
    exact mark?_below_none h.2 last
  · rw [if_neg hnone] at h ⊢
    obtain ⟨hobstacle, htaken, hfree⟩ := h
    have hmore := obstacle?_cons_of_some part hobstacle htaken
    refine ⟨hmore, htaken, fun front hfront hnothing => ?_⟩
    rcases List.suffix_cons_iff.mp hfront with rfl | hfront
    · rw [hmore] at hnothing
      cases hnothing
    · exact hfree front hfront hnothing

-- What stops the last component.
theorem leads_stopped {refusal : Refusal} (hnone : refusal ≠ .noEntry) (htaken : refusal ≠ .taken)
    (hobstacle : d.obstacle? start (part :: above) = some refusal)
    (habove : ∀ front, front <:+ above → d.mark? (start ++ front.reverse) ≠ none) :
    Leads d start (part :: above) (.error refusal) := by
  rw [Leads, if_neg hnone]
  refine ⟨hobstacle, htaken, fun front hfront hnothing => ?_⟩
  rcases List.suffix_cons_iff.mp hfront with rfl | hfront
  · rw [hobstacle] at hnothing
    cases hnothing
  · exact habove front hfront

theorem Leads.of_file (h : Leads d start above (.ok (start ++ above.reverse))) {content : List UInt8}
    (hmark : d.mark? (start ++ above.reverse) = some (.file content)) :
    Leads d start (part :: above) (.error .notFolder) := by
  obtain ⟨_, hobstacle, habove⟩ := h
  have hblocks : d.blocks (start ++ above.reverse) = true := by rw [blocks, hmark]
  rw [hblocks, if_pos rfl] at hobstacle
  refine leads_stopped (by decide) (by decide) (by rw [obstacle?, hobstacle]) fun front hfront => ?_
  by_cases hwhole : front = above
  · simp [hwhole, hmark]
  · simp [habove front hfront hwhole]

theorem Leads.of_folder (h : Leads d start above (.ok (start ++ above.reverse))) (part : String)
    (hmark : d.mark? (start ++ above.reverse) = some .folder) :
    Leads d start (part :: above)
      (if nameLimit < Utf8.size part then .error .nameTooLong else .ok (start ++ (part :: above).reverse)) := by
  obtain ⟨_, hobstacle, habove⟩ := h
  have hblocks : d.blocks (start ++ above.reverse) = false := by rw [blocks, hmark]
  rw [hblocks, if_neg Bool.false_ne_true] at hobstacle
  have hfolders : ∀ front, front <:+ above → d.mark? (start ++ front.reverse) = some .folder := by
    intro front hfront
    by_cases hwhole : front = above
    · rw [hwhole, hmark]
    · exact habove front hfront hwhole
  have hmore : d.obstacle? start (part :: above) =
      if nameLimit < Utf8.size part then some .nameTooLong
      else if d.blocks (start ++ (part :: above).reverse) then some .taken else none := by
    rw [obstacle?, hobstacle]
  by_cases hsize : nameLimit < Utf8.size part
  · rw [if_pos hsize] at hmore ⊢
    exact leads_stopped (by decide) (by decide) hmore fun front hfront => by simp [hfolders front hfront]
  · rw [if_neg hsize] at hmore ⊢
    refine ⟨rfl, hmore, fun front hfront hwhole => ?_⟩
    rcases List.suffix_cons_iff.mp hfront with hall | hfront
    · exact absurd hall hwhole
    · exact hfolders front hfront

end leads

theorem leads_walk (start : Location) {back : List String} (hback : ".." ∉ back) :
    Leads d start back (walk d.root start back.reverse) := by
  induction back with
  | nil => simp [Leads, walk, obstacle?]
  | cons part above ih =>
      rw [List.mem_cons, not_or] at hback
      have hfirst := ih hback.2
      rw [List.reverse_cons, walk_append]
      cases hwalk : walk d.root start above.reverse with
      | error refusal =>
          rw [hwalk] at hfirst
          exact hfirst.of_error part
      | ok found =>
          rw [hwalk] at hfirst
          obtain rfl := hfirst.1
          dsimp only [Except.bind]
          rw [walk_one, if_neg (Ne.symm hback.1)]
          rcases hfind : d.root.find? (start ++ above.reverse) with _ | (content | inner)
          · exact ⟨List.cons_ne_nil _ _, (mark?_eq_none_iff d _).mpr hfind⟩
          · exact hfirst.of_file ((mark?_eq_file_iff d _ content).mpr hfind)
          · have hfolder := hfirst.of_folder part ((mark?_eq_folder_iff d _).mpr ⟨inner, hfind⟩)
            rwa [List.reverse_cons, ← List.append_assoc] at hfolder

-- Why an operation failed, if it did.
def refusalOf? : Except DiskTrouble Unit → Option Refusal
  | .ok () => none
  | .error trouble => some trouble.error.refusal

-- The same disk but for new directories.
structure Grows (d left : Disk) (made : Location → Prop) : Prop where
  here : left.here = d.here
  limits : left.limits = d.limits
  marks : ∀ l m, left.mark? l = some m ↔ d.mark? l = some m ∨ d.mark? l = none ∧ made l ∧ m = .folder

theorem Grows.of_same {made : Location → Prop} (h : ∀ l, made l → d.mark? l ≠ none) : Grows d d made where
  here := rfl
  limits := rfl
  marks := by
    intro l m
    constructor
    · exact Or.inl
    · rintro (hm | ⟨hnone, hmade, _⟩)
      · exact hm
      · exact absurd hnone (h l hmade)

theorem Grows.congr {left : Disk} {made made' : Location → Prop} (h : Grows d left made)
    (hmade : ∀ l, d.mark? l = none → (made l ↔ made' l)) : Grows d left made' where
  here := h.here
  limits := h.limits
  marks := by
    intro l m
    rw [h.marks]
    refine or_congr_right (and_congr_right fun hnone => ?_)
    rw [hmade l hnone]

theorem Grows.mark?_of_ne {left : Disk} {made : Location → Prop} (h : Grows d left made) {l : Location}
    (hl : d.mark? l ≠ none) : left.mark? l = d.mark? l := by
  obtain ⟨m, hm⟩ := Option.ne_none_iff_exists'.mp hl
  rw [hm]
  exact (h.marks l m).mpr (Or.inl hm)

theorem Grows.mark?_of_made {left : Disk} {made : Location → Prop} (h : Grows d left made) {l : Location}
    (hl : d.mark? l = none) (hmade : made l) : left.mark? l = some .folder :=
  (h.marks l .folder).mpr (Or.inr ⟨hl, hmade, rfl⟩)

theorem Grows.mark?_of_not {left : Disk} {made : Location → Prop} (h : Grows d left made) {l : Location}
    (hl : d.mark? l = none) (hmade : ¬made l) : left.mark? l = none := by
  rw [Option.eq_none_iff_forall_ne_some]
  intro m hm
  rcases (h.marks l m).mp hm with hbefore | ⟨_, hthere, _⟩
  · rw [hl] at hbefore
    cases hbefore
  · exact hmade hthere

-- One directory more.
theorem Grows.put {left : Disk} {made : Location → Prop} (h : Grows d left made) {above : Location} {name : String}
    (habove : left.mark? above = some .folder) (hnone : d.mark? (above ++ [name]) = none)
    (hnew : ¬made (above ++ [name])) :
    Grows d (left.put (above ++ [name]) (.folder .empty)) fun l => l = above ++ [name] ∨ made l where
  here := h.here
  limits := h.limits
  marks := by
    intro l m
    rw [mark?_put_folder habove (h.mark?_of_not hnone hnew)]
    by_cases hl : l = above ++ [name]
    · rw [hl, Function.update_self, hnone]
      simp [eq_comm]
    · rw [Function.update_of_ne hl, h.marks]
      simp [hl]

theorem Grows.trans {left last : Disk} {made more : Location → Prop} (h : Grows d left made) (h' : Grows left last more) :
    Grows d last fun l => made l ∨ more l where
  here := h'.here.trans h.here
  limits := h'.limits.trans h.limits
  marks := by
    intro l m
    rw [h'.marks]
    cases hl : d.mark? l with
    | some found =>
        have hleft := h.mark?_of_ne (l := l) (by simp [hl])
        rw [hleft, hl]
        simp
    | none =>
        by_cases hmade : made l
        · rw [h.mark?_of_made hl hmade]
          simp [hmade, eq_comm]
        · rw [h.mark?_of_not hl hmade]
          simp [hmade]

theorem Grows.blocks {left : Disk} {made : Location → Prop} (h : Grows d left made) (l : Location) :
    left.blocks l = d.blocks l := by
  rw [Disk.blocks, Disk.blocks]
  cases hl : d.mark? l with
  | some found => rw [h.mark?_of_ne (by simp [hl]), hl]
  | none =>
      by_cases hmade : made l
      · rw [h.mark?_of_made hl hmade]
      · rw [h.mark?_of_not hl hmade]

theorem obstacle?_congr {e : Disk} (start : Location) (back : List String)
    (h : ∀ front, front <:+ back → e.blocks (start ++ front.reverse) = d.blocks (start ++ front.reverse)) :
    e.obstacle? start back = d.obstacle? start back := by
  induction back with
  | nil =>
      have hstart := h [] (List.suffix_refl [])
      rw [List.reverse_nil, List.append_nil] at hstart
      rw [obstacle?, obstacle?, hstart]
  | cons part above ih =>
      have habove := ih fun front hfront => h front (hfront.trans (List.suffix_cons part above))
      rw [obstacle?, obstacle?, habove, h _ (List.suffix_refl _)]

-- A file at the end is the last thing in the way.
theorem blocks_of_taken {start : Location} {back : List String} (h : d.obstacle? start back = some .taken) :
    d.blocks (start ++ back.reverse) = true := by
  cases back with
  | nil =>
      rw [obstacle?] at h
      split at h
      · rwa [List.reverse_nil, List.append_nil]
      · cases h
  | cons part above =>
      rw [obstacle?] at h
      split at h
      · cases h
      · rename_i refusal hne heq
        cases h
        exact (hne rfl).elim
      · split at h
        · cases h
        · split at h
          · assumption
          · cases h

theorem makeFolder_eq (d : Disk) (p : Path) :
    d.makeFolder p =
      match d.locate p with
      | .error refusal => .error ⟨refusal, some p.text⟩
      | .ok spot =>
        match d.mark? spot with
        | some _ => .error ⟨.taken, some p.text⟩
        | none => .ok (d.put spot (.folder .empty)) := by
  rw [makeFolder]
  cases d.locate p with
  | error refusal => rfl
  | ok spot =>
      simp only [bind, Except.bind, mark?]
      cases d.root.find? spot <;> rfl

-- A refusal to make a directory stands if the path leads nowhere, or to a file.
theorem refusalOf?_unlessThere {p : Path} {e : DiskError}
    (h : d.locate p = .error e.refusal ∨ ∃ spot content, d.locate p = .ok spot ∧ d.mark? spot = some (.file content)) :
    refusalOf? (unlessThere d p e).1 = some e.refusal := by
  rw [unlessThere, isFolder, test, entry_eq]
  rcases h with hlocate | ⟨spot, content, hlocate, hmark⟩
  · rw [hlocate]
    dsimp only
    cases e.refusal.meansAbsent <;> rfl
  · rw [hlocate]
    dsimp only
    rw [(mark?_eq_file_iff d spot content).mp hmark]
    rfl

theorem unlessThere_of_folder {p : Path} {spot : Location} (hlocate : d.locate p = .ok spot)
    (hmark : d.mark? spot = some .folder) (e : DiskError) : unlessThere d p e = (.ok (), d) := by
  obtain ⟨inner, hinner⟩ := (mark?_eq_folder_iff d spot).mp hmark
  rw [unlessThere, isFolder, test, entry_eq, hlocate]
  dsimp only
  rw [hinner]

section back

variable (anchor : Anchor)

-- The directories that are made on the way to the last one: all up to what is in the way.
def MadeBack (d : Disk) (start : Location) (back : List String) (l : Location) : Prop :=
  ∃ front, front <:+ back ∧ l = start ++ front.reverse ∧ d.obstacle? start front = none

theorem madeBack_cons {start : Location} {part : String} {above : List String} {l : Location} :
    MadeBack d start (part :: above) l ↔
      l = start ++ (part :: above).reverse ∧ d.obstacle? start (part :: above) = none ∨ MadeBack d start above l := by
  simp only [MadeBack, List.suffix_cons_iff, or_and_right, exists_or, exists_eq_left]

theorem locate_of_fitting {p : Path} (h : p.Fitting) : d.locate p = walk d.root (d.start p) p.parts := by
  rw [locate_eq, (textRefusal?_eq_none_iff p).mpr h]

section last

variable {back : List String} (hback : ".." ∉ back) (hfit : (⟨anchor, back.reverse⟩ : Path).Fitting)

include hback hfit

-- The last directory can be made at once.
theorem makeFolder_grows (hrooted : d.mark? (d.start ⟨anchor, []⟩).dropLast = some .folder) {made : Disk}
    (h : d.makeFolder ⟨anchor, back.reverse⟩ = .ok made) :
    d.obstacle? (d.start ⟨anchor, []⟩) back = none ∧ Grows d made (MadeBack d (d.start ⟨anchor, []⟩) back) := by
  have hwalk := leads_walk (d := d) (d.start ⟨anchor, []⟩) hback
  rw [makeFolder_eq, locate_of_fitting hfit] at h
  cases hfound : walk d.root (d.start ⟨anchor, []⟩) back.reverse with
  | error refusal =>
      have hlocate : walk d.root (d.start ⟨anchor, back.reverse⟩) back.reverse = .error refusal := hfound
      rw [hlocate] at h
      cases h
  | ok spot =>
      have hlocate : walk d.root (d.start ⟨anchor, back.reverse⟩) back.reverse = .ok spot := hfound
      rw [hlocate] at h
      rw [hfound] at hwalk
      dsimp only at h hwalk
      obtain ⟨hspot, hobstacle, habove⟩ := hwalk
      cases hmark : d.mark? spot with
      | some m =>
          rw [hmark] at h
          cases h
      | none =>
          rw [hmark] at h
          cases h
          have hblocks : d.blocks spot = false := by rw [blocks, hmark]
          rw [hblocks, if_neg Bool.false_ne_true] at hobstacle
          refine ⟨hobstacle, ?_⟩
          -- The location is in a directory, the one above the start if there are no components.
          have hplace : ∃ above name, spot = above ++ [name] ∧ d.mark? above = some .folder := by
            cases back with
            | nil =>
                rw [List.reverse_nil, List.append_nil] at hspot
                have hne : d.start ⟨anchor, []⟩ ≠ [] := by
                  intro hstart
                  rw [hspot, hstart, mark?_root] at hmark
                  cases hmark
                exact ⟨_, _, hspot.trans (List.dropLast_concat_getLast hne).symm, hrooted⟩
            | cons part above =>
                rw [List.reverse_cons, ← List.append_assoc] at hspot
                exact ⟨_, part, hspot, habove above (List.suffix_cons part above) (List.cons_ne_self part above).symm⟩
          obtain ⟨above, name, rfl, hfolder⟩ := hplace
          have hnothing : Grows d d fun _ => False := Grows.of_same fun l hl => hl.elim
          refine (hnothing.put hfolder hmark id).congr fun l hl => ?_
          constructor
          · rintro (rfl | hfalse)
            · exact ⟨back, List.suffix_refl back, hspot, hobstacle⟩
            · exact hfalse.elim
          · rintro ⟨front, hfront, rfl, _⟩
            by_cases hwhole : front = back
            · rw [hwhole, ← hspot]
              exact Or.inl rfl
            · rw [habove front hfront hwhole] at hl
              cases hl

-- The last directory is there, or something is in its way.
theorem unlessThere_grows {e : DiskError} (h : d.makeFolder ⟨anchor, back.reverse⟩ = .error e)
    (he : e.refusal ≠ .noEntry) :
    refusalOf? (unlessThere d ⟨anchor, back.reverse⟩ e).1 = d.obstacle? (d.start ⟨anchor, []⟩) back ∧
      Grows d (unlessThere d ⟨anchor, back.reverse⟩ e).2 (MadeBack d (d.start ⟨anchor, []⟩) back) := by
  have hwalk := leads_walk (d := d) (d.start ⟨anchor, []⟩) hback
  have hlocate : d.locate ⟨anchor, back.reverse⟩ = walk d.root (d.start ⟨anchor, []⟩) back.reverse :=
    locate_of_fitting hfit
  rw [makeFolder_eq] at h
  rw [unlessThere_disk]
  cases hfound : walk d.root (d.start ⟨anchor, []⟩) back.reverse with
  | error refusal =>
      rw [hfound] at hlocate hwalk
      rw [hlocate] at h
      cases h
      dsimp only at he
      rw [Leads, if_neg he] at hwalk
      obtain ⟨hobstacle, _, hfree⟩ := hwalk
      refine ⟨?_, Grows.of_same ?_⟩
      · rw [refusalOf?_unlessThere (Or.inl hlocate), hobstacle]
      · rintro l ⟨front, hfront, rfl, hnothing⟩
        exact hfree front hfront hnothing
  | ok spot =>
      rw [hfound] at hlocate hwalk
      rw [hlocate] at h
      dsimp only at h hwalk
      obtain ⟨hspot, hobstacle, habove⟩ := hwalk
      cases hmark : d.mark? spot with
      | none =>
          rw [hmark] at h
          cases h
      | some m =>
          rw [hmark] at h
          cases h
          refine ⟨?_, Grows.of_same ?_⟩
          · cases m with
            | file content =>
                have hblocks : d.blocks spot = true := by rw [blocks, hmark]
                rw [refusalOf?_unlessThere (Or.inr ⟨spot, content, hlocate, hmark⟩), hobstacle, hblocks, if_pos rfl]
            | folder =>
                have hblocks : d.blocks spot = false := by rw [blocks, hmark]
                rw [unlessThere_of_folder hlocate hmark, hobstacle, hblocks, if_neg Bool.false_ne_true]
                rfl
          · rintro l ⟨front, hfront, rfl, _⟩
            by_cases hwhole : front = back
            · rw [hwhole, ← hspot, hmark]
              nofun
            · rw [habove front hfront hwhole]
              nofun

end last

-- Nothing is missing on the way to a directory whose parent is there.
theorem refusal_ne_noEntry {part : String} {above : List String} (hback : ".." ∉ part :: above)
    (hfit : (⟨anchor, (part :: above).reverse⟩ : Path).Fitting)
    (habove : d.mark? (d.start ⟨anchor, []⟩ ++ above.reverse) ≠ none) {e : DiskError}
    (h : d.makeFolder ⟨anchor, (part :: above).reverse⟩ = .error e) : e.refusal ≠ .noEntry := by
  have hwalk := leads_walk (d := d) (d.start ⟨anchor, []⟩) hback
  have hlocate : d.locate ⟨anchor, (part :: above).reverse⟩ =
      walk d.root (d.start ⟨anchor, []⟩) (part :: above).reverse := locate_of_fitting hfit
  rw [makeFolder_eq, hlocate] at h
  cases hfound : walk d.root (d.start ⟨anchor, []⟩) (part :: above).reverse with
  | error refusal =>
      rw [hfound] at h hwalk
      cases h
      intro hnone
      dsimp only at hnone
      rw [Leads, if_pos hnone] at hwalk
      exact habove hwalk.2
  | ok spot =>
      rw [hfound] at h
      dsimp only at h
      split at h <;> cases h
      nofun

-- Once the directories above it are made, the last one is made or something is in its way.

theorem madeBack_of_grows {left last : Disk} {part : String} {above : List String}
    (hgrows : Grows d left (MadeBack d (d.start ⟨anchor, []⟩) above))
    (h : Grows left last (MadeBack left (left.start ⟨anchor, []⟩) (part :: above))) :
    left.obstacle? (left.start ⟨anchor, []⟩) (part :: above) = d.obstacle? (d.start ⟨anchor, []⟩) (part :: above) ∧
      Grows d last (MadeBack d (d.start ⟨anchor, []⟩) (part :: above)) := by
  rw [start_congr hgrows.here] at h ⊢
  have hsame : ∀ front, left.obstacle? (d.start ⟨anchor, []⟩) front = d.obstacle? (d.start ⟨anchor, []⟩) front :=
    fun front => obstacle?_congr _ front fun _ _ => hgrows.blocks _
  refine ⟨hsame _, (hgrows.trans h).congr fun l _ => ?_⟩
  constructor
  · rintro (⟨front, hfront, hl, hfree⟩ | ⟨front, hfront, hl, hfree⟩)
    · exact ⟨front, hfront.trans (List.suffix_cons part above), hl, hfree⟩
    · exact ⟨front, hfront, hl, (hsame front).symm.trans hfree⟩
  · rintro ⟨front, hfront, hl, hfree⟩
    exact Or.inr ⟨front, hfront, hl, (hsame front).trans hfree⟩

theorem makeFolder_again {left : Disk} {part : String} {above : List String} (hback : ".." ∉ part :: above)
    (hfit : (⟨anchor, (part :: above).reverse⟩ : Path).Fitting)
    (hrooted : d.mark? (d.start ⟨anchor, []⟩).dropLast = some .folder)
    (hgrows : Grows d left (MadeBack d (d.start ⟨anchor, []⟩) above))
    (hthere : left.mark? (d.start ⟨anchor, []⟩ ++ above.reverse) = some .folder) (e : DiskError) :
    let p : Path := ⟨anchor, (part :: above).reverse⟩
    let outcome : Outcome := match left.makeFolder p with
      | .ok made => (.ok (), made)
      | .error e₂ =>
        if e₂.refusal = .noEntry then (.error ⟨e₂, [e]⟩, left)
        else
          match unlessThere left p e₂ with
          | (.error trouble, last) => (.error (trouble.during e), last)
          | done => done
    refusalOf? outcome.1 = d.obstacle? (d.start ⟨anchor, []⟩) (part :: above) ∧
      Grows d outcome.2 (MadeBack d (d.start ⟨anchor, []⟩) (part :: above)) := by
  intro p outcome
  have hleft : left.mark? (left.start ⟨anchor, []⟩).dropLast = some .folder := by
    rw [start_congr hgrows.here, hgrows.mark?_of_ne (by simp [hrooted]), hrooted]
  rw [← start_congr hgrows.here] at hthere
  dsimp only [outcome]
  cases hagain : left.makeFolder p with
  | ok made =>
      obtain ⟨hfree, hlast⟩ := makeFolder_grows anchor hback hfit hleft hagain
      obtain ⟨hsame, hmade⟩ := madeBack_of_grows anchor hgrows hlast
      exact ⟨(hsame.symm.trans hfree).symm, hmade⟩
  | error e₂ =>
      have he₂ := refusal_ne_noEntry anchor hback hfit (by simp [hthere]) hagain
      obtain ⟨hrefusal, hlast⟩ := unlessThere_grows anchor hback hfit hagain he₂
      obtain ⟨hsame, hmade⟩ := madeBack_of_grows anchor hgrows hlast
      rw [hsame] at hrefusal
      dsimp only
      rw [if_neg he₂]
      rcases hdone : unlessThere left p e₂ with ⟨trouble | ⟨⟩, last⟩
      · rw [hdone] at hrefusal hmade
        exact ⟨hrefusal, hmade⟩
      · rw [hdone] at hrefusal hmade
        exact ⟨hrefusal, hmade⟩

theorem makeFoldersBack_grows {back : List String} (hback : ".." ∉ back)
    (hfit : (⟨anchor, back.reverse⟩ : Path).Fitting)
    (hrooted : d.mark? (d.start ⟨anchor, []⟩).dropLast = some .folder) :
    refusalOf? (makeFoldersBack anchor back d).1 = d.obstacle? (d.start ⟨anchor, []⟩) back ∧
      Grows d (makeFoldersBack anchor back d).2 (MadeBack d (d.start ⟨anchor, []⟩) back) := by
  induction back with
  | nil =>
      rw [makeFoldersBack]
      cases hmake : d.makeFolder ⟨anchor, []⟩ with
      | ok made =>
          obtain ⟨hobstacle, hgrows⟩ := makeFolder_grows anchor hback hfit hrooted hmake
          exact ⟨hobstacle.symm, hgrows⟩
      | error e =>
          have hlocate : d.locate ⟨anchor, []⟩ = .ok (d.start ⟨anchor, []⟩) := locate_of_fitting hfit
          have he : e.refusal ≠ .noEntry := by
            rw [makeFolder_eq, hlocate] at hmake
            dsimp only at hmake
            split at hmake <;> cases hmake
            rintro ⟨⟩
          dsimp only
          rw [if_neg he]
          exact unlessThere_grows anchor hback hfit hmake he
  | cons part above ih =>
      have hpath : (⟨anchor, (part :: above).reverse⟩ : Path) = Path.below ⟨anchor, above.reverse⟩ part := by
        rw [Path.below, List.reverse_cons]
      have hfirst := ih (fun hmem => hback (List.mem_cons_of_mem part hmem)) (Path.fitting_of_below (hpath ▸ hfit))
      rw [makeFoldersBack]
      cases hmake : d.makeFolder ⟨anchor, (part :: above).reverse⟩ with
      | ok made =>
          obtain ⟨hobstacle, hgrows⟩ := makeFolder_grows anchor hback hfit hrooted hmake
          exact ⟨hobstacle.symm, hgrows⟩
      | error e =>
          dsimp only
          by_cases he : e.refusal = .noEntry
          · rw [if_pos he]
            have hmissing : d.mark? (d.start ⟨anchor, []⟩ ++ above.reverse) = none := by
              by_contra hthere
              exact refusal_ne_noEntry anchor hback hfit hthere hmake he
            rcases habove : makeFoldersBack anchor above d with ⟨trouble | ⟨⟩, left⟩
            · rw [habove] at hfirst
              obtain ⟨hobstacle, hgrows⟩ := hfirst
              have hmore := obstacle?_cons_of_some part hobstacle.symm (fun htaken => by
                rw [refusalOf?, htaken] at hobstacle
                have hblocks := blocks_of_taken hobstacle.symm
                rw [blocks, hmissing] at hblocks
                cases hblocks)
              refine ⟨hmore.symm, hgrows.congr fun l hl => ?_⟩
              rw [madeBack_cons, hmore]
              simp
            · rw [habove] at hfirst
              obtain ⟨hobstacle, hgrows⟩ := hfirst
              have hthere : left.mark? (d.start ⟨anchor, []⟩ ++ above.reverse) = some .folder :=
                hgrows.mark?_of_made hmissing ⟨above, List.suffix_refl above, rfl, hobstacle.symm⟩
              exact makeFolder_again anchor hback hfit hrooted hgrows hthere e
          · rw [if_neg he]
            exact unlessThere_grows anchor hback hfit hmake he

-- Below a start that is missing, in a directory that is missing as well, nothing is made.

theorem mark?_start_of_unrooted (hrooted : d.mark? (d.start ⟨anchor, []⟩).dropLast ≠ some .folder) :
    d.mark? (d.start ⟨anchor, []⟩) = none := by
  by_contra hne
  rcases List.eq_nil_or_concat (d.start ⟨anchor, []⟩) with hnil | ⟨above, name, hconcat⟩
  · rw [hnil] at hrooted
    exact hrooted (mark?_root d)
  · rw [hconcat, List.concat_eq_append] at hne hrooted
    rw [List.dropLast_concat] at hrooted
    exact hrooted (mark?_above hne)

theorem makeFolder_of_missing {back : List String} (hne : back ≠ []) (hfit : (⟨anchor, back.reverse⟩ : Path).Fitting)
    (hstart : d.mark? (d.start ⟨anchor, []⟩) = none) :
    d.makeFolder ⟨anchor, back.reverse⟩ = .error ⟨.noEntry, some (⟨anchor, back.reverse⟩ : Path).text⟩ := by
  have hlocate : d.locate ⟨anchor, back.reverse⟩ = walk d.root (d.start ⟨anchor, []⟩) back.reverse :=
    locate_of_fitting hfit
  obtain ⟨part, rest, hparts⟩ := List.exists_cons_of_ne_nil (List.reverse_ne_nil_iff.mpr hne)
  rw [makeFolder_eq, hlocate, hparts, walk, (mark?_eq_none_iff d _).mp hstart]

theorem makeFoldersBack_unrooted {back : List String} (hfit : (⟨anchor, back.reverse⟩ : Path).Fitting)
    (hrooted : d.mark? (d.start ⟨anchor, []⟩).dropLast ≠ some .folder) :
    refusalOf? (makeFoldersBack anchor back d).1 = (if back = [] then none else some .noEntry) ∧
      Grows d (makeFoldersBack anchor back d).2 fun _ => False := by
  have hstart := mark?_start_of_unrooted anchor hrooted
  induction back with
  | nil =>
      have hlocate : d.locate ⟨anchor, []⟩ = .ok (d.start ⟨anchor, []⟩) := locate_of_fitting hfit
      have hmake : d.makeFolder ⟨anchor, []⟩ = .ok (d.put (d.start ⟨anchor, []⟩) (.folder .empty)) := by
        rw [makeFolder_eq, hlocate]
        dsimp only
        rw [hstart]
      rw [makeFoldersBack, hmake]
      refine ⟨rfl, rfl, rfl, fun l m => ?_⟩
      have hsame : (d.put (d.start ⟨anchor, []⟩) (.folder .empty)).mark? l = d.mark? l := by
        rcases List.eq_nil_or_concat (d.start ⟨anchor, []⟩) with hnil | ⟨above, name, hconcat⟩
        · rw [hnil, mark?_root] at hstart
          cases hstart
        · rw [hconcat, List.concat_eq_append] at hrooted ⊢
          rw [List.dropLast_concat, Ne, mark?_eq_folder_iff, not_exists] at hrooted
          exact mark?_change_missing hrooted name _ l
      simp [hsame]
  | cons part above ih =>
      have hpath : (⟨anchor, (part :: above).reverse⟩ : Path) = Path.below ⟨anchor, above.reverse⟩ part := by
        rw [Path.below, List.reverse_cons]
      obtain ⟨hrefusal, hgrows⟩ := ih (Path.fitting_of_below (hpath ▸ hfit))
      rw [makeFoldersBack, makeFolder_of_missing anchor (List.cons_ne_nil part above) hfit hstart]
      dsimp only
      rw [if_pos rfl]
      rcases habove : makeFoldersBack anchor above d with ⟨trouble | ⟨⟩, left⟩
      · rw [habove] at hrefusal hgrows
        by_cases hne : above = []
        · rw [if_pos hne] at hrefusal
          cases hrefusal
        · rw [if_neg hne] at hrefusal
          exact ⟨hrefusal, hgrows⟩
      · rw [habove] at hgrows
        have hleft : left.mark? (left.start ⟨anchor, []⟩) = none := by
          rw [start_congr hgrows.here, hgrows.mark?_of_not hstart id]
        dsimp only
        rw [makeFolder_of_missing anchor (List.cons_ne_nil part above) hfit hleft]
        dsimp only
        rw [if_pos rfl]
        exact ⟨rfl, hgrows⟩

end back

-- Why directories are not made, if they are not.
def folderRefusal? (d : Disk) (p : Path) : Option Refusal :=
  match textRefusal? p with
  | some refusal => some refusal
  | none =>
    if d.mark? (d.start p).dropLast = some .folder then d.obstacle? (d.start p) p.parts.reverse else some .noEntry

-- Which directories are made.
def MadeFor (d : Disk) (p : Path) (l : Location) : Prop :=
  p.Fitting ∧ d.mark? (d.start p).dropLast = some .folder ∧ MadeBack d (d.start p) p.parts.reverse l

theorem makeFolders_grows {p : Path} (hp : p.Plain) (hparts : p.parts ≠ []) (d : Disk) :
    refusalOf? (d.makeFolders p).1 = d.folderRefusal? p ∧ Grows d (d.makeFolders p).2 (d.MadeFor p) := by
  have hpath : (⟨p.anchor, p.parts.reverse.reverse⟩ : Path) = p := by rw [List.reverse_reverse]
  have hback : ".." ∉ p.parts.reverse := fun hmem => hp (List.mem_reverse.mp hmem)
  have hne : p.parts.reverse ≠ [] := fun hnil => hparts (List.reverse_eq_nil_iff.mp hnil)
  have hstart : d.start ⟨p.anchor, []⟩ = d.start p := rfl
  rw [makeFolders, folderRefusal?]
  cases htext : textRefusal? p with
  | none =>
      have hfit := (textRefusal?_eq_none_iff p).mp htext
      dsimp only
      by_cases hrooted : d.mark? (d.start p).dropLast = some .folder
      · rw [if_pos hrooted]
        obtain ⟨hrefusal, hgrows⟩ := makeFoldersBack_grows p.anchor hback (hpath.symm ▸ hfit) hrooted
        exact ⟨hrefusal, hgrows.congr fun l _ => ⟨fun h => ⟨hfit, hrooted, h⟩, fun h => h.2.2⟩⟩
      · rw [if_neg hrooted]
        obtain ⟨hrefusal, hgrows⟩ := makeFoldersBack_unrooted p.anchor (hpath.symm ▸ hfit) hrooted
        rw [if_neg hne] at hrefusal
        exact ⟨hrefusal, hgrows.congr fun l _ => ⟨False.elim, fun h => hrooted h.2.1⟩⟩
  | some refusal =>
      have hnot : ¬p.Fitting := by
        rw [← textRefusal?_eq_none_iff, htext]
        exact Option.some_ne_none refusal
      have hlocate : d.locate p = .error refusal := by rw [locate_eq, htext]
      have hmake : d.makeFolder p = .error ⟨refusal, some p.text⟩ := by rw [makeFolder_eq, hlocate]
      have hsystem : refusal ≠ .noEntry := by
        rintro rfl
        rcases textRefusal?_cases p with h | h | h <;> rw [htext] at h <;> cases h
      obtain ⟨part, above, hcons⟩ := List.exists_cons_of_ne_nil hne
      rw [hcons] at hpath ⊢
      rw [makeFoldersBack, hpath, hmake]
      dsimp only
      rw [if_neg hsystem, unlessThere_disk]
      refine ⟨refusalOf?_unlessThere (Or.inl hlocate), Grows.of_same fun l hl => absurd hl.1 hnot⟩

end CrateDocs.Disk
