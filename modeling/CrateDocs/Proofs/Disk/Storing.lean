import CrateDocs.Proofs.Disk.Making

namespace CrateDocs.Disk

variable {d : Disk} {q : Path} {name : String}

-- What a path is refused for in a directory that is there: its text, or a name in it.
def pathRefusal? (p : Path) : Option Refusal :=
  match textRefusal? p with
  | some refusal => some refusal
  | none => if p.parts.any fun part => decide (nameLimit < Utf8.size part) then some .nameTooLong else none

theorem walk_of_folder {spot : Location} {parts : List String} (hparts : ".." ∉ parts) (hname : name ≠ "..")
    (h : d.mark? (spot ++ parts) = some .folder) :
    walk d.root spot (parts ++ [name]) =
      if (parts ++ [name]).any fun part => decide (nameLimit < Utf8.size part) then .error .nameTooLong
      else .ok (spot ++ parts ++ [name]) := by
  induction parts generalizing spot with
  | nil =>
      rw [List.append_nil] at h
      obtain ⟨inner, hinner⟩ := (mark?_eq_folder_iff d spot).mp h
      rw [List.nil_append, walk_one, hinner]
      simp [hname]
  | cons part parts ih =>
      rw [List.mem_cons, not_or] at hparts
      obtain ⟨inner, hinner⟩ := (mark?_eq_folder_iff d spot).mp (mark?_folder_above h (List.prefix_append _ _))
      have hbelow : d.mark? (spot ++ [part] ++ parts) = some .folder := by
        rwa [List.append_assoc, List.singleton_append]
      have hrest := ih hparts.2 hbelow
      rw [List.cons_append, walk, hinner]
      dsimp only
      rw [if_neg (Ne.symm hparts.1), hrest]
      by_cases hsize : nameLimit < Utf8.size part
      · simp [hsize]
      · simp [hsize]

theorem locate_in_folder (hq : q.Plain) (hname : name ≠ "..") (h : d.mark? (d.spot q) = some .folder) :
    d.locate (q.below name) =
      match pathRefusal? (q.below name) with
      | some refusal => .error refusal
      | none => .ok (d.spot q ++ [name]) := by
  rw [locate_eq, pathRefusal?]
  cases textRefusal? (q.below name) with
  | some refusal => rfl
  | none =>
      have hwalk : walk d.root (d.start (q.below name)) (q.below name).parts =
          if (q.below name).parts.any fun part => decide (nameLimit < Utf8.size part) then .error .nameTooLong
          else .ok (d.spot q ++ [name]) := walk_of_folder hq hname h
      dsimp only
      rw [hwalk]
      split <;> rfl

-- The first free name does not depend on the order of those that are taken.
theorem temporaryName?_perm {taken taken' : List String} (h : taken'.Perm taken) (name : String) :
    temporaryName? name taken' = temporaryName? name taken := by
  have hcontains : ∀ candidate, taken'.contains candidate = taken.contains candidate := by
    intro candidate
    rw [Bool.eq_iff_iff, List.contains_iff_mem, List.contains_iff_mem, h.mem_iff]
  simp only [temporaryName?, h.length_eq, hcontains]

-- The names in a directory.
def takenAt (d : Disk) (location : Location) : List String :=
  match d.root.find? location with
  | some (.folder inner) => inner.names
  | _ => []

theorem nodup_takenAt (d : Disk) (location : Location) : (d.takenAt location).Nodup := by
  rw [takenAt]
  split
  · exact Folder.nodup_names _
  · exact List.nodup_nil

theorem mem_takenAt_iff (d : Disk) (location : Location) (name : String) :
    name ∈ d.takenAt location ↔ d.mark? (location ++ [name]) ≠ none := by
  rw [takenAt]
  rcases hfind : d.root.find? location with _ | (content | inner)
  · have hnone := mark?_below_none ((mark?_eq_none_iff d location).mpr hfind) name
    simp [hnone]
  · have hfile := (mark?_eq_file_iff d location content).mpr hfind
    have hnone : d.mark? (location ++ [name]) = none := by
      by_contra hne
      rw [mark?_above hne] at hfile
      cases hfile
    simp [hnone]
  · simp only [Folder.mem_names_iff, Ne, mark?_eq_none_iff, Folder.find?_snoc hfind]

theorem takenAt_perm {e : Disk} {location : Location}
    (h : ∀ name, e.mark? (location ++ [name]) = d.mark? (location ++ [name])) :
    (e.takenAt location).Perm (d.takenAt location) := by
  rw [List.perm_ext_iff_of_nodup (e.nodup_takenAt location) (d.nodup_takenAt location)]
  intro name
  rw [mem_takenAt_iff, mem_takenAt_iff, h]

-- A directory is not written over.
def overRefusal? (d : Disk) (location : Location) : Option Refusal :=
  match d.mark? location with
  | some .folder => some .isFolder
  | _ => none

theorem overRefusal?_eq_none_iff (d : Disk) (location : Location) :
    d.overRefusal? location = none ↔ d.mark? location ≠ some .folder := by
  rw [overRefusal?]
  rcases d.mark? location with _ | (_ | _) <;> simp

-- Why a file is not replaced in a directory that is there, if it is not.
def swapRefusal? (d : Disk) (q : Path) (name : String) : Option Refusal :=
  match temporaryName? name (d.takenAt (d.spot q)) with
  | none => some .taken
  | some made =>
    match pathRefusal? (Path.below ⟨.root, d.spot q⟩ made) with
    | some refusal => some refusal
    | none =>
      match pathRefusal? (q.below name) with
      | some refusal => some refusal
      | none => d.overRefusal? (d.spot q ++ [name])

-- Nothing matters for it but what is in the directory.
theorem swapRefusal?_congr {e : Disk} (hhere : e.here = d.here)
    (h : ∀ name, e.mark? (d.spot q ++ [name]) = d.mark? (d.spot q ++ [name])) (name : String) :
    e.swapRefusal? q name = d.swapRefusal? q name := by
  have hspot : e.spot q = d.spot q := by rw [spot, spot, start_congr hhere]
  rw [swapRefusal?, swapRefusal?, hspot, temporaryName?_perm (takenAt_perm h), overRefusal?, overRefusal?, h]

theorem temporaryPath?_eq (hq : q.Plain) :
    d.temporaryPath? (q.below name) =
      (temporaryName? name (d.takenAt (d.spot q))).map fun made => Path.below ⟨.root, d.spot q⟩ made := by
  have hlast : (q.below name).name = name := by simp [Path.below, Path.name]
  rw [temporaryPath?, Path.parent_below, resolve_plain d hq, hlast]
  rfl

-- What is left when a file was replaced in a directory that is there, or was not.
structure Swaps (d left : Disk) (spot : Location) (content : List UInt8) (refusal? : Option Refusal) : Prop where
  here : left.here = d.here
  limits : left.limits = d.limits
  done : refusal? = none → left.mark? = Function.update d.mark? spot (some (.file content))
  failed : refusal? ≠ none → left.mark? = d.mark?

theorem writeFile_eq (d : Disk) (p : Path) (content : List UInt8) :
    d.writeFile p content =
      match d.locate p with
      | .error refusal => .error ⟨refusal, some p.text⟩
      | .ok spot =>
        match d.overRefusal? spot with
        | some refusal => .error ⟨refusal, some p.text⟩
        | none => .ok (d.put spot (.file content)) := by
  rw [writeFile]
  cases d.locate p with
  | error refusal => rfl
  | ok spot =>
      simp only [bind, Except.bind, overRefusal?, mark?]
      rcases d.root.find? spot with _ | (_ | _) <;> rfl

theorem moveFile_eq {source : Path} (target : Path) {origin : Location} {content : List UInt8}
    (hsource : d.locate source = .ok origin) (hfile : d.mark? origin = some (.file content)) :
    d.moveFile source target =
      match d.locate target with
      | .error refusal => .error refusal
      | .ok spot =>
        match d.overRefusal? spot with
        | some refusal => .error refusal
        | none => .ok ((d.drop origin).put spot (.file content)) := by
  rw [moveFile, hsource]
  simp only [bind, Except.bind, (mark?_eq_file_iff d origin content).mp hfile]
  cases d.locate target with
  | error refusal => rfl
  | ok spot =>
      simp only [overRefusal?, mark?]
      rcases d.root.find? spot with _ | (_ | _) <;> rfl

-- A detour over a free name leaves no trace.

theorem mark?_put_drop {above : Location} {made : String} (habove : d.mark? above = some .folder)
    (hfree : d.mark? (above ++ [made]) = none) (content : List UInt8) :
    ((d.put (above ++ [made]) (.file content)).drop (above ++ [made])).mark? = d.mark? := by
  have hnot : d.mark? (above ++ [made]) ≠ some .folder := by simp [hfree]
  have hput := mark?_put_file habove hnot content
  have hfolder : (d.put (above ++ [made]) (.file content)).mark? above = some .folder := by
    rw [hput, Function.update_of_ne (by simp), habove]
  have hfile : (d.put (above ++ [made]) (.file content)).mark? (above ++ [made]) ≠ some .folder := by
    rw [hput, Function.update_self]
    nofun
  rw [mark?_drop hfolder hfile, hput, Function.update_idem, ← hfree, Function.update_eq_self]

theorem removeFile_put {p : Path} {spot : Location} {content : List UInt8} (hlocate : d.locate p = .ok spot)
    (hfile : d.mark? spot = some (.file content)) : d.removeFile p = .ok (d.drop spot) :=
  (removeFile_eq_ok_iff d p _).mpr ⟨spot, content, hlocate, (mark?_eq_file_iff d spot content).mp hfile, rfl⟩

-- The move from the temporary file to its target, or back to how it was.
theorem moveFile_swaps (hq : q.Plain) (hname : name ≠ "..") (hmark : d.mark? (d.spot q) = some .folder) {made : String}
    (hup : made ≠ "..") (hne : made ≠ name) (hfree : d.mark? (d.spot q ++ [made]) = none)
    (hfirst : pathRefusal? (Path.below ⟨.root, d.spot q⟩ made) = none) (content : List UInt8) :
    let written := d.put (d.spot q ++ [made]) (.file content)
    let outcome : Outcome := match written.moveFile (Path.below ⟨.root, d.spot q⟩ made) (q.below name) with
      | .ok moved => (.ok (), moved)
      | .error refusal =>
        (.error (.first ⟨refusal, none⟩),
          (written.removeFile (Path.below ⟨.root, d.spot q⟩ made)).toOption.getD written)
    let refusal? := match pathRefusal? (q.below name) with
      | some refusal => some refusal
      | none => d.overRefusal? (d.spot q ++ [name])
    refusalOf? outcome.1 = refusal? ∧ Swaps d outcome.2 (d.spot q ++ [name]) content refusal? := by
  intro written outcome refusal?
  have hnot : d.mark? (d.spot q ++ [made]) ≠ some .folder := by simp [hfree]
  have hput : written.mark? = Function.update d.mark? (d.spot q ++ [made]) (some (.file content)) :=
    mark?_put_file hmark hnot content
  have hfolder : written.mark? (d.spot q) = some .folder := by
    rw [hput, Function.update_of_ne (by simp), hmark]
  have hfile : written.mark? (d.spot q ++ [made]) = some (.file content) := by rw [hput, Function.update_self]
  have hother : written.overRefusal? (d.spot q ++ [name]) = d.overRefusal? (d.spot q ++ [name]) := by
    rw [overRefusal?, overRefusal?, hput, Function.update_of_ne (by simp [Ne.symm hne])]
  have hsource : written.locate (Path.below ⟨.root, d.spot q⟩ made) = .ok (d.spot q ++ [made]) := by
    have hlocate := locate_in_folder (d := written) (plain_spot d hq) hup hfolder
    rwa [hfirst] at hlocate
  have htarget : written.locate (q.below name) =
      match pathRefusal? (q.below name) with
      | some refusal => .error refusal
      | none => .ok (d.spot q ++ [name]) := locate_in_folder (d := written) hq hname hfolder
  have hcleaned : (written.removeFile (Path.below ⟨.root, d.spot q⟩ made)).toOption.getD written =
      written.drop (d.spot q ++ [made]) := by
    rw [removeFile_put hsource hfile]
    rfl
  have hback : (written.drop (d.spot q ++ [made])).mark? = d.mark? := mark?_put_drop hmark hfree content
  have hmove := moveFile_eq (q.below name) hsource hfile
  rw [htarget] at hmove
  dsimp only [outcome, refusal?]
  cases hsecond : pathRefusal? (q.below name) with
  | some refusal =>
      rw [hsecond] at hmove
      dsimp only at hmove ⊢
      rw [hmove, hcleaned]
      exact ⟨rfl, rfl, rfl, nofun, fun _ => hback⟩
  | none =>
      rw [hsecond] at hmove
      dsimp only at hmove ⊢
      rw [hother] at hmove
      cases hover : d.overRefusal? (d.spot q ++ [name]) with
      | some refusal =>
          rw [hover] at hmove
          dsimp only at hmove
          rw [hmove, hcleaned]
          exact ⟨rfl, rfl, rfl, nofun, fun _ => hback⟩
      | none =>
          rw [hover] at hmove
          dsimp only at hmove
          rw [hmove]
          refine ⟨rfl, rfl, rfl, fun _ => ?_, fun h => absurd rfl h⟩
          have hfolder' : (written.drop (d.spot q ++ [made])).mark? (d.spot q) = some .folder := by rw [hback, hmark]
          have hfree' : (written.drop (d.spot q ++ [made])).mark? (d.spot q ++ [name]) ≠ some .folder := by
            rw [hback]
            exact (overRefusal?_eq_none_iff d _).mp hover
          rw [mark?_put_file hfolder' hfree', hback]

theorem replaceFile_swaps (hq : q.Plain) (hname : name ≠ "..") (hmark : d.mark? (d.spot q) = some .folder)
    (content : List UInt8) :
    refusalOf? (d.replaceFile (q.below name) content).1 = d.swapRefusal? q name ∧
      Swaps d (d.replaceFile (q.below name) content).2 (d.spot q ++ [name]) content (d.swapRefusal? q name) := by
  rw [replaceFile, temporaryPath?_eq hq, swapRefusal?]
  cases hmade : temporaryName? name (d.takenAt (d.spot q)) with
  | none => exact ⟨rfl, rfl, rfl, fun h => absurd h (Option.some_ne_none _), fun _ => rfl⟩
  | some made =>
      obtain ⟨hup, hne⟩ := temporaryName?_ne hmade
      have hfree : d.mark? (d.spot q ++ [made]) = none := by
        have hnew := (temporaryName?_eq_some hmade).1
        rwa [mem_takenAt_iff, not_not] at hnew
      have htemporary : d.locate (Path.below ⟨.root, d.spot q⟩ made) =
          match pathRefusal? (Path.below ⟨.root, d.spot q⟩ made) with
          | some refusal => .error refusal
          | none => .ok (d.spot q ++ [made]) := locate_in_folder (plain_spot d hq) hup hmark
      have hwrite := writeFile_eq d (Path.below ⟨.root, d.spot q⟩ made) content
      rw [htemporary] at hwrite
      rw [Option.map_some]
      cases hfirst : pathRefusal? (Path.below ⟨.root, d.spot q⟩ made) with
      | some refusal =>
          rw [hfirst] at hwrite
          dsimp only at hwrite ⊢
          rw [hwrite, hfirst]
          exact ⟨rfl, rfl, rfl, fun h => absurd h (Option.some_ne_none _), fun _ => rfl⟩
      | none =>
          have hover : d.overRefusal? (d.spot q ++ [made]) = none := by simp [overRefusal?_eq_none_iff, hfree]
          rw [hfirst] at hwrite
          dsimp only at hwrite ⊢
          rw [hover] at hwrite
          rw [hwrite, hfirst]
          exact moveFile_swaps hq hname hmark hup hne hfree hfirst content

-- Why a file is not stored, if it is not.
def storeRefusal? (d : Disk) (q : Path) (name : String) : Option Refusal :=
  match d.folderRefusal? q with
  | some refusal => some refusal
  | none => d.swapRefusal? q name

-- The disk after a file was stored, or was not: there are the directories for it in any case, as many as can be made.
structure Stores (d left : Disk) (q : Path) (name : String) (content : List UInt8) : Prop where
  here : left.here = d.here
  limits : left.limits = d.limits
  file : d.storeRefusal? q name = none → left.mark? (d.spot q ++ [name]) = some (.file content)
  made : ∀ l, d.mark? l = none → d.MadeFor q l → left.mark? l = some .folder
  same : ∀ l, (d.storeRefusal? q name = none → l ≠ d.spot q ++ [name]) → (d.mark? l = none → ¬d.MadeFor q l) →
    left.mark? l = d.mark? l

theorem MadeFor.prefix_spot {l : Location} (h : d.MadeFor q l) : l <+: d.spot q := by
  obtain ⟨_, _, front, hfront, rfl, _⟩ := h
  rw [spot, List.prefix_append_right_inj]
  have hleads := List.reverse_prefix.mpr hfront
  rwa [List.reverse_reverse] at hleads

theorem MadeFor.start_isPrefix {l : Location} (h : d.MadeFor q l) : d.start q <+: l := by
  obtain ⟨_, _, front, _, rfl, _⟩ := h
  exact List.prefix_append _ _

theorem MadeFor.ne_below {l : Location} (h : d.MadeFor q l) (name : String) (rest : List String) :
    l ≠ d.spot q ++ name :: rest := by
  rintro rfl
  have hlength := h.prefix_spot.length_le
  rw [List.length_append, List.length_cons] at hlength
  omega

theorem Grows.mark?_below {left : Disk} (h : Grows d left (d.MadeFor q)) (name : String) (rest : List String) :
    left.mark? (d.spot q ++ name :: rest) = d.mark? (d.spot q ++ name :: rest) := by
  by_cases hnone : d.mark? (d.spot q ++ name :: rest) = none
  · rw [h.mark?_of_not hnone fun hmade => hmade.ne_below name rest rfl, hnone]
  · exact h.mark?_of_ne hnone

theorem not_blocks_of_obstacle? {start : Location} {back : List String} (h : d.obstacle? start back = none) :
    d.blocks (start ++ back.reverse) = false := by
  rw [← Bool.not_eq_true]
  intro hblocks
  cases back with
  | nil =>
      rw [List.reverse_nil, List.append_nil] at hblocks
      simp [obstacle?, hblocks] at h
  | cons part above =>
      rw [obstacle?] at h
      split at h
      · cases h
      · cases h
      · split at h <;> cases h

-- The directory of a file is there once the directories for it are made.
theorem Grows.mark?_spot {left : Disk} (h : Grows d left (d.MadeFor q)) (hfree : d.folderRefusal? q = none) :
    left.mark? (d.spot q) = some .folder := by
  rw [folderRefusal?] at hfree
  cases htext : textRefusal? q with
  | some refusal =>
      rw [htext] at hfree
      cases hfree
  | none =>
      rw [htext] at hfree
      dsimp only at hfree
      split at hfree
      · rename_i hrooted
        have hspot : d.start q ++ q.parts.reverse.reverse = d.spot q := by rw [List.reverse_reverse, spot]
        have hblocks := not_blocks_of_obstacle? hfree
        rw [hspot] at hblocks
        cases hmark : d.mark? (d.spot q) with
        | none =>
            refine h.mark?_of_made hmark ⟨(textRefusal?_eq_none_iff q).mp htext, hrooted, ?_⟩
            exact ⟨_, List.suffix_refl _, hspot.symm, hfree⟩
        | some m =>
            cases m with
            | file content =>
                rw [Disk.blocks, hmark] at hblocks
                cases hblocks
            | folder => rw [h.mark?_of_ne (by simp [hmark]), hmark]
      · cases hfree

theorem replaceFileBelow_stores (hq : q.Plain) (hparts : q.parts ≠ []) (hname : name ≠ "..") (d : Disk)
    (content : List UInt8) :
    refusalOf? (d.replaceFileBelow (q.below name) content).1 = d.storeRefusal? q name ∧
      Stores d (d.replaceFileBelow (q.below name) content).2 q name content := by
  obtain ⟨hrefusal, hgrows⟩ := makeFolders_grows hq hparts d
  rw [replaceFileBelow, Path.parent_below]
  rcases hmade : d.makeFolders q with ⟨trouble | ⟨⟩, made⟩
  · rw [hmade] at hrefusal hgrows
    have hstore : d.storeRefusal? q name = some trouble.error.refusal := by
      rw [storeRefusal?, ← hrefusal]
      rfl
    refine ⟨hstore.symm, hgrows.here, hgrows.limits, by simp [hstore], fun l => hgrows.mark?_of_made, ?_⟩
    intro l _ hnot
    by_cases hnone : d.mark? l = none
    · rw [hgrows.mark?_of_not hnone (hnot hnone), hnone]
    · exact hgrows.mark?_of_ne hnone
  · rw [hmade] at hrefusal hgrows
    dsimp only at hgrows ⊢
    have hspot : made.spot q = d.spot q := by rw [spot, spot, start_congr hgrows.here]
    have hfolder : made.mark? (made.spot q) = some .folder := by
      rw [hspot]
      exact hgrows.mark?_spot hrefusal.symm
    obtain ⟨hswap, hswaps⟩ := replaceFile_swaps hq hname hfolder content
    have hstore : made.swapRefusal? q name = d.storeRefusal? q name := by
      rw [storeRefusal?, ← hrefusal, swapRefusal?_congr hgrows.here fun other => hgrows.mark?_below other []]
      rfl
    rw [hstore] at hswap hswaps
    rw [hspot] at hswaps
    have hother : ∀ l, (d.storeRefusal? q name = none → l ≠ d.spot q ++ [name]) →
        (made.replaceFile (q.below name) content).2.mark? l = made.mark? l := by
      intro l hl
      by_cases hdone : d.storeRefusal? q name = none
      · rw [hswaps.done hdone, Function.update_of_ne (hl hdone)]
      · rw [hswaps.failed hdone]
    refine ⟨hswap, hswaps.here.trans hgrows.here, hswaps.limits.trans hgrows.limits, ?_, ?_, ?_⟩
    · intro hdone
      rw [hswaps.done hdone, Function.update_self]
    · intro l hnone hl
      rw [hother l fun _ => hl.ne_below name [], hgrows.mark?_of_made hnone hl]
    · intro l hl hnot
      rw [hother l hl]
      by_cases hnone : d.mark? l = none
      · rw [hgrows.mark?_of_not hnone (hnot hnone), hnone]
      · exact hgrows.mark?_of_ne hnone

-- Disks on which the same is in the way of a file, and the same is beside it.
structure SameWay (d e : Disk) (q : Path) : Prop where
  here : e.here = d.here
  rooted : e.mark? (d.start q).dropLast = some .folder ↔ d.mark? (d.start q).dropLast = some .folder
  blocks : ∀ l, l <+: d.spot q → e.blocks l = d.blocks l
  beside : ∀ name, e.mark? (d.spot q ++ [name]) = d.mark? (d.spot q ++ [name])

section same

variable {e : Disk}

theorem SameWay.obstacle? (h : SameWay d e q) {back : List String} (hback : back <:+ q.parts.reverse) :
    e.obstacle? (d.start q) back = d.obstacle? (d.start q) back := by
  refine obstacle?_congr _ back fun front hfront => h.blocks _ ?_
  rw [spot, List.prefix_append_right_inj]
  have hleads := List.reverse_prefix.mpr (hfront.trans hback)
  rwa [List.reverse_reverse] at hleads

theorem SameWay.storeRefusal? (h : SameWay d e q) (name : String) : e.storeRefusal? q name = d.storeRefusal? q name := by
  have hfolder : e.folderRefusal? q = d.folderRefusal? q := by
    rw [folderRefusal?, folderRefusal?, start_congr h.here, h.obstacle? (List.suffix_refl _)]
    simp only [h.rooted]
  rw [Disk.storeRefusal?, Disk.storeRefusal?, hfolder, swapRefusal?_congr h.here h.beside]

theorem SameWay.madeFor_iff (h : SameWay d e q) (l : Location) : e.MadeFor q l ↔ d.MadeFor q l := by
  rw [MadeFor, MadeFor, start_congr h.here, h.rooted, MadeBack, MadeBack]
  refine and_congr_right fun _ => and_congr_right fun _ => exists_congr fun front => and_congr_right fun hfront => ?_
  rw [h.obstacle? hfront]

end same

-- Names on the way to a directory that was made are not too long.

theorem size_le_of_obstacle? {start : Location} {back : List String} (h : d.obstacle? start back = none) :
    ∀ part ∈ back, Utf8.size part ≤ nameLimit := by
  induction back with
  | nil => simp
  | cons part above ih =>
      rw [obstacle?] at h
      split at h
      · cases h
      · cases h
      · rename_i habove
        split at h
        · cases h
        · rename_i hsize
          rw [List.forall_mem_cons]
          exact ⟨by omega, ih habove⟩

theorem MadeFor.usable (h : d.MadeFor q (d.spot q)) : q.Usable := by
  obtain ⟨hfit, _, front, hfront, hspot, hfree⟩ := h
  rw [spot, List.append_cancel_left_eq] at hspot
  refine ⟨hfit, fun part hpart => size_le_of_obstacle? hfree part ?_⟩
  rwa [hspot, List.mem_reverse] at hpart

end CrateDocs.Disk
