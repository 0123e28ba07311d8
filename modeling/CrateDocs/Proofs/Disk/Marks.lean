import CrateDocs.Proofs.Disk.Files

namespace CrateDocs

-- What there is at a location, without what is in a directory.
inductive Mark
  | file (content : List UInt8)
  | folder
deriving DecidableEq

def Entry.mark : Entry → Mark
  | .file content => .file content
  | .folder _ => .folder

namespace Disk

def mark? (d : Disk) (location : Location) : Option Mark :=
  (d.root.find? location).map Entry.mark

theorem mark?_eq_folder_iff (d : Disk) (location : Location) :
    d.mark? location = some .folder ↔ ∃ inner, d.root.find? location = some (.folder inner) := by
  rw [mark?]
  rcases d.root.find? location with _ | (_ | _) <;> simp [Entry.mark]

theorem mark?_eq_file_iff (d : Disk) (location : Location) (content : List UInt8) :
    d.mark? location = some (.file content) ↔ d.root.find? location = some (.file content) := by
  rw [mark?]
  rcases d.root.find? location with _ | (_ | _) <;> simp [Entry.mark]

theorem mark?_eq_none_iff (d : Disk) (location : Location) :
    d.mark? location = none ↔ d.root.find? location = none := by
  rw [mark?, Option.map_eq_none_iff]

theorem mark?_root (d : Disk) : d.mark? [] = some .folder :=
  rfl

-- Only a directory has anything below it.
theorem mark?_above {d : Disk} {above : Location} {name : String} {rest : Location}
    (h : d.mark? (above ++ name :: rest) ≠ none) : d.mark? above = some .folder := by
  rw [Ne, mark?_eq_none_iff] at h
  obtain ⟨e, he⟩ := Option.ne_none_iff_exists'.mp h
  obtain ⟨inner, hinner, _⟩ := Folder.find?_above he
  exact (mark?_eq_folder_iff d above).mpr ⟨inner, hinner⟩

theorem mark?_folder_above {d : Disk} {above location : Location} (h : d.mark? location = some .folder)
    (hl : above <+: location) : d.mark? above = some .folder := by
  obtain ⟨inner, hinner⟩ := (mark?_eq_folder_iff d location).mp h
  exact (mark?_eq_folder_iff d above).mpr (Folder.exists_folder_above hinner hl)

-- A change of one location that has nothing below it.
theorem mark?_change {d : Disk} {above : Location} {name : String} {e : Option Entry}
    (habove : d.mark? above = some .folder) (hbefore : d.mark? (above ++ [name]) ≠ some .folder)
    (hafter : ∀ next rest, e.bind (·.find? (next :: rest)) = none) :
    ({ d with root := d.root.change (above ++ [name]) e } : Disk).mark? =
      Function.update d.mark? (above ++ [name]) (e.map Entry.mark) := by
  obtain ⟨g, hg⟩ := (mark?_eq_folder_iff d above).mp habove
  have hnot : ∀ g, d.root.find? (above ++ [name]) ≠ some (.folder g) :=
    fun g hg => hbefore ((mark?_eq_folder_iff d _).mpr ⟨g, hg⟩)
  funext location
  by_cases hspot : location = above ++ [name]
  · rw [hspot, Function.update_self, mark?, Folder.find?_change_at hg name e []]
    cases e <;> simp
  · rw [Function.update_of_ne hspot]
    by_cases hl : location <+: above
    · obtain ⟨inner, hinner⟩ := Folder.find?_change_above hg name e hl
      rw [mark?_folder_above habove hl, mark?, hinner]
      rfl
    · have hside : ¬location <+: above ++ [name] := by
        rw [List.prefix_concat_iff, not_or]
        exact ⟨hspot, hl⟩
      rw [mark?, mark?, Folder.find?_change_of_not_prefix hnot hafter hside]

theorem mark?_put_file {d : Disk} {above : Location} {name : String} (habove : d.mark? above = some .folder)
    (hbefore : d.mark? (above ++ [name]) ≠ some .folder) (content : List UInt8) :
    (d.put (above ++ [name]) (.file content)).mark? =
      Function.update d.mark? (above ++ [name]) (some (.file content)) :=
  mark?_change habove hbefore fun _ _ => rfl

theorem mark?_put_folder {d : Disk} {above : Location} {name : String} (habove : d.mark? above = some .folder)
    (hbefore : d.mark? (above ++ [name]) = none) :
    (d.put (above ++ [name]) (.folder .empty)).mark? = Function.update d.mark? (above ++ [name]) (some .folder) := by
  refine mark?_change habove (by simp [hbefore]) fun next rest => ?_
  rw [Option.bind_some, Entry.find?, Folder.find?_cons]
  rfl

theorem mark?_drop {d : Disk} {above : Location} {name : String} (habove : d.mark? above = some .folder)
    (hbefore : d.mark? (above ++ [name]) ≠ some .folder) :
    (d.drop (above ++ [name])).mark? = Function.update d.mark? (above ++ [name]) none :=
  mark?_change habove hbefore fun _ _ => rfl

-- A change below something that is no directory is none.
theorem mark?_change_missing {f : Folder} {above : Location} (h : ∀ g, f.find? above ≠ some (.folder g)) (name : String)
    (e : Option Entry) (location : Location) :
    ((f.change (above ++ [name]) e).find? location).map Entry.mark = (f.find? location).map Entry.mark := by
  induction above generalizing f location with
  | nil => exact absurd rfl (h f)
  | cons first above ih =>
      rw [List.cons_append]
      by_cases hfirst : ∃ inner, f.get? first = some (.folder inner)
      · obtain ⟨inner, hfirst⟩ := hfirst
        rw [Folder.change_cons hfirst]
        cases location with
        | nil => rfl
        | cons next rest =>
            rw [Folder.find?_cons, Folder.find?_cons, Folder.get?_insert]
            by_cases hnext : next = first
            · have hinner : ∀ g, inner.find? above ≠ some (.folder g) := by
                intro g hg
                apply h g
                rw [Folder.find?_cons, hfirst]
                exact hg
              rw [if_pos hnext, hnext, hfirst]
              exact ih hinner rest
            · rw [if_neg hnext]
      · rw [Folder.change_cons_of_not_folder (not_exists.mp hfirst)]

-- The locations that a path goes through, by its text alone.
def trail : Location → List String → List Location
  | spot, [] => [spot]
  | spot, part :: rest => spot :: trail (if part = ".." then spot.dropLast else spot ++ [part]) rest

theorem mem_trail_of_walk {root : Folder} {spot found : Location} {parts : List String}
    (h : walk root spot parts = .ok found) : found ∈ trail spot parts := by
  induction parts generalizing spot with
  | nil =>
      cases h
      exact List.mem_singleton.mpr rfl
  | cons part rest ih =>
      rw [trail, List.mem_cons]
      apply Or.inr
      rw [walk] at h
      split at h
      · cases h
      · cases h
      · split at h
        · rename_i hup
          rw [if_pos hup]
          exact ih h
        · rename_i hup
          rw [if_neg hup]
          split at h
          · cases h
          · exact ih h

-- Components that never go up, with one more that may.
theorem mem_trail_concat {spot l : Location} {parts : List String} {name : String} (hparts : ".." ∉ parts)
    (h : l ∈ trail spot (parts ++ [name])) : l <+: spot ++ parts ∨ l = spot ++ parts ++ [name] := by
  induction parts generalizing spot with
  | nil =>
      rw [List.nil_append, trail, trail, List.mem_cons, List.mem_singleton] at h
      rw [List.append_nil]
      rcases h with rfl | rfl
      · exact Or.inl (List.prefix_refl l)
      · split
        · exact Or.inl (List.dropLast_prefix spot)
        · exact Or.inr rfl
  | cons part rest ih =>
      rw [List.mem_cons, not_or] at hparts
      rw [List.cons_append, trail, List.mem_cons, if_neg (Ne.symm hparts.1)] at h
      rcases h with rfl | h
      · exact Or.inl (List.prefix_append _ _)
      · have hrest := ih hparts.2 h
        rwa [List.append_assoc spot, List.singleton_append] at hrest

-- Nothing matters for a path but what there is on its way.

theorem walk_congr {d e : Disk} {spot : Location} {parts : List String}
    (h : ∀ l ∈ trail spot parts, e.mark? l = d.mark? l) : walk e.root spot parts = walk d.root spot parts := by
  induction parts generalizing spot with
  | nil => rfl
  | cons part rest ih =>
      rw [trail, List.forall_mem_cons] at h
      have hrest := ih h.2
      have hspot := h.1
      rw [mark?, mark?] at hspot
      rw [walk, walk]
      rcases hd : d.root.find? spot with _ | (content | inner)
      · rw [hd, Option.map_none, Option.map_eq_none_iff] at hspot
        rw [hspot]
      · rw [hd, Option.map_some, Option.map_eq_some_iff] at hspot
        obtain ⟨found, hfound, hmark⟩ := hspot
        cases found with
        | file other => rw [hfound]
        | folder other => cases hmark
      · rw [hd, Option.map_some, Option.map_eq_some_iff] at hspot
        obtain ⟨found, hfound, hmark⟩ := hspot
        cases found with
        | file other => cases hmark
        | folder other =>
            rw [hfound]
            dsimp only
            by_cases hup : part = ".."
            · rw [if_pos hup] at hrest ⊢
              rw [if_pos hup]
              exact hrest
            · rw [if_neg hup] at hrest ⊢
              rw [if_neg hup, hrest]

def trailOf (d : Disk) (p : Path) : List Location :=
  trail (d.start p) p.parts

-- Disks that agree on the way of a path.
structure Agree (d e : Disk) (p : Path) : Prop where
  here : e.here = d.here
  marks : ∀ l ∈ d.trailOf p, e.mark? l = d.mark? l

variable {d e : Disk} {p : Path}

theorem start_congr (h : e.here = d.here) (p : Path) : e.start p = d.start p := by
  rw [start, start, h]

theorem Agree.locate (h : Agree d e p) : e.locate p = d.locate p := by
  rw [locate_eq, locate_eq, start_congr h.here, walk_congr h.marks]

theorem Agree.entry (h : Agree d e p) : (e.entry p).map Entry.mark = (d.entry p).map Entry.mark := by
  rw [entry_eq, entry_eq, h.locate]
  cases hlocate : d.locate p with
  | error refusal => rfl
  | ok spot =>
      have hspot := h.marks spot (mem_trail_of_walk ((locate_eq_ok_iff d p spot).mp hlocate).2)
      rw [mark?, mark?] at hspot
      dsimp only
      rcases hd : d.root.find? spot with _ | found
      · rw [hd, Option.map_none, Option.map_eq_none_iff] at hspot
        rw [hspot]
      · rw [hd, Option.map_some, Option.map_eq_some_iff] at hspot
        obtain ⟨other, hother, hmark⟩ := hspot
        rw [hother]
        exact congrArg Except.ok hmark

theorem read_eq_mark (d : Disk) (p : Path) :
    d.read p =
      match (d.entry p).map Entry.mark with
      | .ok (.file content) => .ok content
      | .ok .folder => .error ⟨.isFolder, some p.text⟩
      | .error refusal => .error ⟨refusal, some p.text⟩ := by
  rw [read_eq]
  rcases d.entry p with _ | (_ | _) <;> rfl

theorem isFile_eq_mark (d : Disk) (p : Path) :
    d.isFile p =
      match (d.entry p).map Entry.mark with
      | .ok (.file _) => .ok true
      | .ok .folder => .ok false
      | .error refusal => if refusal.meansAbsent then .ok false else .error ⟨refusal, some p.text⟩ := by
  rw [isFile, test]
  rcases d.entry p with _ | (_ | _) <;> rfl

theorem Agree.read (h : Agree d e p) : e.read p = d.read p := by
  rw [read_eq_mark, read_eq_mark, h.entry]

theorem hasEntry_eq_mark (d : Disk) (p : Path) :
    d.hasEntry p =
      match (d.entry p).map Entry.mark with
      | .ok _ => .ok true
      | .error refusal => if refusal.meansAbsent then .ok false else .error ⟨refusal, some p.text⟩ := by
  rw [hasEntry, test]
  cases d.entry p <;> rfl

theorem isFolder_eq_mark (d : Disk) (p : Path) :
    d.isFolder p =
      match (d.entry p).map Entry.mark with
      | .ok (.file _) => .ok false
      | .ok .folder => .ok true
      | .error refusal => if refusal.meansAbsent then .ok false else .error ⟨refusal, some p.text⟩ := by
  rw [isFolder, test]
  rcases d.entry p with _ | (_ | _) <;> rfl

-- What components lead to.
def lookup (d : Disk) (spot : Location) (parts : List String) : Except Refusal Mark :=
  match walk d.root spot parts with
  | .error refusal => .error refusal
  | .ok found =>
    match d.mark? found with
    | some m => .ok m
    | none => .error .noEntry

theorem map_mark_entry (d : Disk) (p : Path) :
    (d.entry p).map Entry.mark =
      match textRefusal? p with
      | some refusal => .error refusal
      | none => d.lookup (d.start p) p.parts := by
  rw [entry_eq, locate_eq]
  cases textRefusal? p with
  | some refusal => rfl
  | none =>
      dsimp only
      rw [lookup]
      cases walk d.root (d.start p) p.parts with
      | error refusal => rfl
      | ok found =>
          dsimp only [mark?]
          cases d.root.find? found <;> rfl

theorem lookup_nil (d : Disk) (spot : Location) :
    d.lookup spot [] =
      match d.mark? spot with
      | some m => .ok m
      | none => .error .noEntry :=
  rfl

theorem lookup_cons {part : String} (hpart : part ≠ "..") (d : Disk) (spot : Location) (rest : List String) :
    d.lookup spot (part :: rest) =
      match d.mark? spot with
      | none => .error .noEntry
      | some (.file _) => .error .notFolder
      | some .folder => if nameLimit < Utf8.size part then .error .nameTooLong else d.lookup (spot ++ [part]) rest := by
  rw [lookup, walk, mark?]
  rcases d.root.find? spot with _ | (content | inner)
  · rfl
  · rfl
  · dsimp only [Option.map_some, Entry.mark]
    rw [if_neg hpart]
    by_cases hsize : nameLimit < Utf8.size part
    · rw [if_pos hsize, if_pos hsize]
    · rw [if_neg hsize, if_neg hsize, lookup]

theorem lookup_of_none {spot : Location} (h : d.mark? spot = none) (parts : List String) :
    d.lookup spot parts = .error .noEntry := by
  cases parts with
  | nil => rw [lookup_nil, h]
  | cons part rest => rw [lookup, walk, (mark?_eq_none_iff d spot).mp h]

theorem mark?_below_none {location : Location} (h : d.mark? location = none) (name : String) :
    d.mark? (location ++ [name]) = none := by
  by_contra hne
  rw [mark?_above hne] at h
  cases h

-- More directories on the way make no difference to what is found, unless they are what is found.
theorem lookup_congr {spot : Location} {parts : List String} (hparts : ".." ∉ parts)
    (hsizes : ∀ part ∈ parts, Utf8.size part ≤ nameLimit)
    (hway : ∀ front, front <+: parts → e.mark? (spot ++ front) = d.mark? (spot ++ front) ∨
      d.mark? (spot ++ front) = none ∧ e.mark? (spot ++ front) = some .folder)
    (hend : e.mark? (spot ++ parts) = d.mark? (spot ++ parts)) : e.lookup spot parts = d.lookup spot parts := by
  induction parts generalizing spot with
  | nil =>
      rw [List.append_nil] at hend
      rw [lookup_nil, lookup_nil, hend]
  | cons part rest ih =>
      rw [List.mem_cons, not_or] at hparts
      rw [List.forall_mem_cons] at hsizes
      have hshift : ∀ front, spot ++ [part] ++ front = spot ++ part :: front := by simp
      have hrest : e.lookup (spot ++ [part]) rest = d.lookup (spot ++ [part]) rest := by
        apply ih hparts.2 hsizes.2
        · intro front hfront
          rw [hshift]
          exact hway (part :: front) (List.cons_prefix_cons.mpr ⟨rfl, hfront⟩)
        · rw [hshift]
          exact hend
      have hsize : ¬nameLimit < Utf8.size part := Nat.not_lt.mpr hsizes.1
      rw [lookup_cons (Ne.symm hparts.1), lookup_cons (Ne.symm hparts.1), if_neg hsize, if_neg hsize, hrest]
      have hspot := hway [] List.nil_prefix
      rw [List.append_nil] at hspot
      rcases hspot with hsame | ⟨hnone, hmade⟩
      · rw [hsame]
      · rw [hnone, hmade]
        exact lookup_of_none (mark?_below_none hnone part) rest

-- What is found is found on a disk that has more directories as well, and so is what stands in the way.
theorem lookup_more {spot : Location} {parts : List String} (hparts : ".." ∉ parts)
    (hway : ∀ front, front <+: parts → e.mark? (spot ++ front) = d.mark? (spot ++ front) ∨
      d.mark? (spot ++ front) = none) :
    d.lookup spot parts = .error .noEntry ∨ e.lookup spot parts = d.lookup spot parts := by
  induction parts generalizing spot with
  | nil =>
      have hspot := hway [] List.nil_prefix
      rw [List.append_nil] at hspot
      rcases hspot with hsame | hnone
      · rw [lookup_nil, lookup_nil, hsame]
        exact Or.inr rfl
      · exact Or.inl (lookup_of_none hnone [])
  | cons part rest ih =>
      rw [List.mem_cons, not_or] at hparts
      have hspot := hway [] List.nil_prefix
      rw [List.append_nil] at hspot
      rcases hspot with hsame | hnone
      · have hrest : d.lookup (spot ++ [part]) rest = .error .noEntry ∨
            e.lookup (spot ++ [part]) rest = d.lookup (spot ++ [part]) rest := by
          apply ih hparts.2
          intro front hfront
          rw [List.append_assoc, List.singleton_append]
          exact hway (part :: front) (List.cons_prefix_cons.mpr ⟨rfl, hfront⟩)
        rw [lookup_cons (Ne.symm hparts.1), lookup_cons (Ne.symm hparts.1), hsame]
        split
        · exact Or.inl rfl
        · exact Or.inr rfl
        · split
          · exact Or.inr rfl
          · exact hrest
      · exact Or.inl (lookup_of_none hnone _)

-- A name that is too long is met once there is a directory above it, and not before.
theorem lookup_eq_nameTooLong_iff {spot : Location} {parts : List String} (hparts : ".." ∉ parts) :
    d.lookup spot parts = .error .nameTooLong ↔
      ∃ front part rest, parts = front ++ part :: rest ∧ nameLimit < Utf8.size part ∧
        d.mark? (spot ++ front) = some .folder := by
  induction parts generalizing spot with
  | nil =>
      rw [lookup_nil]
      cases d.mark? spot <;> simp
  | cons part rest ih =>
      rw [List.mem_cons, not_or] at hparts
      rw [lookup_cons (Ne.symm hparts.1)]
      constructor
      · intro h
        split at h
        · cases h
        · cases h
        · rename_i hspot
          split at h
          · rename_i hsize
            exact ⟨[], part, rest, rfl, hsize, by rwa [List.append_nil]⟩
          · obtain ⟨front, long, more, hrest, hsize, hfolder⟩ := (ih hparts.2).mp h
            rw [List.append_assoc, List.singleton_append] at hfolder
            exact ⟨part :: front, long, more, by rw [hrest, List.cons_append], hsize, hfolder⟩
      · rintro ⟨front, long, more, hsplit, hsize, hfolder⟩
        rw [mark?_folder_above hfolder (List.prefix_append spot front)]
        dsimp only
        cases front with
        | nil =>
            obtain ⟨rfl, _⟩ := List.cons.inj hsplit
            rw [if_pos hsize]
        | cons first front =>
            obtain ⟨rfl, hrest⟩ := List.cons.inj hsplit
            have hlater : d.lookup (spot ++ [part]) rest = .error .nameTooLong :=
              (ih hparts.2).mpr ⟨front, long, more, hrest, hsize, by rwa [List.append_assoc, List.singleton_append]⟩
            rw [hlater]
            split <;> rfl

theorem fileAt_eq_mark (d : Disk) (location : Location) :
    d.fileAt location =
      match d.mark? location with
      | some (.file content) => some content
      | _ => none := by
  rw [fileAt, Folder.fileAt, mark?]
  rcases d.root.find? location with _ | (_ | _) <;> rfl

-- What the changes of a disk do to what there is.

theorem makeFolder_marks {made : Disk} (hp : p.Plain) (h : d.makeFolder p = .ok made) :
    made.here = d.here ∧ made.limits = d.limits ∧ p.Usable ∧
      ∀ l, made.mark? l = d.mark? l ∨ l = d.spot p ∧ d.mark? l = none ∧ made.mark? l = some .folder := by
  obtain ⟨spot, hlocate, hfree, rfl⟩ := (makeFolder_eq_ok_iff d p made).mp h
  obtain ⟨rfl, husable⟩ := locate_plain hp hlocate
  refine ⟨rfl, rfl, husable, fun l => ?_⟩
  rw [← mark?_eq_none_iff] at hfree
  rcases List.eq_nil_or_concat (d.spot p) with htop | ⟨above, name, hspot⟩
  · rw [htop, mark?_root] at hfree
    cases hfree
  · rw [List.concat_eq_append] at hspot
    rw [hspot] at hfree ⊢
    by_cases habove : d.mark? above = some .folder
    · rw [mark?_put_folder habove hfree]
      by_cases hl : l = above ++ [name]
      · rw [hl, Function.update_self]
        exact Or.inr ⟨rfl, hfree, rfl⟩
      · rw [Function.update_of_ne hl]
        exact Or.inl rfl
    · -- Only a path without components leads below something that is no directory.
      refine Or.inl (mark?_change_missing (fun g hg => habove ?_) name _ l)
      exact (mark?_eq_folder_iff d above).mpr ⟨g, hg⟩

theorem writeFile_marks {name : String} (hname : name ≠ "..") {content : List UInt8} {written : Disk}
    (h : d.writeFile (p.below name) content = .ok written) :
    written.here = d.here ∧ written.limits = d.limits ∧
      written.mark? = Function.update d.mark? (d.resolve (p.below name)) (some (.file content)) := by
  obtain ⟨spot, hlocate, hbefore, rfl⟩ := (writeFile_eq_ok_iff d _ content written).mp h
  obtain rfl := locate_eq_resolve hlocate
  obtain ⟨_, _, above, inner, _, habove, heq⟩ := (locate_below_eq_ok_iff d p hname _).mp hlocate
  rw [heq] at hbefore ⊢
  refine ⟨rfl, rfl, mark?_put_file ((mark?_eq_folder_iff d above).mpr ⟨inner, habove⟩) (fun hfolder => ?_) content⟩
  obtain ⟨g, hg⟩ := (mark?_eq_folder_iff d _).mp hfolder
  exact hbefore g hg

-- A file that is written where nothing was found is new.
theorem mark?_of_hasEntry {written : Disk} {content : List UInt8} (hfree : d.hasEntry p = .ok false)
    (h : d.writeFile p content = .ok written) : d.mark? (d.resolve p) = none := by
  obtain ⟨spot, hlocate, _, _⟩ := (writeFile_eq_ok_iff d p content written).mp h
  rw [← locate_eq_resolve hlocate, mark?_eq_none_iff]
  by_contra hthere
  obtain ⟨found, hfound⟩ := Option.ne_none_iff_exists'.mp hthere
  have hentry := (entry_eq_ok_iff d p _).mpr ⟨spot, hlocate, hfound⟩
  rw [(hasEntry_eq_true_iff d p).mpr ⟨_, hentry⟩] at hfree
  cases hfree

theorem removeFile_marks {name : String} (hname : name ≠ "..") {removed : Disk}
    (h : d.removeFile (p.below name) = .ok removed) :
    removed.here = d.here ∧ removed.limits = d.limits ∧
      removed.mark? = Function.update d.mark? (d.resolve (p.below name)) none := by
  obtain ⟨spot, content, hlocate, hfile, rfl⟩ := (removeFile_eq_ok_iff d _ removed).mp h
  obtain rfl := locate_eq_resolve hlocate
  obtain ⟨_, _, above, inner, _, habove, heq⟩ := (locate_below_eq_ok_iff d p hname _).mp hlocate
  rw [← mark?_eq_file_iff] at hfile
  rw [heq] at hfile ⊢
  exact ⟨rfl, rfl, mark?_drop ((mark?_eq_folder_iff d above).mpr ⟨inner, habove⟩) (by simp [hfile])⟩

-- Disks that hold the same, whatever order their directories are listed in.
structure Rearranged (d e : Disk) : Prop where
  here : e.here = d.here
  limits : e.limits = d.limits
  marks : e.mark? = d.mark?

theorem Rearranged.agree (h : Rearranged d e) (p : Path) : Agree d e p :=
  ⟨h.here, fun l _ => congrFun h.marks l⟩

theorem Rearranged.isFile (h : Rearranged d e) (p : Path) : e.isFile p = d.isFile p := by
  rw [isFile_eq_mark, isFile_eq_mark, (h.agree p).entry]

theorem Rearranged.isFolder (h : Rearranged d e) (p : Path) : e.isFolder p = d.isFolder p := by
  rw [isFolder_eq_mark, isFolder_eq_mark, (h.agree p).entry]

theorem mem_names_iff_mark {spot : Location} {inner : Folder} (h : d.root.find? spot = some (.folder inner))
    (name : String) : name ∈ inner.names ↔ d.mark? (spot ++ [name]) ≠ none := by
  rw [Folder.mem_names_iff, Ne, Ne, mark?_eq_none_iff, Folder.find?_snoc h]

theorem Rearranged.names_perm (h : Rearranged d e) {inner inner' : Folder} (hd : d.entry p = .ok (.folder inner))
    (he : e.entry p = .ok (.folder inner')) : inner'.names.Perm inner.names := by
  obtain ⟨spot, hspot, hinner⟩ := (entry_eq_ok_iff d p _).mp hd
  obtain ⟨spot', hspot', hinner'⟩ := (entry_eq_ok_iff e p _).mp he
  rw [(h.agree p).locate, hspot] at hspot'
  obtain rfl := Except.ok.inj hspot'
  refine (List.perm_ext_iff_of_nodup inner'.nodup_names inner.nodup_names).mpr fun name => ?_
  rw [mem_names_iff_mark hinner', mem_names_iff_mark hinner, h.marks]

-- A directory is listed on both with the same paths, or on neither for the same reason.
theorem Rearranged.list (h : Rearranged d e) (p : Path) :
    (∃ refused, d.list p = .error refused ∧ e.list p = .error refused) ∨
      ∃ entries entries', d.list p = .ok entries ∧ e.list p = .ok entries' ∧ entries'.Perm entries := by
  have hmark := (h.agree p).entry
  rw [list_eq, list_eq, h.limits]
  by_cases hdenied : p.text ∈ d.limits.unlistable
  · rw [if_pos hdenied, if_pos hdenied]
    exact Or.inl ⟨_, rfl, rfl⟩
  · rw [if_neg hdenied, if_neg hdenied]
    rcases hd : d.entry p with refusal | (content | inner) <;>
      rcases he : e.entry p with refusal' | (content' | inner') <;> rw [hd, he] at hmark
    case error.error =>
      obtain rfl := Except.error.inj hmark
      exact Or.inl ⟨_, rfl, rfl⟩
    case ok.file.ok.file => exact Or.inl ⟨_, rfl, rfl⟩
    case ok.folder.ok.folder => exact Or.inr ⟨_, _, rfl, rfl, (h.names_perm hd he).map p.below⟩
    all_goals cases hmark

end Disk

end CrateDocs
