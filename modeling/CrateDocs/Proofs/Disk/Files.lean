import CrateDocs.Proofs.Disk.Replace
import Mathlib.Logic.Function.Basic

namespace CrateDocs

open Function (update)

namespace Folder

-- The content of the file at a location.
def fileAt (f : Folder) (location : Location) : Option (List UInt8) :=
  match f.find? location with
  | some (.file content) => some content
  | _ => none

theorem fileAt_eq_some_iff (f : Folder) (location : Location) (content : List UInt8) :
    f.fileAt location = some content ↔ f.find? location = some (.file content) := by
  rw [fileAt]
  rcases f.find? location with _ | (_ | _) <;> simp

theorem fileAt_eq_none_of_folder {f g : Folder} {location : Location} (h : f.find? location = some (.folder g)) :
    f.fileAt location = none := by
  rw [fileAt, h]

theorem fileAt_cons (f : Folder) (name : String) (rest : Location) :
    f.fileAt (name :: rest) =
      match (f.get? name).bind (·.find? rest) with
      | some (.file content) => some content
      | _ => none := by
  rw [fileAt, find?_cons]

-- A new directory is made where nothing is, so all files stay.
theorem fileAt_change_folder {f : Folder} {above : Location} {name : String} (h : f.find? (above ++ [name]) = none) :
    (f.change (above ++ [name]) (some (.folder .empty))).fileAt = f.fileAt := by
  funext location
  induction above generalizing f location with
  | nil =>
      have hname : f.get? name = none := h
      cases location with
      | nil => rfl
      | cons first rest =>
          rw [List.nil_append, fileAt_cons, fileAt_cons, get?_change_last]
          by_cases hfirst : first = name
          · rw [if_pos hfirst, hfirst, hname]
            cases rest with
            | nil => rfl
            | cons next rest => simp [Entry.find?, find?_cons, get?]
          · rw [if_neg hfirst]
  | cons first above ih =>
      by_cases hfolder : ∃ inner, f.get? first = some (.folder inner)
      · obtain ⟨inner, hinner⟩ := hfolder
        rw [List.cons_append, find?_cons, hinner] at h
        rw [List.cons_append, change_cons hinner]
        cases location with
        | nil => rfl
        | cons next rest =>
            rw [fileAt_cons, fileAt_cons, get?_insert]
            by_cases hnext : next = first
            · rw [if_pos hnext, hnext, hinner]
              exact ih h rest
            · rw [if_neg hnext]
      · rw [List.cons_append, change_cons_of_not_folder (not_exists.mp hfolder)]

-- Above a directory there are only directories.
theorem exists_folder_above {f g : Folder} {location above : Location} (h : f.find? above = some (.folder g))
    (hl : location <+: above) : ∃ inner, f.find? location = some (.folder inner) := by
  obtain ⟨rest, rfl⟩ := hl
  cases rest with
  | nil => exact ⟨g, by rwa [List.append_nil] at h⟩
  | cons next rest =>
      obtain ⟨inner, hinner, _⟩ := find?_above h
      exact ⟨inner, hinner⟩

-- A file that is set in a directory, or taken away, is the only one that changes.
theorem fileAt_change_file {f g : Folder} {above : Location} (habove : f.find? above = some (.folder g))
    {name : String} (hbefore : ∀ g, f.find? (above ++ [name]) ≠ some (.folder g)) (content : Option (List UInt8)) :
    (f.change (above ++ [name]) (content.map .file)).fileAt = update f.fileAt (above ++ [name]) content := by
  funext location
  by_cases hspot : location = above ++ [name]
  · rw [hspot, Function.update_self, fileAt, find?_change_at habove name _ []]
    cases content <;> rfl
  · rw [Function.update_of_ne hspot]
    by_cases hl : location <+: above
    · obtain ⟨inner, hinner⟩ := find?_change_above habove name (content.map .file) hl
      obtain ⟨outer, houter⟩ := exists_folder_above habove hl
      rw [fileAt_eq_none_of_folder hinner, fileAt_eq_none_of_folder houter]
    · have hnot : ¬location <+: above ++ [name] := by
        rw [List.prefix_concat_iff, not_or]
        exact ⟨hspot, hl⟩
      have hafter : ∀ next rest, (content.map Entry.file).bind (·.find? (next :: rest)) = none := by
        intro next rest
        cases content <;> rfl
      rw [fileAt, fileAt, find?_change_of_not_prefix hbefore hafter hnot]

-- A file is in a directory.
theorem exists_above_of_file {f : Folder} {location : Location} {content : List UInt8}
    (h : f.find? location = some (.file content)) :
    ∃ above name g, location = above ++ [name] ∧ f.find? above = some (.folder g) := by
  rcases List.eq_nil_or_concat location with rfl | ⟨above, name, rfl⟩
  · cases h
  · rw [List.concat_eq_append] at h ⊢
    obtain ⟨g, hg, _⟩ := find?_above h
    exact ⟨above, name, g, rfl, hg⟩

-- Setting an entry twice is setting it once.

theorem erase_erase (f : Folder) (name : String) : (f.erase name).erase name = f.erase name := by
  induction f with
  | empty => rfl
  | file n content rest ih =>
      by_cases hn : n = name
      · simp [erase, hn, ih]
      · simp [erase, hn, ih]
  | folder n inner rest _ ih =>
      by_cases hn : n = name
      · simp [erase, hn, ih]
      · simp [erase, hn, ih]

theorem insert_insert (f : Folder) (name : String) (e e' : Entry) : (f.insert name e).insert name e' = f.insert name e' := by
  cases e <;> cases e' <;> simp [insert, erase, erase_erase]

theorem change_change {f g : Folder} {above : Location} (h : f.find? above = some (.folder g)) (name : String)
    (e e' : Entry) :
    (f.change (above ++ [name]) (some e)).change (above ++ [name]) (some e') = f.change (above ++ [name]) (some e') := by
  induction above generalizing f with
  | nil => exact insert_insert f name e e'
  | cons first above ih =>
      obtain ⟨inner, hinner, hrest⟩ := get?_of_find?_cons h
      have hset : (f.insert first (.folder (inner.change (above ++ [name]) (some e)))).get? first =
          some (.folder (inner.change (above ++ [name]) (some e))) := by
        rw [get?_insert, if_pos rfl]
      rw [List.cons_append, change_cons hinner, change_cons hinner, change_cons hset, insert_insert, ih hrest]

end Folder

namespace Disk

-- The content of the file at a location.
def fileAt (d : Disk) : Location → Option (List UInt8) :=
  d.root.fileAt

-- The location of a path by its text alone is all that the operations go by, if they go through.

theorem resolve_congr {d e : Disk} (h : e.here = d.here) (p : Path) : e.resolve p = d.resolve p := by
  rw [resolve, resolve, start, start, h]

theorem resolve_below (d : Disk) (p : Path) {name : String} (hname : name ≠ "..") :
    d.resolve (p.below name) = d.resolve p ++ [name] := by
  rw [resolve, Path.below, List.foldl_append, List.foldl_cons, List.foldl_nil, if_neg hname]
  rfl

theorem up_notMem_resolve (d : Disk) (p : Path) : ".." ∉ d.resolve p := by
  have hfold : ∀ (parts : List String) (spot : Location), ".." ∉ spot →
      ".." ∉ parts.foldl (fun spot part => if part = ".." then spot.dropLast else spot ++ [part]) spot := by
    intro parts
    induction parts with
    | nil => exact fun spot hspot => hspot
    | cons part parts ih =>
        intro spot hspot
        apply ih
        dsimp only
        split
        · exact fun hmem => hspot ((List.dropLast_sublist spot).mem hmem)
        · rename_i hpart
          simp [hspot, Ne.symm hpart]
  exact hfold p.parts _ fun hmem => ne_up_of_isFileName (isFileName_of_mem_start hmem) rfl

theorem plain_resolve (d : Disk) (p : Path) : (⟨.root, d.resolve p⟩ : Path).Plain :=
  up_notMem_resolve d p

theorem resolve_root (d : Disk) {location : Location} (h : ".." ∉ location) : d.resolve ⟨.root, location⟩ = location := by
  have hplain : (⟨.root, location⟩ : Path).Plain := h
  rw [resolve_plain d hplain]
  rfl

theorem fileAt_of_read {d : Disk} {p : Path} {content : List UInt8} (h : d.read p = .ok content) :
    d.fileAt (d.resolve p) = some content :=
  (Folder.fileAt_eq_some_iff _ _ _).mpr (find?_resolve h)

-- What the single operations do to the files.

theorem makeFolder_files {d made : Disk} {p : Path} (h : d.makeFolder p = .ok made) :
    made.here = d.here ∧ made.fileAt = d.fileAt := by
  obtain ⟨spot, _, hfree, rfl⟩ := (makeFolder_eq_ok_iff d p made).mp h
  refine ⟨rfl, ?_⟩
  rcases List.eq_nil_or_concat spot with rfl | ⟨above, name, rfl⟩
  · cases hfree
  · rw [List.concat_eq_append] at hfree ⊢
    exact Folder.fileAt_change_folder hfree

theorem writeFile_files {d written : Disk} {p : Path} {name : String} (hname : name ≠ "..") {content : List UInt8}
    (h : d.writeFile (p.below name) content = .ok written) :
    written.here = d.here ∧ written.fileAt = update d.fileAt (d.resolve (p.below name)) (some content) := by
  obtain ⟨spot, hlocate, hbefore, rfl⟩ := (writeFile_eq_ok_iff d _ content written).mp h
  obtain rfl := locate_eq_resolve hlocate
  obtain ⟨_, _, above, g, _, habove, heq⟩ := (locate_below_eq_ok_iff d p hname _).mp hlocate
  rw [heq] at hbefore ⊢
  exact ⟨rfl, Folder.fileAt_change_file habove hbefore (some content)⟩

-- What is written at once can be written in two parts, the first of them into a new file.
theorem writeFile_again {d written : Disk} {p : Path} {name : String} (hplain : (p.below name).Plain)
    {content : List UInt8} (h : d.writeFile (p.below name) content = .ok written) (first : List UInt8) :
    ∃ created, d.writeFile (p.below name) first = .ok created ∧ created.read (p.below name) = .ok first ∧
      created.writeFile (p.below name) content = .ok written := by
  have hname : name ≠ ".." := by
    rintro rfl
    exact hplain (by simp [Path.below])
  obtain ⟨spot, hlocate, hbefore, rfl⟩ := (writeFile_eq_ok_iff d _ content written).mp h
  obtain ⟨rfl, husable⟩ := locate_plain hplain hlocate
  obtain ⟨_, _, above, g, _, habove, heq⟩ := (locate_below_eq_ok_iff d p hname _).mp hlocate
  have hcreated : (d.put (d.spot (p.below name)) (.file first)).root.find? (d.spot (p.below name)) =
      some (.file first) := by
    rw [heq]
    exact Folder.find?_change_at habove name (some (.file first)) []
  have hentry := (entry_plain_iff (d.put (d.spot (p.below name)) (.file first)) hplain (.file first)).mpr
    ⟨husable, hcreated⟩
  obtain ⟨again, hagain, _⟩ := (entry_eq_ok_iff _ _ _).mp hentry
  obtain ⟨rfl, _⟩ := locate_plain hplain hagain
  refine ⟨_, (writeFile_eq_ok_iff d _ first _).mpr ⟨_, hlocate, hbefore, rfl⟩, (read_eq_ok_iff _ _ _).mpr hentry, ?_⟩
  refine (writeFile_eq_ok_iff _ _ content _).mpr ⟨_, hagain, ?_, ?_⟩
  · intro g hg
    cases hcreated.symm.trans hg
  · have hroot : (d.root.change (d.spot (p.below name)) (some (.file first))).change (d.spot (p.below name))
        (some (.file content)) = d.root.change (d.spot (p.below name)) (some (.file content)) := by
      rw [heq]
      exact Folder.change_change habove name _ _
    exact congrArg (fun root => { d with root := root }) hroot.symm

theorem removeFile_eq_ok_iff (d : Disk) (p : Path) (removed : Disk) :
    d.removeFile p = .ok removed ↔
      ∃ spot content, d.locate p = .ok spot ∧ d.root.find? spot = some (.file content) ∧ removed = d.drop spot := by
  rw [removeFile, refuse_eq_ok_iff]
  cases d.locate p with
  | error refusal => simp [bind, Except.bind]
  | ok spot =>
      rcases hfind : d.root.find? spot with _ | (_ | _) <;>
        simp [bind, Except.bind, pure, Except.pure, throw, throwThe, MonadExceptOf.throw, hfind, eq_comm]

theorem fileAt_drop {d : Disk} {spot : Location} {content : List UInt8} (h : d.root.find? spot = some (.file content)) :
    (d.drop spot).fileAt = update d.fileAt spot none := by
  obtain ⟨above, name, g, rfl, habove⟩ := Folder.exists_above_of_file h
  exact Folder.fileAt_change_file habove (by simp [h]) none

theorem removeFile_files {d removed : Disk} {p : Path} (h : d.removeFile p = .ok removed) :
    removed.here = d.here ∧ removed.fileAt = update d.fileAt (d.resolve p) none := by
  obtain ⟨spot, content, hlocate, hfile, rfl⟩ := (removeFile_eq_ok_iff d p removed).mp h
  obtain rfl := locate_eq_resolve hlocate
  exact ⟨rfl, fileAt_drop hfile⟩

theorem moveFile_files {d moved : Disk} {source p : Path} {name : String} (hname : name ≠ "..")
    (h : d.moveFile source (p.below name) = .ok moved) :
    moved.here = d.here ∧ ∃ content, d.fileAt (d.resolve source) = some content ∧
      moved.fileAt = update (update d.fileAt (d.resolve source) none) (d.resolve (p.below name)) (some content) := by
  obtain ⟨origin, content, spot, horigin, hfile, hlocate, hbefore, rfl⟩ := (moveFile_eq_ok_iff d _ _ moved).mp h
  obtain rfl := locate_eq_resolve horigin
  obtain rfl := locate_eq_resolve hlocate
  obtain ⟨_, _, above, g, _, habove, heq⟩ := (locate_below_eq_ok_iff d p hname _).mp hlocate
  refine ⟨rfl, content, (Folder.fileAt_eq_some_iff _ _ _).mpr hfile, ?_⟩
  rw [heq] at hbefore ⊢
  obtain ⟨outer, last, g', hspot, houter⟩ := Folder.exists_above_of_file hfile
  rw [hspot] at hfile ⊢
  -- The file that is taken away is not the directory that it is moved to, nor above it.
  have hstays : ∀ location g, d.root.find? location = some (.folder g) →
      ∃ g, (d.drop (outer ++ [last])).root.find? location = some (.folder g) := by
    intro location g hg
    by_cases hl : location <+: outer ++ [last]
    · rcases List.prefix_concat_iff.mp hl with rfl | hl
      · rw [hfile] at hg
        cases hg
      · exact Folder.find?_change_above houter last none hl
    · exact ⟨g, by rw [(agreesOff_drop (by simp [hfile])).find _ hl, hg]⟩
  obtain ⟨inner, hinner⟩ := hstays above g habove
  have hfree : ∀ g, (d.drop (outer ++ [last])).root.find? (above ++ [name]) ≠ some (.folder g) := by
    intro g hg
    by_cases hl : above ++ [name] <+: outer ++ [last]
    · rcases List.prefix_concat_iff.mp hl with heq | hl
      · rw [heq, drop, Folder.find?_change_at houter last none []] at hg
        cases hg
      · obtain ⟨g, hg⟩ := Folder.exists_folder_above houter hl
        exact hbefore g hg
    · rw [(agreesOff_drop (by simp [hfile])).find _ hl] at hg
      exact hbefore g hg
  rw [← fileAt_drop hfile]
  exact Folder.fileAt_change_file hinner hfree (some content)

-- What is not in a directory stays when it is taken away.
theorem removeFolder_files {d left : Disk} {p : Path} {gone : Bool} (h : d.removeFolder p = .ok (gone, left))
    {location : Location} (hl : ¬d.resolve p <+: location) : left.fileAt location = d.fileAt location := by
  obtain ⟨spot, g, hlocate, hfolder, _, hleft⟩ := (removeFolder_eq_ok_iff d p gone left).mp h
  obtain ⟨entry, rfl⟩ : ∃ entry, left = { d with root := d.root.change spot entry } := by
    cases gone with
    | true => exact ⟨_, hleft⟩
    | false => exact ⟨_, hleft⟩
  obtain rfl := locate_eq_resolve hlocate
  rcases List.eq_nil_or_concat (d.resolve p) with hnil | ⟨above, name, hspot⟩
  · rw [hnil] at hl
    exact absurd List.nil_prefix hl
  · rw [List.concat_eq_append] at hspot
    rw [hspot] at hfolder hl ⊢
    obtain ⟨inner, hinner, _⟩ := Folder.find?_above hfolder
    by_cases habove : location <+: above
    · -- There are directories above it before and after.
      obtain ⟨after, hafter⟩ := Folder.find?_change_above hinner name entry habove
      obtain ⟨before, hbefore⟩ := Folder.exists_folder_above hinner habove
      rw [fileAt, fileAt, Folder.fileAt_eq_none_of_folder hafter, Folder.fileAt_eq_none_of_folder hbefore]
    · have hsame := Folder.find?_change_beside d.root above name entry habove hl
      rw [fileAt, fileAt, Folder.fileAt, Folder.fileAt, hsame]

end Disk

end CrateDocs
