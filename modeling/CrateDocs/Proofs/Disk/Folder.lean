import CrateDocs.Disk.Folder
import Mathlib.Data.List.Perm.Subperm

namespace CrateDocs

-- The entry at a location below an entry.
def Entry.find? : Entry → Location → Option Entry
  | .folder inner, location => inner.find? location
  | .file content, [] => some (.file content)
  | .file _, _ :: _ => none

@[simp] theorem Entry.find?_nil (e : Entry) : e.find? [] = some e := by
  cases e <;> rfl

namespace Folder

theorem get?_erase (f : Folder) (name other : String) :
    (f.erase name).get? other = if other = name then none else f.get? other := by
  induction f with
  | empty => simp [erase, get?]
  | file n content rest ih =>
      by_cases hn : n = name
      · subst hn
        rw [erase, if_pos rfl, ih]
        by_cases ho : other = n
        · simp [ho]
        · simp [get?, ho, Ne.symm ho]
      · rw [erase, if_neg hn, get?, get?, ih]
        by_cases ho : n = other
        · subst ho
          simp [hn]
        · simp [ho]
  | folder n inner rest _ ih =>
      by_cases hn : n = name
      · subst hn
        rw [erase, if_pos rfl, ih]
        by_cases ho : other = n
        · simp [ho]
        · simp [get?, ho, Ne.symm ho]
      · rw [erase, if_neg hn, get?, get?, ih]
        by_cases ho : n = other
        · subst ho
          simp [hn]
        · simp [ho]

theorem get?_insert (f : Folder) (name other : String) (e : Entry) :
    (f.insert name e).get? other = if other = name then some e else f.get? other := by
  by_cases ho : other = name
  · subst ho
    cases e <;> simp [insert, get?]
  · cases e <;> simp [insert, get?, get?_erase, ho, Ne.symm ho]

theorem mem_allNames_iff (f : Folder) (name : String) : name ∈ f.allNames ↔ f.get? name ≠ none := by
  induction f with
  | empty => simp [allNames, get?]
  | file n content rest ih =>
      by_cases hn : n = name
      · simp [allNames, get?, hn]
      · simp [allNames, get?, hn, Ne.symm hn, ih]
  | folder n inner rest _ ih =>
      by_cases hn : n = name
      · simp [allNames, get?, hn]
      · simp [allNames, get?, hn, Ne.symm hn, ih]

theorem mem_names_iff (f : Folder) (name : String) : name ∈ f.names ↔ f.get? name ≠ none := by
  rw [names, List.mem_eraseDups, mem_allNames_iff]

theorem nodup_eraseDups : (l : List String) → l.eraseDups.Nodup
  | [] => by simp
  | name :: rest => by
      rw [List.eraseDups_cons, List.nodup_cons]
      refine ⟨?_, nodup_eraseDups _⟩
      simp [List.mem_eraseDups]
termination_by l => l.length
decreasing_by exact Nat.lt_succ_of_le (List.length_filter_le _ _)

theorem nodup_names (f : Folder) : f.names.Nodup :=
  nodup_eraseDups f.allNames

-- Looking a location up goes through the entries on the way.

theorem find?_cons (f : Folder) (name : String) (rest : Location) :
    f.find? (name :: rest) = (f.get? name).bind (·.find? rest) := by
  cases rest with
  | nil => cases hname : f.get? name <;> simp [find?, hname]
  | cons next rest =>
      cases hname : f.get? name with
      | none => simp [find?, hname]
      | some e => cases e <;> simp [find?, hname, Entry.find?]

theorem find?_append (f : Folder) (above below : Location) :
    f.find? (above ++ below) = (f.find? above).bind (·.find? below) := by
  induction above generalizing f with
  | nil => rfl
  | cons name above ih =>
      rw [List.cons_append, find?_cons, find?_cons]
      cases f.get? name with
      | none => rfl
      | some e =>
          cases e with
          | folder inner => exact ih inner
          | file content => cases above <;> cases below <;> rfl

-- Only a directory has anything at a location below it.
theorem find?_above {f : Folder} {above : Location} {name : String} {rest : Location} {e : Entry}
    (h : f.find? (above ++ name :: rest) = some e) :
    ∃ inner, f.find? above = some (.folder inner) ∧ inner.find? (name :: rest) = some e := by
  rw [find?_append] at h
  obtain ⟨found, hfound, hrest⟩ := Option.bind_eq_some_iff.mp h
  cases found with
  | file content => cases hrest
  | folder inner => exact ⟨inner, hfound, hrest⟩

theorem find?_snoc {f inner : Folder} {above : Location} (h : f.find? above = some (.folder inner))
    (name : String) : f.find? (above ++ [name]) = inner.get? name := by
  rw [find?_append, h, Option.bind_some, Entry.find?, find?]

-- What a change leaves. Above it directories stay directories, at it and below it is what was set if
-- there was a directory to set it in, and everywhere else is what was there.

theorem change_cons {f inner : Folder} {name : String} (h : f.get? name = some (.folder inner))
    (above : Location) (last : String) (e : Option Entry) :
    f.change (name :: (above ++ [last])) e = f.insert name (.folder (inner.change (above ++ [last]) e)) := by
  cases hrest : above ++ [last] with
  | nil => simp at hrest
  | cons next rest => simp [change, h]

theorem change_cons_of_not_folder {f : Folder} {name : String}
    (h : ∀ inner, f.get? name ≠ some (.folder inner)) (above : Location) (last : String)
    (e : Option Entry) : f.change (name :: (above ++ [last])) e = f := by
  cases hrest : above ++ [last] with
  | nil => simp at hrest
  | cons next rest =>
      cases hname : f.get? name with
      | none => simp [change, hname]
      | some found =>
          cases found with
          | file content => simp [change, hname]
          | folder inner => exact absurd hname (h inner)

theorem get?_change_last (f : Folder) (name other : String) (e : Option Entry) :
    (f.change [name] e).get? other = if other = name then e else f.get? other := by
  cases e with
  | none => rw [change, get?_erase]
  | some e => rw [change, get?_insert]

-- The directory on the first step of a location at which there is a directory.
theorem get?_of_find?_cons {f g : Folder} {name : String} {rest : Location}
    (h : f.find? (name :: rest) = some (.folder g)) :
    ∃ inner, f.get? name = some (.folder inner) ∧ inner.find? rest = some (.folder g) := by
  rw [find?_cons] at h
  obtain ⟨e, he, hrest⟩ := Option.bind_eq_some_iff.mp h
  cases e with
  | file content => cases rest <;> cases hrest
  | folder inner => exact ⟨inner, he, hrest⟩

theorem find?_change_at {f g : Folder} {above : Location} (h : f.find? above = some (.folder g))
    (name : String) (e : Option Entry) (below : Location) :
    (f.change (above ++ [name]) e).find? (above ++ name :: below) = e.bind (·.find? below) := by
  induction above generalizing f with
  | nil =>
      rw [List.nil_append, List.nil_append, find?_cons, get?_change_last, if_pos rfl]
  | cons first above ih =>
      obtain ⟨inner, hfirst, hinner⟩ := get?_of_find?_cons h
      rw [List.cons_append, List.cons_append, change_cons hfirst, find?_cons, get?_insert, if_pos rfl]
      exact ih hinner

theorem find?_change_above {f g : Folder} {above : Location} (h : f.find? above = some (.folder g))
    (name : String) (e : Option Entry) {location : Location} (hl : location <+: above) :
    ∃ inner, (f.change (above ++ [name]) e).find? location = some (.folder inner) := by
  induction above generalizing f location with
  | nil =>
      obtain rfl := List.prefix_nil.mp hl
      exact ⟨_, rfl⟩
  | cons first above ih =>
      cases location with
      | nil => exact ⟨_, rfl⟩
      | cons next location =>
          obtain ⟨inner, hfirst, hinner⟩ := get?_of_find?_cons h
          obtain ⟨rfl, htail⟩ := List.cons_prefix_cons.mp hl
          obtain ⟨found, hfound⟩ := ih hinner htail
          refine ⟨found, ?_⟩
          rw [List.cons_append, change_cons hfirst, find?_cons, get?_insert, if_pos rfl]
          exact hfound

theorem find?_change_beside (f : Folder) (above : Location) (name : String) (e : Option Entry)
    {location : Location} (habove : ¬location <+: above) (hbelow : ¬above ++ [name] <+: location) :
    (f.change (above ++ [name]) e).find? location = f.find? location := by
  induction above generalizing f location with
  | nil =>
      cases location with
      | nil => exact absurd List.nil_prefix habove
      | cons next location =>
          have hne : next ≠ name := by
            rintro rfl
            exact hbelow (List.prefix_append [next] location)
          rw [List.nil_append, find?_cons, find?_cons, get?_change_last, if_neg hne]
  | cons first above ih =>
      cases location with
      | nil => exact absurd List.nil_prefix habove
      | cons next location =>
          rw [List.cons_append]
          by_cases hfirst : ∃ inner, f.get? first = some (.folder inner)
          · obtain ⟨inner, hfirst⟩ := hfirst
            rw [change_cons hfirst, find?_cons, find?_cons, get?_insert]
            by_cases hnext : next = first
            · subst hnext
              rw [if_pos rfl, hfirst]
              refine ih inner (fun hl => habove ?_) (fun hl => hbelow ?_)
              · exact List.cons_prefix_cons.mpr ⟨rfl, hl⟩
              · rw [List.cons_append]
                exact List.cons_prefix_cons.mpr ⟨rfl, hl⟩
            · rw [if_neg hnext]
          · rw [change_cons_of_not_folder fun inner hinner => hfirst ⟨inner, hinner⟩]

theorem find?_change_missing {f : Folder} {above : Location}
    (h : ∀ g, f.find? above ≠ some (.folder g)) (name : String) (e : Option Entry) (below : Location) :
    (f.change (above ++ [name]) e).find? (above ++ name :: below) = none := by
  induction above generalizing f with
  | nil => exact absurd rfl (h f)
  | cons first above ih =>
      rw [List.cons_append, List.cons_append, find?_cons]
      by_cases hfirst : ∃ inner, f.get? first = some (.folder inner)
      · obtain ⟨inner, hfirst⟩ := hfirst
        rw [change_cons hfirst, get?_insert, if_pos rfl]
        refine ih fun g hg => h g ?_
        rw [find?_cons, hfirst]
        exact hg
      · rw [change_cons_of_not_folder fun inner hinner => hfirst ⟨inner, hinner⟩]
        cases hfound : f.get? first with
        | none => rfl
        | some found =>
            cases found with
            | folder inner => exact absurd ⟨inner, hfound⟩ hfirst
            | file content => cases above <;> rfl

-- A change of something with nothing below it into something with nothing below it is seen only at
-- its own place and above.
theorem find?_change_of_not_prefix {f : Folder} {above : Location} {name : String} {e : Option Entry}
    (hbefore : ∀ g, f.find? (above ++ [name]) ≠ some (.folder g))
    (hafter : ∀ next rest, e.bind (·.find? (next :: rest)) = none)
    {location : Location} (hl : ¬location <+: above ++ [name]) :
    (f.change (above ++ [name]) e).find? location = f.find? location := by
  by_cases hbelow : above ++ [name] <+: location
  · obtain ⟨below, rfl⟩ := hbelow
    cases below with
    | nil => exact absurd (by simp) hl
    | cons next rest =>
        have hnone : f.find? (above ++ [name] ++ next :: rest) = none := by
          rw [← Option.not_isSome_iff_eq_none]
          intro hsome
          obtain ⟨found, hfound⟩ := Option.isSome_iff_exists.mp hsome
          obtain ⟨inner, hinner, _⟩ := find?_above hfound
          exact hbefore inner hinner
        rw [hnone, List.append_assoc, List.singleton_append]
        by_cases hfolder : ∃ g, f.find? above = some (.folder g)
        · obtain ⟨g, hg⟩ := hfolder
          rw [find?_change_at hg, hafter]
        · exact find?_change_missing (fun g hg => hfolder ⟨g, hg⟩) name e _
  · exact find?_change_beside f above name e (fun h => hl (h.trans (List.prefix_append _ _))) hbelow

-- How many files there can be at different locations.

-- The locations of all files, those included that another entry of the same name hides.
def fileSpots : Folder → List Location
  | empty => []
  | file n _ rest => [n] :: rest.fileSpots
  | folder n inner rest => inner.fileSpots.map (n :: ·) ++ rest.fileSpots

theorem length_fileSpots (f : Folder) : f.fileSpots.length = f.fileCount := by
  induction f with
  | empty => rfl
  | file n content rest ih => simp [fileSpots, fileCount, ih]
  | folder n inner rest ihInner ih => simp [fileSpots, fileCount, ihInner, ih]

theorem mem_fileSpots {f : Folder} {spot : Location} {content : List UInt8}
    (h : f.find? spot = some (.file content)) : spot ∈ f.fileSpots := by
  induction f generalizing spot with
  | empty =>
      cases spot with
      | nil => cases h
      | cons name below => simp [find?_cons, get?] at h
  | file n held rest ih =>
      cases spot with
      | nil => cases h
      | cons name below =>
          rw [find?_cons, get?] at h
          by_cases hn : n = name
          · rw [if_pos hn, Option.bind_some] at h
            cases below with
            | nil => simp [fileSpots, hn]
            | cons next below => cases h
          · rw [if_neg hn, ← find?_cons] at h
            exact List.mem_cons_of_mem _ (ih h)
  | folder n inner rest ihInner ih =>
      cases spot with
      | nil => cases h
      | cons name below =>
          rw [find?_cons, get?] at h
          rw [fileSpots, List.mem_append]
          by_cases hn : n = name
          · rw [if_pos hn, Option.bind_some, Entry.find?] at h
            exact Or.inl (List.mem_map.mpr ⟨below, ihInner h, by rw [hn]⟩)
          · rw [if_neg hn, ← find?_cons] at h
            exact Or.inr (ih h)

theorem length_le_fileCount {f : Folder} {spots : List Location} (hnodup : spots.Nodup)
    (hfiles : ∀ spot ∈ spots, ∃ content, f.find? spot = some (.file content)) :
    spots.length ≤ f.fileCount := by
  have hsubset : spots ⊆ f.fileSpots := by
    intro spot hspot
    obtain ⟨content, hcontent⟩ := hfiles spot hspot
    exact mem_fileSpots hcontent
  rw [← length_fileSpots]
  exact (hnodup.subperm hsubset).length_le

-- How many directories stand one in the other.
def height : Folder → Nat
  | empty => 0
  | file _ _ rest => rest.height
  | folder _ inner rest => max (inner.height + 1) rest.height

-- A directory is cleared exactly if nothing in it is nested too deep.
theorem uncleared_eq_empty_iff (f : Folder) (limit : Nat) : f.uncleared limit = empty ↔ f.height ≤ limit := by
  induction f generalizing limit with
  | empty => simp [uncleared, height]
  | file _ _ rest ih => rw [uncleared, height, ih]
  | folder name inner rest ihInner ihRest =>
      cases limit with
      | zero => simp [uncleared, height]
      | succ limit =>
          rw [uncleared, height, Nat.max_le, Nat.add_le_add_iff_right, ← ihInner, ← ihRest]
          split
          · rename_i hinner
            simp [hinner]
          · rename_i hinner
            exact ⟨nofun, fun h => absurd h.1 hinner⟩

end Folder

end CrateDocs
