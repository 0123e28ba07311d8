import CrateDocs.Generate.Discover
import CrateDocs.Proofs.Disk.Marks
import CrateDocs.Proofs.Query.Outcomes
import CrateDocs.Proofs.Work.Gives

namespace CrateDocs

namespace Disk

-- Names that fit are never too long, wherever they lead.
theorem walk_ne_nameTooLong {root : Folder} {spot : Location} {parts : List String}
    (h : ∀ part ∈ parts, Utf8.size part ≤ nameLimit) : walk root spot parts ≠ .error .nameTooLong := by
  induction parts generalizing spot with
  | nil => simp [walk]
  | cons part rest ih =>
      rw [List.forall_mem_cons] at h
      rw [walk, if_neg (Nat.not_lt.mpr h.1)]
      split
      · simp
      · simp
      · split <;> exact ih h.2

theorem entry_ne_nameTooLong {d : Disk} {p : Path} (hfits : p.Fitting)
    (hwalk : walk d.root (d.start p) p.parts ≠ .error .nameTooLong) : d.entry p ≠ .error .nameTooLong := by
  intro hentry
  rw [entry_eq, locate_eq, (textRefusal?_eq_none_iff p).mpr hfits] at hentry
  dsimp only at hentry
  split at hentry
  · rename_i refusal hrefusal
    obtain rfl := Except.error.inj hentry
    exact hwalk hrefusal
  · split at hentry <;> cases hentry

theorem entry_of_tooLong {p : Path} (hzero : '\x00' ∉ p.text.toList) (hlong : p.TooLong) (d : Disk) :
    d.entry p = .error .nameTooLong := by
  rw [Path.TooLong] at hlong
  have hrefused : textRefusal? p = some .nameTooLong := by
    rw [textRefusal?, if_neg fun hmem => hzero (List.contains_iff_mem.mp hmem), if_pos hlong]
  rw [entry_eq, locate_eq, hrefused]

-- A path of proper names below one that leads somewhere is too long to be asked about only by its text.
theorem entry_below_below_tooLong_iff {d : Disk} {p : Path} {e : Entry} (h : d.entry p = .ok e) {name last : String}
    (hname : isFileName name = true ∧ Utf8.size name ≤ nameLimit)
    (hlast : isFileName last = true ∧ Utf8.size last ≤ nameLimit) :
    d.entry ((p.below name).below last) = .error .nameTooLong ↔ ((p.below name).below last).TooLong := by
  obtain ⟨spot, hlocate, _⟩ := (entry_eq_ok_iff d p e).mp h
  obtain ⟨hfitting, hwalk⟩ := (locate_eq_ok_iff d p spot).mp hlocate
  have hzero : '\x00' ∉ ((p.below name).below last).text.toList := by
    rw [Path.zero_mem_text_below, Path.zero_mem_text_below, not_or, not_or]
    exact ⟨⟨hfitting.1, zero_notMem_of_isFileName hname.1⟩, zero_notMem_of_isFileName hlast.1⟩
  refine ⟨fun hentry => ?_, fun hlong => entry_of_tooLong hzero hlong d⟩
  by_contra hshort
  refine entry_ne_nameTooLong ⟨hzero, Nat.not_le.mp hshort⟩ ?_ hentry
  have hparts : ((p.below name).below last).parts = p.parts ++ [name, last] := by simp [Path.below]
  have hstart : d.start ((p.below name).below last) = d.start p := rfl
  rw [hparts, hstart, walk_append, hwalk]
  exact walk_ne_nameTooLong (by simp [hname.2, hlast.2])

variable {d : Disk} {p entry : Path} {entries : List Path}

theorem exists_folder_of_list (h : d.list p = .ok entries) : ∃ inner, d.entry p = .ok (.folder inner) := by
  obtain ⟨_, inner, hinner, _⟩ := (list_eq_ok_iff d p entries).mp h
  exact ⟨inner, hinner⟩

-- What is listed is below the directory under a name that the file system takes.
theorem exists_name_of_listed (hnames : d.root.namesFit = true) (h : d.list p = .ok entries)
    (hentry : entry ∈ entries) :
    ∃ name, (isFileName name = true ∧ Utf8.size name ≤ nameLimit) ∧ entry = p.below name := by
  obtain ⟨_, inner, hinner, rfl⟩ := (list_eq_ok_iff d p entries).mp h
  obtain ⟨name, hname, rfl⟩ := List.mem_map.mp hentry
  exact ⟨name, fits_of_entry hnames hinner hname, rfl⟩

-- What can be found below a directory is listed.
theorem mem_list_of_entry (h : d.list p = .ok entries) {name : String} (hname : isFileName name = true) {e : Entry}
    (he : d.entry (p.below name) = .ok e) : p.below name ∈ entries := by
  obtain ⟨_, inner, hinner, rfl⟩ := (list_eq_ok_iff d p entries).mp h
  obtain ⟨_, _, other, hother, hget⟩ := (entry_below_eq_ok_iff d p (ne_up_of_isFileName hname) e).mp he
  obtain rfl := Entry.folder.inj (Except.ok.inj (hinner.symm.trans hother))
  exact List.mem_map_of_mem ((Folder.mem_names_iff inner name).mpr (by simp [hget]))

theorem pairwise_name_ne_of_list (h : d.list p = .ok entries) : entries.Pairwise fun a b => a.name ≠ b.name := by
  obtain ⟨_, inner, _, rfl⟩ := (list_eq_ok_iff d p entries).mp h
  exact Cache.pairwise_name_ne p inner

end Disk

-- What is listed in two orders is put in one.
theorem Cache.sortByName_of_perm {paths paths' : List Path} (hne : paths.Pairwise fun a b => a.name ≠ b.name)
    (hperm : paths'.Perm paths) : sortByName paths' = sortByName paths := by
  have hne' : paths'.Pairwise fun a b => a.name ≠ b.name := (hperm.pairwise_iff fun h => Ne.symm h).mpr hne
  refine eq_of_pairwise_lt Path.name (pairwise_lt_sortByName hne') (pairwise_lt_sortByName hne) fun path => ?_
  rw [sortByName, sortByName, List.mem_mergeSort, List.mem_mergeSort, hperm.mem_iff]

theorem Disk.Rearranged.sortByName_list {d e : Disk} (h : Rearranged d e) (p : Path) :
    (e.list p).map Cache.sortByName = (d.list p).map Cache.sortByName := by
  rcases h.list p with ⟨refused, hd, he⟩ | ⟨entries, entries', hd, he, hperm⟩
  · rw [hd, he]
  · rw [hd, he, Except.map, Except.map, Cache.sortByName_of_perm (pairwise_name_ne_of_list hd) hperm]

namespace Generate

variable {d : Disk} {home index package : Path} {question : Disk → Path → Except DiskError Bool}

-- Whether the answer to a question is a yes; a failure is none.
def affirms (question : Disk → Path → Except DiskError Bool) (d : Disk) (path : Path) : Bool :=
  (question d path).toOption.getD false

theorem affirms_iff {path : Path} : affirms question d path = true ↔ question d path = .ok true := by
  rw [affirms]
  rcases question d path with e | (_ | _) <;> simp [Except.toOption]

-- Every path is asked about, and the first failure ends it.
theorem keep_eq (question : Disk → Path → Except DiskError Bool) (d : Disk) (paths : List Path) :
    keep question d paths = (paths.mapM (question d)).map fun _ => paths.filter (affirms question d) := by
  induction paths with
  | nil => rfl
  | cons path rest ih =>
      rw [keep, ih, List.mapM_cons, List.filter_cons, affirms]
      rcases question d path with e | (_ | _)
      · rfl
      · cases rest.mapM (question d) <;> rfl
      · cases rest.mapM (question d) <;> rfl

theorem keep_eq_ok_iff {paths kept : List Path} :
    keep question d paths = .ok kept ↔
      (∀ path ∈ paths, ∃ answer, question d path = .ok answer) ∧ kept = paths.filter (affirms question d) := by
  rw [keep_eq, Result.map_eq_ok_iff, ← Result.mapM_isOk_iff, exists_and_right, eq_comm]

theorem keep_eq_error_iff {paths : List Path} {e : DiskError} :
    keep question d paths = .error e ↔
      ∃ path, Result.First (fun path => ∃ e, question d path = .error e) paths path ∧ question d path = .error e := by
  rw [keep_eq, Result.map_eq_error_iff, Result.mapM_eq_error_iff]

theorem keep_congr {d' : Disk} (h : question d' = question d) (paths : List Path) :
    keep question d' paths = keep question d paths := by
  have haffirms : affirms question d' = affirms question d := by
    funext path
    rw [affirms, affirms, h]
  rw [keep_eq, keep_eq, h, haffirms]

-- Where the packages of a registry are unpacked, and the manifest of one.

def sources (home : Path) : Path :=
  (home.below "registry").below "src"

def manifest (package : Path) : Path :=
  package.below Manifest.fileName

def hasManifest (d : Disk) (package : Path) : Except DiskError Bool :=
  d.isFile (manifest package)

theorem isFileName_fileName : isFileName Manifest.fileName = true ∧ Utf8.size Manifest.fileName ≤ Disk.nameLimit := by
  decide

theorem packagesIn_eq (d : Disk) (index : Path) :
    packagesIn d index = ((d.list index).map Cache.sortByName).bind (keep hasManifest d) := by
  have hchild : (fun (d : Disk) (path : Path) => d.isFile (path.child Manifest.fileName)) = hasManifest := by
    funext d path
    rw [Path.child_of_isFileName path isFileName_fileName.1, hasManifest, manifest]
  rw [packagesIn, hchild]
  cases d.list index <;> rfl

-- Why an index is passed over: it cannot be listed, or the path of a manifest in it is too long to be asked about.
inductive Refused (d : Disk) (index : Path) : DiskError → Prop
  | unlisted {e : DiskError} (h : d.list index = .error e) : Refused d index e
  | manifest {packages : List Path} {package : Path} (hpackages : d.list index = .ok packages)
      (hfirst : Result.First (fun path => (manifest path).TooLong) (Cache.sortByName packages) package) :
      Refused d index ⟨.nameTooLong, some (manifest package).text⟩

-- A directory of the sources.
def Index (d : Disk) (home index : Path) : Prop :=
  ∃ name, isFileName name = true ∧ index = (sources home).below name ∧ d.isFolder index = .ok true

-- Something in an index that has a manifest.
def Unpacked (d : Disk) (index package : Path) : Prop :=
  ∃ name, isFileName name = true ∧ package = index.below name ∧ d.isFile (manifest package) = .ok true

theorem hasManifest_eq_error_iff {e : DiskError} :
    hasManifest d package = .error e ↔
      d.entry (manifest package) = .error .nameTooLong ∧ e = ⟨.nameTooLong, some (manifest package).text⟩ :=
  Disk.test_eq_error_iff d _ _ e

theorem hasManifest_fails_iff (hnames : d.root.namesFit = true) {packages : List Path}
    (hpackages : d.list index = .ok packages) (hpackage : package ∈ packages) :
    (∃ e, hasManifest d package = .error e) ↔ (manifest package).TooLong := by
  obtain ⟨name, hname, rfl⟩ := Disk.exists_name_of_listed hnames hpackages hpackage
  obtain ⟨inner, hinner⟩ := Disk.exists_folder_of_list hpackages
  simp only [hasManifest_eq_error_iff, exists_and_left, exists_eq, and_true]
  exact Disk.entry_below_below_tooLong_iff hinner hname isFileName_fileName

theorem packagesIn_of_error {e : DiskError} (h : d.list index = .error e) : packagesIn d index = .error e := by
  rw [packagesIn_eq, h]
  rfl

theorem packagesIn_of_list {packages : List Path} (h : d.list index = .ok packages) :
    packagesIn d index = keep hasManifest d (Cache.sortByName packages) := by
  rw [packagesIn_eq, h]
  rfl

theorem packagesIn_eq_error_iff (hnames : d.root.namesFit = true) {e : DiskError} :
    packagesIn d index = .error e ↔ Refused d index e := by
  have hlong : ∀ {packages}, d.list index = .ok packages → ∀ path ∈ Cache.sortByName packages,
      ((∃ e, hasManifest d path = .error e) ↔ (manifest path).TooLong) :=
    fun hpackages path hpath => hasManifest_fails_iff hnames hpackages (List.mem_mergeSort.mp hpath)
  constructor
  · intro h
    cases hlist : d.list index with
    | error other =>
        rw [packagesIn_of_error hlist] at h
        obtain rfl := Except.error.inj h
        exact .unlisted hlist
    | ok packages =>
        rw [packagesIn_of_list hlist, keep_eq_error_iff] at h
        obtain ⟨path, hfirst, herror⟩ := h
        obtain ⟨_, rfl⟩ := hasManifest_eq_error_iff.mp herror
        exact .manifest hlist ((Result.first_congr (hlong hlist)).mp hfirst)
  · intro h
    cases h with
    | unlisted hlist => exact packagesIn_of_error hlist
    | manifest hlist hfirst =>
        have hfails := (Result.first_congr (hlong hlist)).mpr hfirst
        obtain ⟨e, he⟩ := hfails.holds
        obtain ⟨_, rfl⟩ := hasManifest_eq_error_iff.mp he
        rw [packagesIn_of_list hlist, keep_eq_error_iff]
        exact ⟨_, hfails, he⟩

theorem packagesIn_eq_ok {found : List Path} (h : packagesIn d index = .ok found) :
    ∃ packages, d.list index = .ok packages ∧ found = (Cache.sortByName packages).filter (affirms hasManifest d) := by
  cases hlist : d.list index with
  | error e =>
      rw [packagesIn_of_error hlist] at h
      cases h
  | ok packages =>
      rw [packagesIn_of_list hlist] at h
      exact ⟨packages, rfl, (keep_eq_ok_iff.mp h).2⟩

theorem mem_packagesIn_iff (hnames : d.root.namesFit = true) {found : List Path} (h : packagesIn d index = .ok found) :
    package ∈ found ↔ Unpacked d index package := by
  obtain ⟨packages, hpackages, rfl⟩ := packagesIn_eq_ok h
  rw [List.mem_filter, Cache.sortByName, List.mem_mergeSort, affirms_iff, hasManifest]
  constructor
  · rintro ⟨hpackage, hfile⟩
    obtain ⟨name, hname, rfl⟩ := Disk.exists_name_of_listed hnames hpackages hpackage
    exact ⟨name, hname.1, rfl, hfile⟩
  · rintro ⟨name, hname, rfl, hfile⟩
    refine ⟨?_, hfile⟩
    obtain ⟨e, hentry, _⟩ := (Disk.test_eq_true_iff d _ _).mp hfile
    rw [manifest, Disk.entry_below_eq_ok_iff d _ (ne_up_of_isFileName isFileName_fileName.1)] at hentry
    obtain ⟨_, _, inner, hinner, _⟩ := hentry
    exact Disk.mem_list_of_entry hpackages hname hinner

theorem pairwise_packagesIn {found : List Path} (h : packagesIn d index = .ok found) :
    found.Pairwise fun a b => a.name < b.name := by
  obtain ⟨packages, hpackages, rfl⟩ := packagesIn_eq_ok h
  exact (Cache.pairwise_lt_sortByName (Disk.pairwise_name_ne_of_list hpackages)).filter _

-- What an index contributes: its packages, or the error that it is passed over for.

def found (d : Disk) (index : Path) : List Path :=
  (packagesIn d index).toOption.getD []

def skipped? (d : Disk) (index : Path) : Option (Path × DiskError) :=
  match packagesIn d index with
  | .error e => some (index, e)
  | .ok _ => none

def warningOf (skipped : Path × DiskError) : Event :=
  .indexSkipped skipped.1 (.disk skipped.2)

theorem gives_packagesInAll (d : Disk) (indexes : List Path) :
    Work.Gives d (packagesInAll indexes) (indexes.flatMap (found d))
      ((indexes.filterMap (skipped? d)).map warningOf) := by
  induction indexes with
  | nil => exact Work.Gives.pure d []
  | cons index rest ih =>
      refine Work.Gives.disk fun w hw => ?_
      rw [hw, List.flatMap_cons, List.filterMap_cons, found, skipped?]
      cases packagesIn d index with
      | error e => exact (Work.Gives.note d _).bind ih
      | ok packages => exact ih.map (packages ++ ·)

theorem mem_found_iff (hnames : d.root.namesFit = true) :
    package ∈ found d index ↔ (∀ e, ¬Refused d index e) ∧ Unpacked d index package := by
  simp only [← packagesIn_eq_error_iff hnames, found]
  cases h : packagesIn d index with
  | error e => simp [Except.toOption]
  | ok packages => simp [Except.toOption, mem_packagesIn_iff hnames h]

theorem pairwise_found (d : Disk) (index : Path) : (found d index).Pairwise fun a b => a.name < b.name := by
  rw [found]
  cases h : packagesIn d index with
  | error e => exact List.Pairwise.nil
  | ok packages => exact pairwise_packagesIn h

theorem skipped?_eq_some_iff (hnames : d.root.namesFit = true) {skipped : Path × DiskError} :
    skipped? d index = some skipped ↔ index = skipped.1 ∧ Refused d index skipped.2 := by
  rw [← packagesIn_eq_error_iff hnames, skipped?]
  cases packagesIn d index with
  | error e => simp [Prod.ext_iff]
  | ok packages => simp

-- The order of packages: by their index, and in an index by their own name.
def Before (a b : Path) : Prop :=
  a.parent.name < b.parent.name ∨ a.parent = b.parent ∧ a.name < b.name

-- What is found below a home and what is passed over. The packages are those of every index that is not refused, each
-- once and in order, and each index that is refused is passed over once.
structure Discovery (d : Disk) (home : Path) (refused : Path → DiskError → Prop) (roots : List Path)
    (skipped : List (Path × DiskError)) : Prop where
  mem_roots_iff : ∀ path, path ∈ roots ↔
    ∃ index, Index d home index ∧ (∀ e, ¬refused index e) ∧ Unpacked d index path
  ordered : roots.Pairwise Before
  mem_skipped_iff : ∀ index e, (index, e) ∈ skipped ↔ Index d home index ∧ refused index e
  once : skipped.Pairwise fun a b => a.1.name < b.1.name

variable {entries roots : List Path} {skipped : List (Path × DiskError)}

theorem Before.ne {a b : Path} (h : Before a b) : a ≠ b := by
  rintro rfl
  rcases h with hlt | ⟨_, hlt⟩
  · exact String.lt_irrefl _ hlt
  · exact String.lt_irrefl _ hlt

theorem Discovery.nodup {refused : Path → DiskError → Prop} (h : Discovery d home refused roots skipped) :
    roots.Nodup :=
  h.ordered.imp Before.ne

theorem Discovery.congr {refused refused' : Path → DiskError → Prop} (h : Discovery d home refused roots skipped)
    (hsame : ∀ index e, Index d home index → (refused index e ↔ refused' index e)) :
    Discovery d home refused' roots skipped := by
  refine ⟨fun path => ?_, h.ordered, fun index e => ?_, h.once⟩
  · rw [h.mem_roots_iff]
    refine exists_congr fun index => and_congr_right fun hindex => and_congr_left fun _ => ?_
    exact forall_congr' fun e => not_congr (hsame index e hindex)
  · rw [h.mem_skipped_iff]
    exact and_congr_right fun hindex => hsame index e hindex

theorem refused_iff_of_fit (hfit : ∀ packages, d.list index = .ok packages →
    ∀ package ∈ packages, ¬(manifest package).TooLong) (e : DiskError) :
    Refused d index e ↔ d.list index = .error e := by
  constructor
  · intro h
    cases h with
    | unlisted h => exact h
    | manifest hpackages hfirst =>
        exact absurd hfirst.holds (hfit _ hpackages _ (List.mem_mergeSort.mp hfirst.mem))
  · exact .unlisted

theorem not_refused_of_list {packages : List Path} (h : d.list index = .ok packages)
    (hfit : ∀ package ∈ packages, ¬(manifest package).TooLong) (e : DiskError) : ¬Refused d index e := by
  rw [refused_iff_of_fit fun other hother => Except.ok.inj (h.symm.trans hother) ▸ hfit, h]
  nofun

-- The indexes among all that is in the sources, in order.
def indexes (d : Disk) (entries : List Path) : List Path :=
  Cache.sortByName (entries.filter (affirms Disk.isFolder d))

theorem mem_indexes_iff (hnames : d.root.namesFit = true) (hentries : d.list (sources home) = .ok entries) :
    index ∈ indexes d entries ↔ Index d home index := by
  rw [indexes, Cache.sortByName, List.mem_mergeSort, List.mem_filter, affirms_iff]
  constructor
  · rintro ⟨hindex, hfolder⟩
    obtain ⟨name, hname, rfl⟩ := Disk.exists_name_of_listed hnames hentries hindex
    exact ⟨name, hname.1, rfl, hfolder⟩
  · rintro ⟨name, hname, rfl, hfolder⟩
    obtain ⟨inner, hinner⟩ := (Disk.isFolder_eq_true_iff d _).mp hfolder
    exact ⟨Disk.mem_list_of_entry hentries hname hinner, hfolder⟩

theorem pairwise_indexes (hentries : d.list (sources home) = .ok entries) :
    (indexes d entries).Pairwise fun a b => a.name < b.name :=
  Cache.pairwise_lt_sortByName ((Disk.pairwise_name_ne_of_list hentries).filter _)

theorem parent_of_mem_found (hnames : d.root.namesFit = true) (h : package ∈ found d index) :
    package.parent = index := by
  obtain ⟨_, name, _, rfl, _⟩ := (mem_found_iff hnames).mp h
  exact Path.parent_below index name

theorem discovery_indexes (hnames : d.root.namesFit = true) (hentries : d.list (sources home) = .ok entries) :
    Discovery d home (Refused d) ((indexes d entries).flatMap (found d))
      ((indexes d entries).filterMap (skipped? d)) := by
  refine ⟨fun path => ?_, ?_, fun index e => ?_, ?_⟩
  · simp only [List.mem_flatMap, mem_indexes_iff hnames hentries, mem_found_iff hnames]
  · refine List.pairwise_flatMap.mpr ⟨fun index _ => ?_, ?_⟩
    · -- All packages of an index have it for a parent.
      refine (pairwise_found d index).imp_of_mem fun ha hb hlt => Or.inr ⟨?_, hlt⟩
      rw [parent_of_mem_found hnames ha, parent_of_mem_found hnames hb]
    · refine (pairwise_indexes hentries).imp fun {index later} hlt a ha b hb => Or.inl ?_
      rwa [parent_of_mem_found hnames ha, parent_of_mem_found hnames hb]
  · simp only [List.mem_filterMap, mem_indexes_iff hnames hentries, skipped?_eq_some_iff hnames]
    constructor
    · rintro ⟨_, hindex, rfl, hrefused⟩
      exact ⟨hindex, hrefused⟩
    · rintro ⟨hindex, hrefused⟩
      exact ⟨index, hindex, rfl, hrefused⟩
  · rw [List.pairwise_filterMap]
    refine (pairwise_indexes hentries).imp fun {index later} hlt a ha b hb => ?_
    rwa [← ((skipped?_eq_some_iff hnames).mp ha).1, ← ((skipped?_eq_some_iff hnames).mp hb).1]

-- Disks that hold the same have the same indexes with the same packages.

theorem indexes_rearranged {d' : Disk} {entries' : List Path} (h : Disk.Rearranged d d')
    (hne : entries.Pairwise fun a b => a.name ≠ b.name) (hperm : entries'.Perm entries) :
    indexes d' entries' = indexes d entries := by
  have haffirms : affirms Disk.isFolder d' = affirms Disk.isFolder d := by
    funext path
    rw [affirms, affirms, h.isFolder]
  rw [indexes, indexes, haffirms]
  exact Cache.sortByName_of_perm (hne.filter _) (hperm.filter _)

theorem packagesIn_rearranged {d' : Disk} (h : Disk.Rearranged d d') : packagesIn d' = packagesIn d := by
  have hquestion : hasManifest d' = hasManifest d := by
    funext package
    rw [hasManifest, hasManifest, h.isFile]
  funext index
  rw [packagesIn_eq, packagesIn_eq, h.sortByName_list, funext (keep_congr hquestion)]

theorem found_rearranged {d' : Disk} (h : Disk.Rearranged d d') : found d' = found d := by
  funext index
  rw [found, found, packagesIn_rearranged h]

theorem skipped?_rearranged {d' : Disk} (h : Disk.Rearranged d d') : skipped? d' = skipped? d := by
  funext index
  rw [skipped?, skipped?, packagesIn_rearranged h]

-- The work itself.

-- What the log is told when the packages of a home have been found.
def told (home : Path) (roots : List Path) (skipped : List (Path × DiskError)) : List Event :=
  skipped.map warningOf ++ [.discovered roots.length (sources home)]

theorem child_sources (home : Path) : (home.child "registry").child "src" = sources home := by
  rw [Path.child_of_isFileName _ (by decide), Path.child_of_isFileName _ (by decide), sources]

theorem isFolder_sources (hentries : d.list (sources home) = .ok entries) : d.isFolder (sources home) = .ok true :=
  (Disk.isFolder_eq_true_iff d _).mpr (Disk.exists_folder_of_list hentries)

theorem gives_discover (hentries : d.list (sources home) = .ok entries)
    (hasked : ∀ entry ∈ entries, ∃ answer, d.isFolder entry = .ok answer) :
    Work.Gives d (discover home) ((indexes d entries).flatMap (found d))
      (told home ((indexes d entries).flatMap (found d)) ((indexes d entries).filterMap (skipped? d))) := by
  have hkeep := keep_eq_ok_iff.mpr ⟨hasked, rfl⟩
  rw [discover, child_sources]
  refine (Work.Gives.ask (isFolder_sources hentries)).bind ?_
  rw [if_neg (by decide)]
  refine Work.Gives.disk fun w hw => ?_
  dsimp only
  rw [hw, hentries, Except.bind, hkeep]
  exact (gives_packagesInAll d _).bind ((Work.Gives.note d _).bind (Work.Gives.pure d _))

theorem runIn_discover_error {w : World} {e : DiskError} (hentries : w.disk.list (sources home) = .ok entries)
    (hkeep : keep Disk.isFolder w.disk entries = .error e) :
    (discover home).runIn w = (.error (.fault (.registryNotListed (sources home) e)), w) := by
  rw [discover, child_sources, Work.runIn_ask_bind, isFolder_sources hentries]
  dsimp only
  rw [if_neg (by decide), Work.runIn_get_bind, hentries, Except.bind, hkeep]
  rfl

theorem isFolder_fails_iff (hnames : d.root.namesFit = true) {p entry : Path} (hentries : d.list p = .ok entries)
    (hentry : entry ∈ entries) : (∃ e, d.isFolder entry = .error e) ↔ entry.TooLong := by
  simp only [Disk.isFolder_eq_error_iff, exists_and_left, exists_eq, and_true]
  exact Disk.entry_listed_tooLong_iff hnames hentries hentry

theorem exists_isFolder_of_fit (hnames : d.root.namesFit = true) {p : Path} (hentries : d.list p = .ok entries)
    (hfit : ∀ entry ∈ entries, ¬entry.TooLong) : ∀ entry ∈ entries, ∃ answer, d.isFolder entry = .ok answer := by
  intro entry hentry
  cases hfolder : d.isFolder entry with
  | error e => exact absurd ((isFolder_fails_iff hnames hentries hentry).mp ⟨e, hfolder⟩) (hfit entry hentry)
  | ok answer => exact ⟨answer, rfl⟩

theorem runIn_discover_tooLong {w : World} {entry : Path} (hnames : w.disk.root.namesFit = true)
    (hentries : w.disk.list (sources home) = .ok entries) (hfirst : Result.First Path.TooLong entries entry) :
    (discover home).runIn w =
      (.error (.fault (.registryNotListed (sources home) ⟨.nameTooLong, some entry.text⟩)), w) := by
  have hfails := (Result.first_congr fun _ => isFolder_fails_iff hnames hentries).mpr hfirst
  obtain ⟨e, he⟩ := hfails.holds
  obtain ⟨_, rfl⟩ := (Disk.isFolder_eq_error_iff _ _ e).mp he
  exact runIn_discover_error hentries (keep_eq_error_iff.mpr ⟨entry, hfails, he⟩)

theorem gives_discover_rearranged {d' : Disk} (h : Disk.Rearranged d d')
    (hentries : d.list (sources home) = .ok entries)
    (hasked : ∀ entry ∈ entries, ∃ answer, d.isFolder entry = .ok answer) :
    Work.Gives d' (discover home) ((indexes d entries).flatMap (found d))
      (told home ((indexes d entries).flatMap (found d)) ((indexes d entries).filterMap (skipped? d))) := by
  rcases h.list (sources home) with ⟨_, herror, _⟩ | ⟨_, entries', hsame, hentries', hperm⟩
  · rw [hentries] at herror
    cases herror
  · obtain rfl := Except.ok.inj (hentries.symm.trans hsame)
    have hasked' : ∀ entry ∈ entries', ∃ answer, d'.isFolder entry = .ok answer := by
      intro entry hentry
      rw [h.isFolder]
      exact hasked entry (hperm.mem_iff.mp hentry)
    have hgives := gives_discover hentries' hasked'
    rwa [indexes_rearranged h (Disk.pairwise_name_ne_of_list hentries) hperm, found_rearranged h,
      skipped?_rearranged h] at hgives

-- Whether the sources can be searched depends on the paths of what is in them: the first, as they are listed, that is
-- too long ends it. Otherwise what is found is just what there is to find, in order, and the order of the listings
-- makes no difference to it or to what is told. An index is passed over, with all its packages, if it cannot be listed
-- or the path of any manifest in it is too long. Where no such path is too long, the first is the only reason.
theorem discover_outcomes {w : World} (hnames : w.disk.root.namesFit = true)
    (hentries : w.disk.list (sources home) = .ok entries) :
    (∀ entry, Result.First Path.TooLong entries entry →
      (discover home).runIn w =
        (.error (.fault (.registryNotListed (sources home) ⟨.nameTooLong, some entry.text⟩)), w)) ∧
    ((∀ entry ∈ entries, ¬entry.TooLong) → ∃ roots skipped,
      (discover home).runIn w = (.ok roots, w.tell (told home roots skipped)) ∧
      (∀ other : World, Disk.Rearranged w.disk other.disk →
        (discover home).runIn other = (.ok roots, other.tell (told home roots skipped))) ∧
      Discovery w.disk home (Refused w.disk) roots skipped ∧ roots.Nodup ∧
      ((∀ index packages, Index w.disk home index → w.disk.list index = .ok packages →
          ∀ package ∈ packages, ¬(manifest package).TooLong) →
        Discovery w.disk home (fun index e => w.disk.list index = .error e) roots skipped)) := by
  refine ⟨fun entry hfirst => runIn_discover_tooLong hnames hentries hfirst, fun hfit => ?_⟩
  have hasked := exists_isFolder_of_fit hnames hentries hfit
  have hdiscovery := discovery_indexes hnames hentries
  refine ⟨_, _, gives_discover hentries hasked w rfl, fun other hother => ?_, hdiscovery, hdiscovery.nodup,
    fun hmanifests => ?_⟩
  · exact gives_discover_rearranged hother hentries hasked other rfl
  · refine hdiscovery.congr fun index e hindex => refused_iff_of_fit (fun packages => ?_) e
    exact hmanifests index packages hindex

-- A registry with two indexes, a file beside them and an index that refuses to be listed. One index holds a package, a
-- file and a directory whose manifest is a directory too. It is listed in this order, or the other way round.

def registryDisk (content : Folder) : Disk :=
  { Disk.ofFolder (.folder "cargo" (.folder "registry" (.folder "src" content .empty) .empty) .empty) with
    limits := { Limits.usual with unlistable := ["cargo/registry/src/locked"] } }

def registryWorld (content : Folder) : World := .ofDisk (registryDisk content)

def cargoHome : Path := ⟨.here, ["cargo"]⟩

def oneIndex : Folder :=
  .folder "log-0.4" (.file "Cargo.toml" [] .empty) .empty

def otherIndex : Folder :=
  .folder "odd-1.0" (.folder "Cargo.toml" .empty .empty) (.file "notes" [0xFF]
    (.folder "serde-1.0" (.file "Cargo.toml" [] .empty) .empty))

def litteredSources : Folder :=
  .folder "other" otherIndex (.file "notes" [] (.folder "one" oneIndex (.folder "locked" oneIndex .empty)))

def mirroredSources : Folder :=
  .folder "locked" oneIndex (.folder "one" oneIndex (.file "notes" [] (.folder "other" otherIndex .empty)))

theorem mark_find?_of_get? {f g : Folder} (h : ∀ name, f.get? name = g.get? name) (location : Location) :
    (f.find? location).map Entry.mark = (g.find? location).map Entry.mark := by
  cases location with
  | nil => rfl
  | cons name rest => rw [Folder.find?_cons, Folder.find?_cons, h]

theorem mark_find?_folder {f g : Folder}
    (h : ∀ location, (f.find? location).map Entry.mark = (g.find? location).map Entry.mark) (name : String)
    (rest : Folder) (location : Location) :
    ((Folder.folder name f rest).find? location).map Entry.mark =
      ((Folder.folder name g rest).find? location).map Entry.mark := by
  cases location with
  | nil => rfl
  | cons next location =>
      rw [Folder.find?_cons, Folder.find?_cons, Folder.get?, Folder.get?]
      split
      · exact h location
      · rfl

theorem rearranged_registryDisk {content content' : Folder} (h : ∀ name, content'.get? name = content.get? name) :
    Disk.Rearranged (registryDisk content) (registryDisk content') := by
  refine ⟨rfl, rfl, funext fun location => ?_⟩
  exact mark_find?_folder (mark_find?_folder (mark_find?_folder (mark_find?_of_get? h) _ _) _ _) _ _ location

theorem get?_mirroredSources (name : String) : mirroredSources.get? name = litteredSources.get? name := by
  by_cases hother : "other" = name
  · subst hother
    rfl
  · simp only [mirroredSources, litteredSources, Folder.get?, hother, if_false]
    grind

-- A registry below a path that goes out of its directory and back in again, with one file in its sources.

def windingRegistry : World :=
  .ofDisk (.ofFolder
    (.folder "cache" (.folder "registry" (.folder "src" (.file "x" [] .empty) .empty) .empty) .empty))

theorem size_text_sources_winding (n : Nat) : Utf8.size (sources (Query.windingRoot n)).text = 18 + 9 * n := by
  have hsizes : Utf8.size "registry" = 8 ∧ Utf8.size "src" = 3 := by decide
  rw [sources, Path.size_text_below (by simp [Path.below]), Query.size_text_below_windingRoot, hsizes.1, hsizes.2]
  omega

theorem list_sources_winding {n : Nat} (h : 18 + 9 * n < Disk.pathLimit) :
    windingRegistry.disk.list (sources (Query.windingRoot n)) = .ok [(sources (Query.windingRoot n)).below "x"] := by
  have hfitting : (sources (Query.windingRoot n)).Fitting := by
    refine ⟨?_, (size_text_sources_winding n).symm ▸ h⟩
    rw [sources, Path.zero_mem_text_below, Path.zero_mem_text_below, not_or, not_or]
    exact ⟨⟨(Query.fitting_windingRoot (by omega)).1, by decide⟩, by decide⟩
  have hhome : windingRegistry.disk.entry (Query.windingRoot n) = .ok (.folder _) :=
    Query.entry_windingRoot rfl rfl (by omega)
  have hregistry := (Disk.entry_below_eq_ok_iff windingRegistry.disk _ (by decide : "registry" ≠ "..") _).mpr
    ⟨Path.fitting_of_below hfitting, by decide, _, hhome, rfl⟩
  have hsources := (Disk.entry_below_eq_ok_iff windingRegistry.disk _ (by decide : "src" ≠ "..") _).mpr
    ⟨hfitting, by decide, _, hregistry, rfl⟩
  exact (Disk.list_eq_ok_iff _ _ _).mpr ⟨List.not_mem_nil, _, hsources, rfl⟩

theorem first_sources_winding {n : Nat} (h : Disk.pathLimit ≤ 20 + 9 * n) :
    Result.First Path.TooLong [(sources (Query.windingRoot n)).below "x"]
      ((sources (Query.windingRoot n)).below "x") := by
  have hparts : (sources (Query.windingRoot n)).parts ≠ [] := by simp [sources, Path.below]
  have hsize : Utf8.size "x" = 1 := by decide
  refine Result.first_cons.mpr (Or.inl ⟨?_, rfl⟩)
  rw [Path.TooLong, Path.size_text_below hparts, size_text_sources_winding, hsize]
  omega

theorem discover_outcomes_registries :
    ((registryWorld litteredSources).disk.root.namesFit = true ∧ ∃ roots skipped,
      (discover cargoHome).runIn (registryWorld litteredSources) =
        (.ok roots, (registryWorld litteredSources).tell (told cargoHome roots skipped)) ∧
      (discover cargoHome).runIn (registryWorld mirroredSources) =
        (.ok roots, (registryWorld mirroredSources).tell (told cargoHome roots skipped)) ∧
      ((sources cargoHome).below "one").below "log-0.4" ∈ roots ∧
      ((sources cargoHome).below "other").below "serde-1.0" ∈ roots ∧
      ((sources cargoHome).below "other").below "odd-1.0" ∉ roots ∧
      ((sources cargoHome).below "locked", ⟨.denied, some "cargo/registry/src/locked"⟩) ∈ skipped) ∧
    (discover (Query.windingRoot 453)).runIn windingRegistry =
      (.error (.fault (.registryNotListed (sources (Query.windingRoot 453))
        ⟨.nameTooLong, some ((sources (Query.windingRoot 453)).below "x").text⟩)), windingRegistry) := by
  have hnames : (registryWorld litteredSources).disk.root.namesFit = true := by decide +kernel
  have hentries : (registryWorld litteredSources).disk.list (sources cargoHome) =
      .ok (["other", "notes", "one", "locked"].map (sources cargoHome).below) := by decide +kernel
  obtain ⟨roots, skipped, hrun, hother, hdiscovery, _⟩ := (discover_outcomes hnames hentries).2 (by decide +kernel)
  refine ⟨⟨hnames, roots, skipped, hrun, hother _ (rearranged_registryDisk get?_mirroredSources), ?_, ?_, ?_, ?_⟩, ?_⟩
  · have hlist : (registryDisk litteredSources).list ((sources cargoHome).below "one") =
        .ok [((sources cargoHome).below "one").below "log-0.4"] := by decide +kernel
    exact (hdiscovery.mem_roots_iff _).mpr ⟨_, ⟨"one", by decide, rfl, by decide +kernel⟩,
      not_refused_of_list hlist (by decide +kernel), "log-0.4", by decide, rfl, by decide +kernel⟩
  · have hlist : (registryDisk litteredSources).list ((sources cargoHome).below "other") =
        .ok (["odd-1.0", "notes", "serde-1.0"].map ((sources cargoHome).below "other").below) := by decide +kernel
    exact (hdiscovery.mem_roots_iff _).mpr ⟨_, ⟨"other", by decide, rfl, by decide +kernel⟩,
      not_refused_of_list hlist (by decide +kernel), "serde-1.0", by decide, rfl, by decide +kernel⟩
  · intro hodd
    obtain ⟨_, _, _, _, _, _, hfile⟩ := (hdiscovery.mem_roots_iff _).mp hodd
    revert hfile
    decide +kernel
  · exact (hdiscovery.mem_skipped_iff _ _).mpr
      ⟨⟨"locked", by decide, rfl, by decide +kernel⟩, .unlisted (by decide +kernel)⟩
  · exact (discover_outcomes (by decide +kernel) (list_sources_winding (by decide))).1 _
      (first_sources_winding (by decide))

end Generate

end CrateDocs
