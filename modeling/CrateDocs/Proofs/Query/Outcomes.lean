import CrateDocs.Proofs.Cache.Uncaught
import CrateDocs.Proofs.Query.Resolve

namespace CrateDocs

-- A key has at least as many bytes as its version has characters, however the version is written in it.

theorem Percent.encodeDash_ne_nil (b : UInt8) : encodeDash b ≠ [] := by
  by_cases hb : b = 0x2D
  · subst hb
    exact List.cons_ne_nil _ _
  · rw [encodeDash_of_ne hb]
    exact encodeByte_ne_nil b

theorem Package.length_version_le_size_key (p : Package) : p.version.toList.length ≤ Utf8.size p.key := by
  calc p.version.toList.length
      ≤ (Utf8.encode p.version).length := Utf8.length_le_size p.version
    _ ≤ p.versionCode.length := by
      rw [versionCode, Percent.replaceChar_encode, String.toList_ofList]
      exact length_le_flatMap Percent.encodeDash_ne_nil _
    _ ≤ p.key.toList.length := by
      rw [toList_key, List.length_append, List.length_cons]
      omega
    _ ≤ Utf8.size p.key := Utf8.length_le_size p.key

theorem Package.shortRuns_version {p : Package} (h : Utf8.size p.key ≤ Disk.nameLimit) :
    Version.ShortRuns p.version := by
  intro run hrun _
  calc run.length
      ≤ p.version.toList.length := hrun.length_le
    _ ≤ Utf8.size p.key := p.length_version_le_size_key
    _ ≤ Disk.nameLimit := h
    _ ≤ Text.digitLimit := by decide

-- Whether every name in a directory, at any depth, is one that a file system takes.
def Folder.namesFit : Folder → Bool
  | empty => true
  | file name _ rest => isFileName name && decide (Utf8.size name ≤ Disk.nameLimit) && rest.namesFit
  | folder name inner rest =>
    isFileName name && decide (Utf8.size name ≤ Disk.nameLimit) && inner.namesFit && rest.namesFit

namespace Folder

variable {f inner : Folder}

theorem namesFit_of_get? {name : String} (h : f.namesFit = true) (hget : f.get? name = some (.folder inner)) :
    inner.namesFit = true := by
  induction f with
  | empty => cases hget
  | file _ _ rest ih =>
      simp only [namesFit, Bool.and_eq_true] at h
      rw [get?] at hget
      split at hget
      · cases hget
      · exact ih h.2 hget
  | folder _ below rest _ ih =>
      simp only [namesFit, Bool.and_eq_true] at h
      rw [get?] at hget
      split at hget
      · obtain rfl := Entry.folder.inj (Option.some.inj hget)
        exact h.1.2
      · exact ih h.2 hget

theorem namesFit_of_find? {spot : Location} (h : f.namesFit = true) (hfind : f.find? spot = some (.folder inner)) :
    inner.namesFit = true := by
  induction spot generalizing f with
  | nil =>
      rw [find?] at hfind
      exact Entry.folder.inj (Option.some.inj hfind) ▸ h
  | cons name rest ih =>
      obtain ⟨below, hget, hrest⟩ := get?_of_find?_cons hfind
      exact ih (namesFit_of_get? h hget) hrest

theorem fits_of_mem_allNames (h : f.namesFit = true) {name : String} (hname : name ∈ f.allNames) :
    isFileName name = true ∧ Utf8.size name ≤ Disk.nameLimit := by
  induction f with
  | empty => cases hname
  | file _ _ rest ih =>
      simp only [namesFit, Bool.and_eq_true, decide_eq_true_eq] at h
      rcases List.mem_cons.mp hname with rfl | hrest
      · exact h.1
      · exact ih h.2 hrest
  | folder _ _ rest _ ih =>
      simp only [namesFit, Bool.and_eq_true, decide_eq_true_eq] at h
      rcases List.mem_cons.mp hname with rfl | hrest
      · exact h.1.1
      · exact ih h.2 hrest

end Folder

theorem Disk.fits_of_entry {d : Disk} (h : d.root.namesFit = true) {p : Path} {inner : Folder}
    (hentry : d.entry p = .ok (.folder inner)) {name : String} (hname : name ∈ inner.names) :
    isFileName name = true ∧ Utf8.size name ≤ nameLimit := by
  obtain ⟨spot, _, hfind⟩ := (entry_eq_ok_iff d p _).mp hentry
  exact Folder.fits_of_mem_allNames (Folder.namesFit_of_find? h hfind) (List.mem_eraseDups.mp hname)

-- A path whose text has more bytes than the system takes.
def Path.TooLong (p : Path) : Prop :=
  Disk.pathLimit ≤ Utf8.size p.text

instance (p : Path) : Decidable p.TooLong :=
  inferInstanceAs (Decidable (_ ≤ _))

-- Of what is listed, exactly the paths that are too long cannot be asked about.
theorem Disk.entry_listed_tooLong_iff {d : Disk} (h : d.root.namesFit = true) {p entry : Path} {entries : List Path}
    (hentries : d.list p = .ok entries) (hentry : entry ∈ entries) :
    d.entry entry = .error .nameTooLong ↔ entry.TooLong := by
  obtain ⟨_, inner, hinner, rfl⟩ := (list_eq_ok_iff d p entries).mp hentries
  obtain ⟨name, hname, rfl⟩ := List.mem_map.mp hentry
  have hfits := fits_of_entry h hinner hname
  rw [Cache.entry_below_tooLong_iff hinner (zero_notMem_of_isFileName hfits.1)]
  simp only [Nat.not_lt.mpr hfits.2, false_or, Path.TooLong]

theorem Cache.Holds.size_key_le {cache : Cache} {d : Disk} {p : Package} {docs : List FunctionDoc}
    (h : cache.Holds d p docs) : Utf8.size p.key ≤ Disk.nameLimit := by
  obtain ⟨inner, hinner⟩ := h.folder
  rw [folderFor_eq, Disk.entry_below_eq_ok_iff d _ (ne_up_of_isFileName p.isFileName_key)] at hinner
  exact hinner.2.1

namespace Query

variable {cache : Cache} {w : World} {policy : MatchPolicy} {terms : List String} {foreign : List Foreign}

-- Whatever is read from a cache can be put in order, so a query fails only as reading does.
theorem resolve_eq_error_iff {failure : Failure} :
    ((resolve cache policy terms foreign).runIn w).1 = .error failure ↔
      cache.contentsWith foreign w.disk = .error failure := by
  obtain ⟨events, hrun⟩ := reads_resolve_foreign cache policy terms foreign w
  rw [hrun]
  dsimp only
  cases hread : cache.contentsWith foreign w.disk with
  | error other => simp only [Except.bind, Except.error.injEq]
  | ok all =>
      have hall := ((Cache.contentsWith_eq_ok_iff cache foreign w.disk all).mp hread).1
      have hkeys : ∀ entry ∈ all, ∃ k, Version.key entry.1.version = .ok k := by
        intro entry hentry
        have hholds := (Cache.mem_contents_iff hall entry.1 entry.2).mp hentry
        exact Version.exists_key (Package.shortRuns_version hholds.size_key_le)
      obtain ⟨ordered, hordered, _⟩ := exists_inOrder hkeys (Cache.pairwise_contents hall)
      simp only [Except.bind, hordered]
      constructor <;> rintro ⟨⟩

-- The outcomes that a query is meant to have: a list, or the fault that the root cannot be listed.
def Told (cache : Cache) (d : Disk) (outcome : Except Failure (List Match)) : Prop :=
  (∃ found, outcome = .ok found) ∨
    ∃ e, d.list cache.root = .error e ∧ outcome = .error (.fault (.cacheNotListed cache.root e))

-- An entry of a root that a query cannot get past: its path is too long, or it is a directory that looks like a
-- package's though its name is no text.
def Stuck (root : Path) : Cache.Listed → Prop
  | .named path => path.TooLong
  | .foreign f => ¬Cache.Passes root f

-- Names that a file system takes can only make a path too long.
theorem exists_halts_iff (hnames : w.disk.root.namesFit = true) {entries : List Path} {entry : Cache.Listed}
    (hentries : w.disk.list cache.root = .ok entries) (hentry : entry ∈ Cache.inOrder entries foreign) :
    (∃ failure, Cache.Halts cache.root w.disk entry failure) ↔ Stuck cache.root entry := by
  rcases Cache.mem_inOrder_iff.mp hentry with ⟨path, hpath, rfl⟩ | ⟨f, _, rfl⟩
  · rw [Stuck, ← Disk.entry_listed_tooLong_iff hnames hentries hpath]
    constructor
    · rintro ⟨_, ⟨hlong⟩⟩
      exact hlong
    · intro hlong
      exact ⟨_, .named hlong⟩
  · exact Cache.exists_halts_foreign_iff

theorem resolve_stuck (hnames : w.disk.root.namesFit = true) {entries : List Path} {entry : Cache.Listed}
    (hentries : w.disk.list cache.root = .ok entries)
    (hfirst : Result.First (Stuck cache.root) (Cache.inOrder entries foreign) entry) :
    ∃ failure, Cache.Halts cache.root w.disk entry failure ∧
      ((resolve cache policy terms foreign).runIn w).1 = .error failure := by
  have hhalts := (Result.first_congr fun other hother => exists_halts_iff hnames hentries hother).mpr hfirst
  obtain ⟨failure, hfailure⟩ := hhalts.holds
  refine ⟨failure, hfailure, ?_⟩
  rw [resolve_eq_error_iff, Cache.contentsWith_eq_error_iff]
  exact Or.inr (.entry hentries hhalts hfailure)

-- A query on a root that can be asked about has an outcome that it is meant to have, exactly if it is not stuck at
-- anything in the root. Otherwise the first entry that it is stuck at ends it. What the functions of the packages
-- say and how the versions are written never matters: a version that is read off a name can always be compared.
theorem resolve_outcomes (hnames : w.disk.root.namesFit = true)
    (hasked : ∃ answer, w.disk.hasEntry cache.root = .ok answer) (policy : MatchPolicy) (terms : List String)
    (foreign : List Foreign) :
    (Told cache w.disk ((resolve cache policy terms foreign).runIn w).1 ↔
        ∀ entries, w.disk.list cache.root = .ok entries →
          (∀ path ∈ entries, ¬path.TooLong) ∧ ∀ f ∈ foreign, Cache.Passes cache.root f) ∧
      (∀ entries entry, w.disk.list cache.root = .ok entries →
        Result.First (Stuck cache.root) (Cache.inOrder entries foreign) entry →
        ∃ failure, Cache.Halts cache.root w.disk entry failure ∧
          ((resolve cache policy terms foreign).runIn w).1 = .error failure) ∧
      ∀ name package, Utf8.size name ≤ Disk.nameLimit → Package.ofKey? name = some package →
        ∃ key, Version.key package.version = .ok key := by
  have hnone : ∀ entries, ((∀ path ∈ entries, ¬path.TooLong) ∧ ∀ f ∈ foreign, Cache.Passes cache.root f) ↔
      ∀ entry ∈ Cache.inOrder entries foreign, ¬Stuck cache.root entry := by
    intro entries
    simp only [Cache.mem_inOrder_iff]
    constructor
    · rintro ⟨hpaths, hforeign⟩ entry (⟨path, hpath, rfl⟩ | ⟨f, hf, rfl⟩)
      · exact hpaths path hpath
      · exact not_not_intro (hforeign f hf)
    · intro h
      refine ⟨fun path hpath => h _ (Or.inl ⟨path, hpath, rfl⟩), fun f hf => ?_⟩
      exact not_not.mp (h _ (Or.inr ⟨f, hf, rfl⟩))
  simp only [hnone]
  refine ⟨⟨fun htold entries hentries entry hentry hstuck => ?_, fun hfree => ?_⟩,
    fun entries entry hentries => resolve_stuck hnames hentries, fun name package hsize hname => ?_⟩
  · obtain ⟨first, hfirst⟩ := (Result.exists_first_iff (p := Stuck cache.root)).mpr ⟨entry, hentry, hstuck⟩
    have hends : ∃ failure, Cache.Halts cache.root w.disk first failure ∧
        ((resolve cache policy terms foreign).runIn w).1 = .error failure := resolve_stuck hnames hentries hfirst
    obtain ⟨failure, hhalts, hfails⟩ := hends
    rw [hfails] at htold
    rcases htold with ⟨_, hok⟩ | ⟨_, _, herror⟩
    · cases hok
    · cases herror
      cases hhalts
  · cases houtcome : ((resolve cache policy terms foreign).runIn w).1 with
    | ok found => exact Or.inl ⟨found, rfl⟩
    | error failure =>
        rw [resolve_eq_error_iff, Cache.contentsWith_eq_error_iff] at houtcome
        rcases houtcome with ⟨e, _, hlist, rfl⟩ | huncaught
        · exact Or.inr ⟨e, hlist, rfl⟩
        · cases huncaught with
          | list hlong =>
              obtain ⟨answer, hanswer⟩ := hasked
              rw [(Disk.hasEntry_eq_error_iff _ _ _).mpr ⟨hlong, rfl⟩] at hanswer
              cases hanswer
          | entry hentries hfirst _ =>
              have hstuck := (exists_halts_iff hnames hentries hfirst.mem).mp hfirst.holds
              exact absurd hstuck (hfree _ hentries _ hfirst.mem)
  · rw [← (Package.key_of_ofKey? hname).1] at hsize
    exact Version.exists_key (Package.shortRuns_version hsize)

-- A root whose path goes out of its directory and back in again, and a file in it with a long name.
def windingRoot : Nat → Path
  | 0 => ⟨.here, ["cache"]⟩
  | n + 1 => ((windingRoot n).below "..").below "cache"

def leftover : String := "leftover-of-a-run-that-never-came-to-an-end.txt"

def windingFolder : Folder :=
  .file leftover [] (.folder "a-1" .empty .empty)

def windingWorld : World := .ofDisk (.ofFolder (.folder "cache" windingFolder .empty))

theorem parts_windingRoot_ne_nil (n : Nat) : (windingRoot n).parts ≠ [] := by
  cases n <;> simp [windingRoot, Path.below]

theorem size_text_windingRoot (n : Nat) : Utf8.size (windingRoot n).text = 5 + 9 * n := by
  induction n with
  | zero => decide
  | succ n ih =>
      have hup : ((windingRoot n).below "..").parts ≠ [] := by simp [Path.below]
      have hsizes : Utf8.size ".." = 2 ∧ Utf8.size "cache" = 5 := by decide
      rw [windingRoot, Path.size_text_below hup, Path.size_text_below (parts_windingRoot_ne_nil n), ih, hsizes.1,
        hsizes.2]
      omega

theorem fitting_windingRoot {n : Nat} (h : 5 + 9 * n < Disk.pathLimit) : (windingRoot n).Fitting := by
  refine ⟨?_, (size_text_windingRoot n).symm ▸ h⟩
  clear h
  induction n with
  | zero => decide
  | succ n ih =>
      simp only [windingRoot, Path.zero_mem_text_below, ih, false_or]
      decide

-- Such a path leads to its directory on every disk that has one.
theorem walk_windingRoot {root inner : Folder} (h : root.find? ["cache"] = some (.folder inner)) (n : Nat) :
    Disk.walk root [] (windingRoot n).parts = .ok ["cache"] := by
  induction n with
  | zero => rfl
  | succ n ih =>
      rw [windingRoot, Path.below, Path.below, List.append_assoc, Disk.walk_append, ih]
      change Disk.walk root ["cache"] ["..", "cache"] = _
      rw [Disk.walk, h]
      rfl

theorem entry_windingRoot {d : Disk} {inner : Folder} (hhere : d.here = [])
    (hcache : d.root.find? ["cache"] = some (.folder inner)) {n : Nat} (h : 5 + 9 * n < Disk.pathLimit) :
    d.entry (windingRoot n) = .ok (.folder inner) := by
  have hstart : d.start (windingRoot n) = [] := by
    rw [Disk.start]
    split
    · exact hhere
    · rfl
  refine (Disk.entry_eq_ok_iff _ _ _).mpr ⟨["cache"], ?_, hcache⟩
  rw [Disk.locate_eq_ok_iff, hstart]
  exact ⟨fitting_windingRoot h, walk_windingRoot hcache n⟩

theorem size_text_below_windingRoot (n : Nat) (name : String) :
    Utf8.size ((windingRoot n).below name).text = 6 + 9 * n + Utf8.size name := by
  rw [Path.size_text_below (parts_windingRoot_ne_nil n), size_text_windingRoot]
  omega

theorem list_windingRoot {n : Nat} (h : 5 + 9 * n < Disk.pathLimit) :
    windingWorld.disk.list (windingRoot n) = .ok [(windingRoot n).below leftover, (windingRoot n).below "a-1"] := by
  have hnames : windingFolder.names = [leftover, "a-1"] := by decide
  refine (Disk.list_eq_ok_iff _ _ _).mpr ⟨List.not_mem_nil, windingFolder, entry_windingRoot rfl rfl h, ?_⟩
  rw [hnames, List.map_cons, List.map_singleton]

theorem first_windingRoot {n : Nat} (hshort : 9 + 9 * n < Disk.pathLimit) (hlong : Disk.pathLimit ≤ 53 + 9 * n) :
    Result.First (Stuck (windingRoot n))
      (Cache.inOrder [(windingRoot n).below leftover, (windingRoot n).below "a-1"] [])
      (.named ((windingRoot n).below leftover)) := by
  have hsorted : Cache.sortByName [(windingRoot n).below leftover, (windingRoot n).below "a-1"] =
      [(windingRoot n).below "a-1", (windingRoot n).below leftover] := by
    have hnot : ¬decide (((windingRoot n).below leftover).name ≤ ((windingRoot n).below "a-1").name) = true := by
      rw [Cache.name_below, Cache.name_below]
      decide
    rw [Cache.sortByName, mergeSort_pair, if_neg hnot]
  have hsizes : Utf8.size leftover = 47 ∧ Utf8.size "a-1" = 3 := by decide +kernel
  refine ⟨[.named ((windingRoot n).below "a-1")], [], ?_, ?_, fun entry hentry => ?_⟩
  · rw [Cache.inOrder_nil, hsorted]
    rfl
  · rw [Stuck, Path.TooLong, size_text_below_windingRoot, hsizes.1]
    omega
  · rw [List.mem_singleton.mp hentry, Stuck, Path.TooLong, size_text_below_windingRoot, hsizes.2]
    omega

-- A directory that looks like the one of version 1 of a package, with a name that is no text.
def undecodedKey : Foreign :=
  ⟨[.char 'a', .ofByte 0xFF, .char '-', .char '1'], true, ⟨_, rfl⟩, by decide⟩

theorem resolve_outcomes_winding :
    windingWorld.disk.root.namesFit = true ∧
      (∃ answer, windingWorld.disk.hasEntry (windingRoot 450) = .ok answer) ∧
      ((resolve ⟨windingRoot 450⟩ .exact ["x"]).runIn windingWorld).1 =
        .error (.disk ⟨.nameTooLong, some ((windingRoot 450).below leftover).text⟩) ∧
      ((resolve ⟨windingRoot 0⟩ .exact ["x"] [undecodedKey]).runIn windingWorld).1 =
        .error (.unencodable ⟨0x4FF⟩) := by
  have hnames : windingWorld.disk.root.namesFit = true := by decide +kernel
  have hasked : ∀ n, 5 + 9 * n < Disk.pathLimit → ∃ answer, windingWorld.disk.hasEntry (windingRoot n) = .ok answer :=
    fun n hn => ⟨true, (Disk.hasEntry_eq_true_iff _ _).mpr ⟨_, entry_windingRoot rfl rfl hn⟩⟩
  have houtcomes := fun n hn => @resolve_outcomes ⟨windingRoot n⟩ windingWorld hnames (hasked n hn) .exact ["x"]
  refine ⟨hnames, hasked 450 (by decide), ?_, ?_⟩
  · obtain ⟨failure, hhalts, hfails⟩ := (houtcomes 450 (by decide) []).2.1 _ _ (list_windingRoot (by decide))
      (first_windingRoot (by decide) (by decide))
    rw [hfails, Cache.eq_of_halts_named hhalts]
  · have hlist := list_windingRoot (n := 0) (by decide)
    have hstuck : Stuck (windingRoot 0) (.foreign undecodedKey) := fun hpasses => hpasses.2 rfl (by decide)
    obtain ⟨entry, hfirst⟩ := (Result.exists_first_iff (p := Stuck (windingRoot 0))
      (l := Cache.inOrder [(windingRoot 0).below leftover, (windingRoot 0).below "a-1"] [undecodedKey])).mpr
        ⟨_, Cache.mem_inOrder_iff.mpr (Or.inr ⟨_, List.mem_singleton_self _, rfl⟩), hstuck⟩
    obtain ⟨failure, hhalts, hfails⟩ := (houtcomes 0 (by decide) [undecodedKey]).2.1 _ _ hlist hfirst
    rw [hfails]
    rcases Cache.mem_inOrder_iff.mp hfirst.mem with ⟨path, hpath, rfl⟩ | ⟨f, hf, rfl⟩
    · have hshort : ∀ path ∈ [(windingRoot 0).below leftover, (windingRoot 0).below "a-1"], ¬path.TooLong := by
        decide +kernel
      exact absurd hfirst.holds (hshort path hpath)
    · obtain rfl := List.mem_singleton.mp hf
      cases hhalts with
      | foreign hlong => exact absurd hlong (by decide)
      | key _ _ _ hhalf =>
          have he : undecodedKey.name.toText = .error ⟨0x4FF⟩ := rfl
          rw [RawText.toText_eq_error_iff.mpr hhalf] at he
          rw [Except.error.inj he]

end Query

end CrateDocs
