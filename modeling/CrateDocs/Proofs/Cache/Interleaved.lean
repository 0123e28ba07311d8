import CrateDocs.Proofs.Cache.Steps

namespace CrateDocs.Cache

open Function (update)
open Relation (ReflTransGen)

variable {ι : Type*} [DecidableEq ι] {cache : Cache} {puts : ι → Put}

-- A disk, and how far each of the calls at work on it has come.
structure System (ι : Type*) where
  disk : Disk
  phase : ι → Phase

-- One of the calls takes a step.
def System.Step (cache : Cache) (puts : ι → Put) (s s' : System ι) : Prop :=
  ∃ i next, (puts i).Step cache (s.disk, s.phase i) (s'.disk, next) ∧ s'.phase = update s.phase i next

-- What may be there after some steps, all calls having started on one disk.
def System.Reached (cache : Cache) (puts : ι → Put) (before : Disk) : System ι → Prop :=
  ReflTransGen (System.Step cache puts) ⟨before, fun _ => .starting⟩

theorem System.steps_of_put (i : ι) {d d' : Disk} {phase : ι → Phase} {next : Phase}
    (h : ReflTransGen ((puts i).Step cache) (d, phase i) (d', next)) :
    ReflTransGen (System.Step cache puts) ⟨d, phase⟩ ⟨d', update phase i next⟩ := by
  generalize hfirst : (d, phase i) = first, hlast : (d', next) = last at h
  induction h generalizing d' next with
  | refl =>
      rw [← hfirst] at hlast
      obtain ⟨rfl, rfl⟩ := Prod.mk.inj hlast
      rw [Function.update_eq_self]
  | @tail mid last _ hstep ih =>
      subst hlast
      refine (ih rfl).tail ⟨i, next, ?_, ?_⟩
      · dsimp only
        rw [Function.update_self]
        exact hstep
      · dsimp only
        rw [Function.update_idem]

-- The files while calls are at work. A temporary file belongs to one call and has what the call no longer
-- has left to write. In the place of a cache file is what was there at first, or all that one call wrote.
structure Sound (root : Location) (puts : ι → Put) (before files : Location → Option (List UInt8))
    (phase : ι → Phase) : Prop where
  written : ∀ i mark left, phase i = .writing mark left →
    ∃ content, files (temporarySpot root (puts i).package.key mark) = some content ∧
      content ++ left = (puts i).payload
  apart : ∀ i j mark mark' left left', phase i = .writing mark left → phase j = .writing mark' left' →
    temporarySpot root (puts i).package.key mark = temporarySpot root (puts j).package.key mark' → i = j
  whole : ∀ key, files (fileSpot root key) = before (fileSpot root key) ∨
    ∃ i, (puts i).package.key = key ∧ files (fileSpot root key) = some (puts i).payload

variable {root : Location} {before files files' : Location → Option (List UInt8)} {phase : ι → Phase}

-- It is enough to look at the call that took the step, and at the files that the others use.
theorem Sound.set (h : Sound root puts before files phase) {i : ι} {next : Phase}
    (hothers : ∀ j mark left, j ≠ i → phase j = .writing mark left →
      files' (temporarySpot root (puts j).package.key mark) = files (temporarySpot root (puts j).package.key mark))
    (hwritten : ∀ mark left, next = .writing mark left →
      ∃ content, files' (temporarySpot root (puts i).package.key mark) = some content ∧
        content ++ left = (puts i).payload)
    (hapart : ∀ j mark mark' left left', j ≠ i → phase j = .writing mark left → next = .writing mark' left' →
      temporarySpot root (puts j).package.key mark ≠ temporarySpot root (puts i).package.key mark')
    (hwhole : ∀ key, files' (fileSpot root key) = files (fileSpot root key) ∨
      (puts i).package.key = key ∧ files' (fileSpot root key) = some (puts i).payload) :
    Sound root puts before files' (Function.update phase i next) where
  written j mark left hj := by
    by_cases hji : j = i
    · subst hji
      rw [Function.update_self] at hj
      exact hwritten mark left hj
    · rw [Function.update_of_ne hji] at hj
      rw [hothers j mark left hji hj]
      exact h.written j mark left hj
  apart j k mark mark' left left' hj hk hspot := by
    by_cases hji : j = i
    · by_cases hki : k = i
      · rw [hji, hki]
      · subst hji
        rw [Function.update_self] at hj
        rw [Function.update_of_ne hki] at hk
        exact absurd hspot.symm (hapart k mark' mark left' left hki hk hj)
    · rw [Function.update_of_ne hji] at hj
      by_cases hki : k = i
      · subst hki
        rw [Function.update_self] at hk
        exact absurd hspot (hapart j mark mark' left left' hji hj hk)
      · rw [Function.update_of_ne hki] at hk
        exact h.apart j k mark mark' left left' hj hk hspot
  whole key := by
    rcases hwhole key with hsame | ⟨hkey, hnew⟩
    · rw [hsame]
      exact h.whole key
    · exact Or.inr ⟨i, hkey, hnew⟩

omit [DecidableEq ι] in
theorem Sound.temporarySpot_ne (h : Sound root puts before files phase) {i j : ι} {mark mark' : String}
    {left left' : List UInt8} (hi : phase i = .writing mark left) (hji : j ≠ i) (hj : phase j = .writing mark' left') :
    temporarySpot root (puts j).package.key mark' ≠ temporarySpot root (puts i).package.key mark :=
  fun hspot => hji (h.apart j i mark' mark left' left hj hi hspot)

theorem Sound.change (h : Sound root puts before files phase) {i : ι} {next : Phase}
    (hchange : (puts i).Change root (files, phase i) (files', next)) :
    Sound root puts before files' (Function.update phase i next) := by
  generalize hphase : phase i = current at hchange
  cases hchange with
  | keep hnext =>
      have hsame : ∀ mark left, next = .writing mark left → phase i = .writing mark left := by
        rintro mark left rfl
        rw [hphase]
        exact (hnext.resolve_right nofun).symm
      refine h.set (fun _ _ _ _ _ => rfl) (fun mark left hnext => h.written i mark left (hsame mark left hnext)) ?_
        fun _ => Or.inl rfl
      intro j mark mark' left left' hji hj hnext
      exact h.temporarySpot_ne (hsame mark' left' hnext) hji hj
  | @create _ mark hfree =>
      have hne : ∀ j mark' left', phase j = .writing mark' left' →
          temporarySpot root (puts j).package.key mark' ≠ temporarySpot root (puts i).package.key mark := by
        intro j mark' left' hj hspot
        obtain ⟨content, hcontent, _⟩ := h.written j mark' left' hj
        rw [hspot, hfree] at hcontent
        cases hcontent
      refine h.set ?_ ?_ ?_ fun key => Or.inl ?_
      · intro j mark' left' _ hj
        exact Function.update_of_ne (hne j mark' left' hj) _ _
      · rintro mark' left' ⟨⟩
        exact ⟨[], Function.update_self _ _ _, rfl⟩
      · rintro j mark' _ left' _ _ hj ⟨⟩
        exact hne j mark' left' hj
      · exact Function.update_of_ne (temporarySpot_ne_fileSpot _ _ _ _).symm _ _
  | @append _ mark now chunk left hread =>
      obtain ⟨content, hcontent, hpayload⟩ := h.written i mark _ hphase
      obtain rfl := Option.some.inj (hread.symm.trans hcontent)
      refine h.set ?_ ?_ ?_ fun key => Or.inl ?_
      · intro j mark' left' hji hj
        exact Function.update_of_ne (h.temporarySpot_ne hphase hji hj) _ _
      · rintro mark' left' ⟨⟩
        exact ⟨_, Function.update_self _ _ _, by rw [List.append_assoc, hpayload]⟩
      · rintro j mark' _ left' _ hji hj ⟨⟩
        exact h.temporarySpot_ne hphase hji hj
      · exact Function.update_of_ne (temporarySpot_ne_fileSpot _ _ _ _).symm _ _
  | @rename _ mark content hread =>
      obtain ⟨_, hcontent, hpayload⟩ := h.written i mark _ hphase
      obtain rfl := Option.some.inj (hread.symm.trans hcontent)
      rw [List.append_nil] at hpayload
      refine h.set ?_ nofun nofun fun key => ?_
      · intro j mark' left' hji hj
        rw [Function.update_of_ne (temporarySpot_ne_fileSpot _ _ _ _)]
        exact Function.update_of_ne (h.temporarySpot_ne hphase hji hj) _ _
      · by_cases hkey : (puts i).package.key = key
        · rw [← hkey, Function.update_self, hpayload]
          exact Or.inr ⟨rfl, rfl⟩
        · rw [Function.update_of_ne fun hspot => hkey (fileSpot_injective root hspot).symm]
          exact Or.inl (Function.update_of_ne (temporarySpot_ne_fileSpot _ _ _ _).symm _ _)
  | @unlink _ mark left =>
      refine h.set ?_ nofun nofun fun key => Or.inl ?_
      · intro j mark' left' hji hj
        exact Function.update_of_ne (h.temporarySpot_ne hphase hji hj) _ _
      · exact Function.update_of_ne (temporarySpot_ne_fileSpot _ _ _ _).symm _ _

theorem System.Reached.sound {d : Disk} {s : System ι} (h : System.Reached cache puts d s) :
    s.disk.here = d.here ∧ Sound (d.resolve cache.root) puts d.fileAt s.disk.fileAt s.phase := by
  induction h with
  | refl => exact ⟨rfl, nofun, nofun, fun _ => Or.inl rfl⟩
  | @tail s s' _ hstep ih =>
      obtain ⟨hhere, hsound⟩ := ih
      obtain ⟨i, next, hput, hphase⟩ := hstep
      obtain ⟨hsame, hchange⟩ := hput.change
      rw [Disk.resolve_congr hhere] at hchange
      rw [hphase]
      exact ⟨hsame.trans hhere, hsound.change hchange⟩

-- A cache that is read while calls are at work. Each of the questions is asked of the disk as it is then.
structure Moments where
  test : Disk
  listing : Disk
  folder : Path → Disk
  file : Path → Disk

def Moments.all (m : Moments) (holds : Disk → Prop) : Prop :=
  holds m.test ∧ holds m.listing ∧ (∀ entry, holds (m.folder entry)) ∧ ∀ entry, holds (m.file entry)

def Moments.one (d : Disk) : Moments :=
  ⟨d, d, fun _ => d, fun _ => d⟩

def entryDuring (m : Moments) (entry : Path) : Except Failure (Option (Package × List FunctionDoc)) :=
  match (m.folder entry).isFolder entry with
  | .error e => .error (.disk e)
  | .ok false => .ok none
  | .ok true =>
    match Package.ofKey? entry.name with
    | none => .ok none
    | some package =>
      .ok ((docsAt? (m.file entry) (entry.child (entry.name ++ ".json"))).map fun docs => (package, docs))

def contentsDuring (cache : Cache) (m : Moments) : Except Failure (List (Package × List FunctionDoc)) :=
  match m.test.hasEntry cache.root with
  | .error e => .error (.disk e)
  | .ok false => .ok []
  | .ok true =>
    match m.listing.list cache.root with
    | .error e => .error (.fault (.cacheNotListed cache.root e))
    | .ok entries => ((sortByName entries).mapM (entryDuring m)).map fun found => found.filterMap id

theorem contentsDuring_one (cache : Cache) (d : Disk) : cache.contentsDuring (.one d) = cache.contents d :=
  rfl

theorem holds_of_entryDuring {m : Moments} {name : String} {p : Package} {docs : List FunctionDoc}
    (h : entryDuring m (cache.root.below name) = .ok (some (p, docs))) :
    cache.Holds (m.file (cache.root.below name)) p docs := by
  rw [entryDuring] at h
  split at h
  · cases h
  · cases h
  · split at h
    · cases h
    · rename_i package hkey
      obtain ⟨found, hfound, heq⟩ := Option.map_eq_some_iff.mp (Except.ok.inj h)
      obtain ⟨rfl, rfl⟩ := Prod.mk.inj heq
      obtain ⟨hname, hnamed⟩ := Package.key_of_ofKey? hkey
      rw [name_below] at hname hfound
      refine ⟨hnamed, ?_⟩
      rw [fileFor, folderFor_eq, hname]
      exact hfound

-- Whatever is listed was in its file when that was read.
theorem holds_of_mem_contentsDuring {m : Moments} {all : List (Package × List FunctionDoc)}
    (hall : cache.contentsDuring m = .ok all) {p : Package} {docs : List FunctionDoc} (hmem : (p, docs) ∈ all) :
    ∃ entry, cache.Holds (m.file entry) p docs := by
  rw [contentsDuring] at hall
  split at hall
  · cases hall
  · cases hall
    cases hmem
  · split at hall
    · cases hall
    · rename_i entries hlist
      obtain ⟨_, inner, _, rfl⟩ := (Disk.list_eq_ok_iff _ _ _).mp hlist
      cases hfound : (sortByName (inner.names.map cache.root.below)).mapM (entryDuring m) with
      | error failure =>
          rw [hfound] at hall
          cases hall
      | ok found =>
          rw [hfound] at hall
          obtain rfl := Except.ok.inj hall
          dsimp only at hmem
          rw [filterMap_of_mapM hfound] at hmem
          obtain ⟨entry, hentry, hread⟩ := List.mem_filterMap.mp hmem
          obtain ⟨name, _, rfl⟩ := List.mem_map.mp (List.mem_mergeSort.mp hentry)
          exact ⟨_, holds_of_entryDuring ((join_toOption_iff _ _).mp hread)⟩

theorem Holds.fileAt {d : Disk} {p : Package} {docs : List FunctionDoc} (h : cache.Holds d p docs) :
    ∃ bytes, d.fileAt (fileSpot (d.resolve cache.root) p.key) = some bytes ∧ FunctionDoc.ofBytes bytes = .ok docs := by
  obtain ⟨bytes, hentry, hdocs⟩ := (docsAt?_eq_some_iff d _ docs).mp h.2
  have hfile := Disk.fileAt_of_read ((Disk.read_eq_ok_iff d _ bytes).mpr hentry)
  rw [resolve_fileFor] at hfile
  exact ⟨bytes, hfile, hdocs⟩

-- Whatever calls are at work, and wherever each of them has come to or has stopped, every cache file is as it
-- was at first or as one call left it. So are the functions that are read for a package, whenever its file
-- is read.
theorem cacheFiles_whole (cache : Cache) (puts : ι → Put) (before : Disk) :
    (∀ s, System.Reached cache puts before s →
      (∀ key, s.disk.fileAt (fileSpot (before.resolve cache.root) key) =
          before.fileAt (fileSpot (before.resolve cache.root) key) ∨
        ∃ i, (puts i).package.key = key ∧
          s.disk.fileAt (fileSpot (before.resolve cache.root) key) = some (puts i).payload) ∧
      ∀ i w, s.phase i = .starting → w.disk = s.disk → ∃ phase, System.Reached cache puts before
        ⟨((cache.put (puts i).package (puts i).docs).runIn w).2.disk, update s.phase i phase⟩) ∧
    (∀ w, (cache.getAll.runIn w).1 = cache.contentsDuring (.one w.disk)) ∧
    ∀ m all, m.all (fun d => ∃ s, System.Reached cache puts before s ∧ s.disk = d) →
      cache.contentsDuring m = .ok all → ∀ p docs, (p, docs) ∈ all →
        (∃ bytes, before.fileAt (fileSpot (before.resolve cache.root) p.key) = some bytes ∧
          FunctionDoc.ofBytes bytes = .ok docs) ∨ ∃ i, puts i = ⟨p, docs⟩ := by
  refine ⟨fun s hs => ⟨hs.sound.2.whole, fun i w hphase hw => ?_⟩, fun w => ?_, ?_⟩
  · obtain ⟨phase, hsteps⟩ := steps_put cache (puts i) w
    rw [hw, ← hphase] at hsteps
    exact ⟨phase, hs.trans (System.steps_of_put i hsteps)⟩
  · obtain ⟨_, hread⟩ := reads_getAll cache w
    rw [hread, contentsDuring_one]
  · intro m all hm hall p docs hmem
    obtain ⟨entry, hholds⟩ := holds_of_mem_contentsDuring hall hmem
    obtain ⟨s, hs, hdisk⟩ := hm.2.2.2 entry
    obtain ⟨bytes, hfile, hdocs⟩ := hholds.fileAt
    obtain ⟨hhere, hsound⟩ := hs.sound
    rw [← hdisk, Disk.resolve_congr hhere] at hfile
    rcases hsound.whole p.key with hsame | ⟨i, hkey, hnew⟩
    · rw [hsame] at hfile
      exact Or.inl ⟨bytes, hfile, hdocs⟩
    · refine Or.inr ⟨i, ?_⟩
      rw [hfile] at hnew
      rw [Option.some.inj hnew, Put.payload, FunctionDoc.ofBytes_toBytes] at hdocs
      rw [← Package.key_injective hkey, ← Except.ok.inj hdocs]

-- Two calls for one package that is there already. One of them has stopped halfway.

def racingDoc (signature : String) : FunctionDoc := ⟨["a", "run"], signature, .normal, .plain, .exported, .rust⟩

def racingPuts (second : Bool) : Put :=
  ⟨⟨"a", "1"⟩, [racingDoc (if second then "fn run(x: u8)" else "fn run(x: u8, y: u8)")]⟩

def racingCache : Cache := ⟨⟨.here, ["cache"]⟩⟩

def racingDisk (inner : Folder) : Disk :=
  .ofFolder (.folder "cache" (.folder "a-1" inner .empty) .empty)

def racingFile : Folder := .file "a-1.json" (FunctionDoc.toBytes [racingDoc "fn run()"]) .empty

def halfway : System Bool where
  disk := racingDisk (.file ".a-1.json.mark.tmp" ((racingPuts false).payload.take 9) racingFile)
  phase := update (fun _ => .starting) false (.writing "mark" ((racingPuts false).payload.drop 9))

def racingWorld : World := .ofDisk halfway.disk

theorem temporaryFor_racing (inner : Folder) :
    racingCache.temporaryFor (racingDisk inner) ⟨"a", "1"⟩ "mark" =
      ⟨.root, ["cache", "a-1", ".a-1.json.mark.tmp"]⟩ := by
  have hkey : Package.key ⟨"a", "1"⟩ = "a-1" := by decide +kernel
  have hname : temporaryName "a-1" "mark" = ".a-1.json.mark.tmp" := by decide
  rw [temporaryFor, folderFor_eq, hkey, hname]
  simp [Disk.resolve, Disk.start, racingDisk, Disk.ofFolder, racingCache, Path.below]

theorem locate_racing (inner : Folder) :
    (racingDisk inner).locate ⟨.root, ["cache", "a-1", ".a-1.json.mark.tmp"]⟩ =
      .ok ["cache", "a-1", ".a-1.json.mark.tmp"] := by
  refine (Disk.locate_eq_ok_iff _ _ _).mpr ⟨⟨?_, ?_⟩, rfl⟩
  · decide
  · decide +kernel

theorem writeFile_racing {inner after : Folder} {content : List UInt8}
    (h : ∀ g, inner.get? ".a-1.json.mark.tmp" ≠ some (.folder g))
    (hafter : inner.insert ".a-1.json.mark.tmp" (.file content) = after) :
    (racingDisk inner).writeFile (racingCache.temporaryFor (racingDisk inner) ⟨"a", "1"⟩ "mark") content =
      .ok (racingDisk after) := by
  rw [temporaryFor_racing, ← hafter]
  exact (Disk.writeFile_eq_ok_iff _ _ _ _).mpr ⟨_, locate_racing inner, h, rfl⟩

-- The first call makes its temporary file and writes nine bytes.
theorem reached_halfway : System.Reached racingCache racingPuts (racingDisk racingFile) halfway := by
  have hnone : racingFile.get? ".a-1.json.mark.tmp" = none := rfl
  have herase : racingFile.erase ".a-1.json.mark.tmp" = racingFile := rfl
  have hcreated : (racingDisk racingFile).writeFile (racingCache.temporaryFor (racingDisk racingFile) ⟨"a", "1"⟩ "mark") [] =
      .ok (racingDisk (.file ".a-1.json.mark.tmp" [] racingFile)) :=
    writeFile_racing (by simp [hnone]) (by rw [Folder.insert, herase])
  have hfree : (racingDisk racingFile).hasEntry (racingCache.temporaryFor (racingDisk racingFile) ⟨"a", "1"⟩ "mark") =
      .ok false := by
    refine hasEntry_of_find? hcreated ?_
    rw [temporaryFor_racing]
    rfl
  have hread : (racingDisk (.file ".a-1.json.mark.tmp" [] racingFile)).read
      (racingCache.temporaryFor (racingDisk (.file ".a-1.json.mark.tmp" [] racingFile)) ⟨"a", "1"⟩ "mark") = .ok [] := by
    rw [temporaryFor_racing, Disk.read_eq_ok_iff, Disk.entry_eq_ok_iff]
    exact ⟨_, locate_racing _, rfl⟩
  have hwritten : ∀ chunk : List UInt8, (racingDisk (.file ".a-1.json.mark.tmp" [] racingFile)).writeFile
      (racingCache.temporaryFor (racingDisk (.file ".a-1.json.mark.tmp" [] racingFile)) ⟨"a", "1"⟩ "mark") ([] ++ chunk) =
        .ok (racingDisk (.file ".a-1.json.mark.tmp" chunk racingFile)) := by
    intro chunk
    refine writeFile_racing (by simp [Folder.get?]) ?_
    rw [Folder.insert, Folder.erase, if_pos rfl, herase, List.nil_append]
  have hcreate : (racingPuts false).Step racingCache _ _ := .create hfree hcreated
  have happend : ∀ chunk left : List UInt8, (racingPuts false).Step racingCache (_, .writing "mark" (chunk ++ left)) _ :=
    fun chunk left => .append hread (hwritten chunk)
  have hhalf := happend ((racingPuts false).payload.take 9) ((racingPuts false).payload.drop 9)
  rw [List.take_append_drop] at hhalf
  exact System.steps_of_put false ((Relation.ReflTransGen.single hcreate).tail hhalf)

theorem exists_contents_halfway :
    ∃ all, racingCache.contents halfway.disk = .ok all ∧ (⟨"a", "1"⟩, [racingDoc "fn run()"]) ∈ all := by
  have hroot : halfway.disk.entry racingCache.root = .ok (.folder (.folder "a-1"
    (.file ".a-1.json.mark.tmp" ((racingPuts false).payload.take 9) racingFile) .empty)) := rfl
  have hall : ∃ all, racingCache.contents halfway.disk = .ok all := by
    refine (exists_contents_iff _ _).mpr (Or.inr ⟨List.not_mem_nil, ⟨_, hroot⟩, ?_⟩)
    rintro name ⟨inner, hinner, hname⟩
    obtain rfl := Entry.folder.inj (Except.ok.inj (hroot.symm.trans hinner))
    have hentry : "a-1" = name := by
      by_contra hne
      exact hname (by simp [Folder.get?, hne])
    rw [← hentry]
    exact Or.inr ⟨by decide +kernel, by decide⟩
  obtain ⟨all, hall⟩ := hall
  refine ⟨all, hall, (mem_contents_iff hall _ _).mpr ⟨by decide, ?_⟩⟩
  refine (docsAt?_eq_some_iff _ _ _).mpr ⟨_, ?_, FunctionDoc.ofBytes_toBytes _⟩
  rw [(by decide +kernel : racingCache.fileFor ⟨"a", "1"⟩ = ⟨.here, ["cache", "a-1", "a-1.json"]⟩)]
  rfl

theorem cacheFiles_whole_racing :
    System.Reached racingCache racingPuts (racingDisk racingFile) halfway ∧
      (∃ phase, System.Reached racingCache racingPuts (racingDisk racingFile)
        ⟨((racingCache.put ⟨"a", "1"⟩ [racingDoc "fn run(x: u8)"]).runIn racingWorld).2.disk,
          update halfway.phase true phase⟩) ∧
      ∃ all, racingCache.contentsDuring (.one halfway.disk) = .ok all ∧ (⟨"a", "1"⟩, [racingDoc "fn run()"]) ∈ all ∧
        ∀ p docs, (p, docs) ∈ all → (∃ bytes, (racingDisk racingFile).fileAt
          (fileSpot ((racingDisk racingFile).resolve racingCache.root) p.key) = some bytes ∧
            FunctionDoc.ofBytes bytes = .ok docs) ∨ ∃ second, racingPuts second = ⟨p, docs⟩ := by
  obtain ⟨hrun, _, hread⟩ := cacheFiles_whole racingCache racingPuts (racingDisk racingFile)
  have hput := (hrun halfway reached_halfway).2 true racingWorld rfl rfl
  obtain ⟨all, hall, hmem⟩ := exists_contents_halfway
  have hseen : ∃ s, System.Reached racingCache racingPuts (racingDisk racingFile) s ∧ s.disk = halfway.disk :=
    ⟨halfway, reached_halfway, rfl⟩
  rw [← contentsDuring_one] at hall
  exact ⟨reached_halfway, hput, all, hall, hmem, hread _ all ⟨hseen, hseen, fun _ => hseen, fun _ => hseen⟩ hall⟩

end CrateDocs.Cache
