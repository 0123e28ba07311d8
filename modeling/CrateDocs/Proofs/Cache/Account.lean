import CrateDocs.Proofs.Cache.Contents
import CrateDocs.Proofs.FunctionDoc.RoundTrip
import CrateDocs.Proofs.Work.Gives

namespace CrateDocs

theorem Foreign.name_ne_ofText (f : Foreign) (text : String) : f.name ≠ .ofText text := by
  obtain ⟨e, he⟩ := f.notText
  intro hname
  rw [hname, RawText.toText_ofText] at he
  cases he

namespace Cache

variable {cache : Cache} {d : Disk} {inner : Folder} {foreign : List Foreign}

-- A root that is a directory and can be listed. The names in it are such as a file system takes.
structure Listable (cache : Cache) (d : Disk) (inner : Folder) : Prop where
  listable : cache.root.text ∉ d.limits.unlistable
  entry : d.entry cache.root = .ok (.folder inner)
  names : ∀ name ∈ inner.names, isFileName name = true ∧ Utf8.size name ≤ Disk.nameLimit

-- What is in the root can be asked about under the path of the root.
def Fits (cache : Cache) (inner : Folder) : Prop :=
  ∀ name ∈ inner.names, Utf8.size (cache.root.below name).text < Disk.pathLimit

-- Nothing in the root keeps it from being read, the entries among it whose names are no texts.
def Readable (cache : Cache) (inner : Folder) (foreign : List Foreign) : Prop :=
  cache.Fits inner ∧ ∀ f ∈ foreign, Passes cache.root f

-- A directory in the root, under whatever name.
def IsFolder (inner : Folder) (foreign : List Foreign) (name : RawText) : Prop :=
  (∃ text sub, name = .ofText text ∧ inner.get? text = some (.folder sub)) ∨
    ∃ f ∈ foreign, name = f.name ∧ f.isFolder = true

theorem Listable.zero_notMem (h : cache.Listable d inner) {name : String} (hname : name ∈ inner.names) :
    '\x00' ∉ (cache.root.below name).text.toList := by
  obtain ⟨spot, hlocate, _⟩ := (Disk.entry_eq_ok_iff d _ _).mp h.entry
  have hroot : cache.root.Fitting := ((Disk.locate_eq_ok_iff d _ spot).mp hlocate).1
  rw [Path.zero_mem_text_below, not_or]
  exact ⟨hroot.1, zero_notMem_of_isFileName (h.names name hname).1⟩

theorem Listable.fitting (h : cache.Listable d inner) (hfits : cache.Fits inner) {name : String}
    (hname : name ∈ inner.names) : (cache.root.below name).Fitting :=
  ⟨h.zero_notMem hname, hfits name hname⟩

theorem Listable.askable_iff (h : cache.Listable d inner) {name : String} (hname : name ∈ inner.names) :
    Disk.Askable cache.root name ↔ Utf8.size (cache.root.below name).text < Disk.pathLimit := by
  have hzero := h.zero_notMem hname
  have hsize := (h.names name hname).2
  have hnot : Disk.textRefusal? (cache.root.below name) ≠ some .zeroByte := by
    simp only [Disk.textRefusal?, List.contains_iff_mem, hzero, if_false]
    split <;> nofun
  simp only [Disk.Askable, hnot, false_or, hsize, and_true, Disk.textRefusal?_eq_none_iff, Path.Fitting, hzero,
    not_false_eq_true, true_and]

-- Such a root is read exactly if all that is in it can be asked about.
theorem Listable.exists_contents_iff (h : cache.Listable d inner) :
    (∃ all, cache.contents d = .ok all) ↔ cache.Fits inner := by
  have hthere : d.hasEntry cache.root ≠ .ok false := by
    rw [(Disk.hasEntry_eq_true_iff d cache.root).mpr ⟨_, h.entry⟩]
    nofun
  rw [Cache.exists_contents_iff]
  constructor
  · rintro (hmissing | ⟨_, _, hnames⟩) name hname
    · exact absurd hmissing hthere
    · rw [← h.askable_iff hname]
      exact hnames name ⟨inner, h.entry, (Folder.mem_names_iff inner name).mp hname⟩
  · intro hfits
    refine Or.inr ⟨h.listable, ⟨inner, h.entry⟩, ?_⟩
    rintro name ⟨other, hother, hname⟩
    obtain rfl := Entry.folder.inj (Except.ok.inj (h.entry.symm.trans hother))
    have hmem := (Folder.mem_names_iff inner name).mpr hname
    exact (h.askable_iff hmem).mpr (hfits name hmem)

theorem Listable.entry_below_iff (h : cache.Listable d inner) (hfits : cache.Fits inner) {name : String}
    (hname : name ∈ inner.names) (e : Entry) :
    d.entry (cache.root.below name) = .ok e ↔ inner.get? name = some e := by
  obtain ⟨hproper, hsize⟩ := h.names name hname
  rw [Disk.entry_below_eq_ok_iff d _ (ne_up_of_isFileName hproper)]
  constructor
  · rintro ⟨_, _, other, hother, hget⟩
    obtain rfl := Entry.folder.inj (Except.ok.inj (h.entry.symm.trans hother))
    exact hget
  · intro hget
    exact ⟨h.fitting hfits hname, hsize, inner, h.entry, hget⟩

theorem Listable.isFolder_below (h : cache.Listable d inner) (hfits : cache.Fits inner) {name : String}
    (hname : name ∈ inner.names) :
    (∃ answer, d.isFolder (cache.root.below name) = .ok answer) ∧
      (d.isFolder (cache.root.below name) = .ok true ↔ ∃ sub, inner.get? name = some (.folder sub)) := by
  constructor
  · rw [Disk.isFolder_below_eq_ok_iff h.entry, h.askable_iff hname]
    exact hfits name hname
  · rw [Disk.isFolder_eq_true_iff]
    exact exists_congr fun sub => h.entry_below_iff hfits hname (.folder sub)

-- What a package is held by: the directory of its key in the root, and the file in there. Nothing else
-- in the root counts.
theorem holds_iff_get? (hroot : d.entry cache.root = .ok (.folder inner)) (p : Package)
    (docs : List FunctionDoc) :
    cache.Holds d p docs ↔
      p.Named ∧ (cache.fileFor p).Fitting ∧ Utf8.size (p.key ++ ".json") ≤ Disk.nameLimit ∧
        ∃ sub bytes, inner.get? p.key = some (.folder sub) ∧ sub.get? (p.key ++ ".json") = some (.file bytes) ∧
          FunctionDoc.ofBytes bytes = .ok docs := by
  have hkey := ne_up_of_isFileName p.isFileName_key
  have hjson := ne_up_of_isFileName p.isFileName_key_json
  simp only [Holds, docsAt?_eq_some_iff, fileFor_eq, Disk.entry_below_eq_ok_iff d _ hjson,
    Disk.entry_below_eq_ok_iff d _ hkey, hroot]
  constructor
  · rintro ⟨hnamed, bytes, ⟨hfit, hsize, sub, ⟨_, _, root, hinner, hget⟩, hfile⟩, hdocs⟩
    obtain rfl := Entry.folder.inj (Except.ok.inj hinner)
    exact ⟨hnamed, hfit, hsize, sub, bytes, hget, hfile, hdocs⟩
  · rintro ⟨hnamed, hfit, hsize, sub, bytes, hget, hfile, hdocs⟩
    have hshort : Utf8.size p.key ≤ Disk.nameLimit := by
      rw [Utf8.size_append] at hsize
      omega
    exact ⟨hnamed, bytes, ⟨hfit, hsize, sub, ⟨Path.fitting_of_below hfit, hshort, inner, rfl, hget⟩, hfile⟩, hdocs⟩

-- The warning about a cache file that cannot be read, and about an entry of the root that is left out.

def unreadable? (d : Disk) (file : Path) : Option Event :=
  match d.read file with
  | .error e => some (.cacheUnreadable file (.disk e))
  | .ok bytes =>
    match FunctionDoc.ofBytes bytes with
    | .ok _ => none
    | .error problems => some (.cacheUnreadable file (.schema problems))

def warning? (d : Disk) (entry : Path) : Option Event :=
  match d.isFolder entry with
  | .ok true =>
    match Package.ofKey? entry.name with
    | none => some (.strayFolder entry)
    | some _ => unreadable? d (entry.child (entry.name ++ ".json"))
  | _ => none

theorem gives_readFile (d : Disk) (file : Path) :
    Work.Gives d (readFile file) (docsAt? d file) (unreadable? d file).toList := by
  refine Work.Gives.disk fun w hw => ?_
  rw [hw, docsAt?, unreadable?]
  cases d.read file with
  | error e => exact (Work.Gives.note d _).bind (Work.Gives.pure d none)
  | ok bytes =>
      dsimp only
      cases FunctionDoc.ofBytes bytes with
      | ok docs => exact Work.Gives.pure d (some docs)
      | error problems => exact (Work.Gives.note d _).bind (Work.Gives.pure d none)

theorem gives_readEntry {entry : Path} {answer : Bool} (h : d.isFolder entry = .ok answer) :
    Work.Gives d (readEntry entry) (entryAt d entry).toOption.join (warning? d entry).toList := by
  refine (Work.Gives.ask h).bind ?_
  rw [entryAt, warning?, h]
  cases answer with
  | false => exact Work.Gives.pure d none
  | true =>
      rw [if_neg (by decide)]
      cases Package.ofKey? entry.name with
      | none => exact (Work.Gives.note d _).bind (Work.Gives.pure d none)
      | some package =>
          have hfile := gives_readFile d (entry.child (entry.name ++ ".json"))
          dsimp only [Except.toOption, Option.join_some]
          exact hfile.map (Option.map fun docs => (package, docs))

theorem gives_readForeign {root : Path} {f : Foreign} (d : Disk) (h : Passes root f) :
    Work.Gives d (readForeign root f) none (if f.isFolder then [.strayFolder (f.pathIn root)] else []) := by
  rw [readForeign, h.1]
  cases hfolder : f.isFolder with
  | false => exact Work.Gives.pure d none
  | true =>
      have hkey : Package.ofRawKey f.name = .ok none := by
        rw [Package.ofRawKey_eq, if_neg (h.2 hfolder)]
      rw [hkey]
      exact (Work.Gives.note d _).bind (Work.Gives.pure d none)

-- The warning about an entry of the root, as it is listed.
def listedWarning? (root : Path) (d : Disk) : Listed → Option Event
  | .named path => warning? d path
  | .foreign f => if f.isFolder then some (.strayFolder (f.pathIn root)) else none

theorem gives_getAll (h : cache.Listable d inner) (hreadable : cache.Readable inner foreign) :
    Work.Gives d (cache.getAll foreign)
      ((inOrder (inner.names.map cache.root.below) foreign).filterMap fun entry =>
        (listedAt cache.root d entry).toOption.join)
      ((inOrder (inner.names.map cache.root.below) foreign).flatMap fun entry =>
        (listedWarning? cache.root d entry).toList) := by
  have hthere := (Disk.hasEntry_eq_true_iff d cache.root).mpr ⟨_, h.entry⟩
  have hlist := (Disk.list_eq_ok_iff d cache.root _).mpr ⟨h.listable, inner, h.entry, rfl⟩
  have heach : ∀ entry ∈ inOrder (inner.names.map cache.root.below) foreign,
      Work.Gives d (readListed cache.root entry) (listedAt cache.root d entry).toOption.join
        (listedWarning? cache.root d entry).toList := by
    intro entry hentry
    rcases mem_inOrder_iff.mp hentry with ⟨path, hpath, rfl⟩ | ⟨f, hf, rfl⟩
    · obtain ⟨name, hname, rfl⟩ := List.mem_map.mp hpath
      obtain ⟨answer, hanswer⟩ := (h.isFolder_below hreadable.1 hname).1
      exact gives_readEntry hanswer
    · have hpasses := hreadable.2 f hf
      have hnone : listedAt cache.root d (.foreign f) = .ok none := foreignAt_eq_ok_iff.mpr ⟨rfl, hpasses⟩
      rw [hnone, listedWarning?]
      have hgives := gives_readForeign d hpasses
      cases hfolder : f.isFolder with
      | false => rwa [hfolder] at hgives
      | true => rwa [hfolder] at hgives
  refine (Work.Gives.ask hthere).bind ?_
  rw [if_neg (by decide)]
  refine Work.Gives.disk fun w hw => ?_
  rw [hw, hlist]
  have hall := (Work.Gives.mapM heach).map (List.filterMap id)
  rw [List.filterMap_map] at hall
  exact hall

theorem unreadable?_eq_none_iff (d : Disk) (file : Path) : unreadable? d file = none ↔ docsAt? d file ≠ none := by
  rw [unreadable?, docsAt?]
  cases d.read file with
  | error e => simp
  | ok bytes => cases hdocs : FunctionDoc.ofBytes bytes <;> simp [hdocs, Except.toOption]

-- A directory is read or warned of, never both.
theorem warning?_ne_none_iff (d : Disk) (entry : Path) :
    warning? d entry ≠ none ↔ d.isFolder entry = .ok true ∧ (entryAt d entry).toOption.join = none := by
  rw [warning?, entryAt]
  rcases d.isFolder entry with e | (_ | _)
  · simp
  · simp
  · dsimp only
    cases Package.ofKey? entry.name with
    | none => simp [Except.toOption]
    | some package => simp [Except.toOption, unreadable?_eq_none_iff]

-- A warning about one directory of the root: no package has made it, or its cache file cannot be read.
inductive Warning (cache : Cache) : RawText → Event → Prop
  | stray {name : String} (h : Package.ofKey? name = none) :
      Warning cache (.ofText name) (.strayFolder (cache.root.below name))
  | foreign (f : Foreign) : Warning cache f.name (.strayFolder (f.pathIn cache.root))
  | unreadable {name : String} {p : Package} (h : Package.ofKey? name = some p) (reason : Failure) :
      Warning cache (.ofText name) (.cacheUnreadable (cache.fileFor p) reason)

theorem Warning.logger_level {name : RawText} {event : Event} (h : cache.Warning name event) :
    event.logger = "oxidoc.store" ∧ event.level = Level.warning := by
  cases h <;> exact ⟨rfl, rfl⟩

theorem warning_of_warning? {name : String} {event : Event}
    (h : warning? d (cache.root.below name) = some event) : cache.Warning (.ofText name) event := by
  rw [warning?, name_below] at h
  split at h
  · split at h
    · rename_i hkey
      cases h
      exact .stray hkey
    · rename_i p hkey
      have hfile : (cache.root.below name).child (name ++ ".json") = cache.fileFor p := by
        rw [fileFor, folderFor_eq, (Package.key_of_ofKey? hkey).1]
      rw [hfile, unreadable?] at h
      split at h
      · cases h
        exact .unreadable hkey _
      · split at h
        · cases h
        · cases h
          exact .unreadable hkey _
  · cases h

-- The warnings about a root, each with the name that it is about, in the order of the names.
def warnings (cache : Cache) (d : Disk) (inner : Folder) (foreign : List Foreign) : List (RawText × Event) :=
  (inOrder (inner.names.map cache.root.below) foreign).filterMap fun entry =>
    (listedWarning? cache.root d entry).map fun event => (entry.name, event)

theorem map_snd_warnings (cache : Cache) (d : Disk) (inner : Folder) (foreign : List Foreign) :
    (cache.warnings d inner foreign).map (·.2) =
      (inOrder (inner.names.map cache.root.below) foreign).flatMap fun entry =>
        (listedWarning? cache.root d entry).toList := by
  rw [warnings, List.map_filterMap, ← List.filterMap_eq_flatMap_toList]
  simp [Function.comp_def]

theorem mem_warnings_iff (cache : Cache) (d : Disk) (inner : Folder) (foreign : List Foreign) (name : RawText)
    (event : Event) :
    (name, event) ∈ cache.warnings d inner foreign ↔
      (∃ text ∈ inner.names, name = .ofText text ∧ warning? d (cache.root.below text) = some event) ∨
        ∃ f ∈ foreign, name = f.name ∧ f.isFolder = true ∧ event = .strayFolder (f.pathIn cache.root) := by
  simp only [warnings, List.mem_filterMap, mem_inOrder_iff, Option.map_eq_some_iff, Prod.mk.injEq]
  constructor
  · rintro ⟨_, ⟨path, hpath, rfl⟩ | ⟨f, hf, rfl⟩, found, hfound, rfl, rfl⟩
    · obtain ⟨text, htext, rfl⟩ := List.mem_map.mp hpath
      exact Or.inl ⟨text, htext, by rw [Listed.name, name_below], hfound⟩
    · rw [listedWarning?] at hfound
      split at hfound
      · rename_i hfolder
        exact Or.inr ⟨f, hf, rfl, hfolder, (Option.some.inj hfound).symm⟩
      · cases hfound
  · rintro (⟨text, htext, rfl, hevent⟩ | ⟨f, hf, rfl, hfolder, rfl⟩)
    · refine ⟨.named (cache.root.below text), Or.inl ⟨_, List.mem_map_of_mem htext, rfl⟩, event, hevent, ?_, rfl⟩
      rw [Listed.name, name_below]
    · refine ⟨.foreign f, Or.inr ⟨f, hf, rfl⟩, _, ?_, rfl, rfl⟩
      rw [listedWarning?, if_pos hfolder]

theorem mem_map_fst_warnings_iff (cache : Cache) (d : Disk) (inner : Folder) (foreign : List Foreign) (name : RawText) :
    name ∈ (cache.warnings d inner foreign).map (·.1) ↔
      (∃ text ∈ inner.names, name = .ofText text ∧ warning? d (cache.root.below text) ≠ none) ∨
        ∃ f ∈ foreign, name = f.name ∧ f.isFolder = true := by
  simp only [List.mem_map, Prod.exists, exists_and_right, exists_eq_right, mem_warnings_iff,
    Option.ne_none_iff_exists']
  constructor
  · rintro ⟨event, ⟨text, htext, hname, hevent⟩ | ⟨f, hf, hname, hfolder, _⟩⟩
    · exact Or.inl ⟨text, htext, hname, event, hevent⟩
    · exact Or.inr ⟨f, hf, hname, hfolder⟩
  · rintro (⟨text, htext, hname, event, hevent⟩ | ⟨f, hf, hname, hfolder⟩)
    · exact ⟨event, Or.inl ⟨text, htext, hname, hevent⟩⟩
    · exact ⟨_, Or.inr ⟨f, hf, hname, hfolder, rfl⟩⟩

-- No two entries of a root have the same name.
theorem nodup_inOrder (cache : Cache) (inner : Folder) (hforeign : (foreign.map Foreign.name).Nodup) :
    ((inOrder (inner.names.map cache.root.below) foreign).map Listed.name).Nodup := by
  have hperm : ((inOrder (inner.names.map cache.root.below) foreign).map Listed.name).Perm
      (inner.names.map RawText.ofText ++ foreign.map Foreign.name) := by
    refine ((List.mergeSort_perm _ _).map _).trans (List.Perm.of_eq ?_)
    simp [Function.comp_def, Listed.name, name_below]
  rw [hperm.nodup_iff, List.nodup_append]
  have htexts : (inner.names.map RawText.ofText).Nodup :=
    List.pairwise_map.mpr (inner.nodup_names.imp fun hne heq => hne (RawText.ofText_injective heq))
  refine ⟨htexts, hforeign, ?_⟩
  intro name hname other hother heq
  obtain ⟨text, _, rfl⟩ := List.mem_map.mp hname
  obtain ⟨f, _, rfl⟩ := List.mem_map.mp hother
  exact f.name_ne_ofText text heq.symm

theorem nodup_warnings (cache : Cache) (d : Disk) (inner : Folder) (hforeign : (foreign.map Foreign.name).Nodup) :
    ((cache.warnings d inner foreign).map (·.1)).Nodup := by
  have hnames := nodup_inOrder cache inner hforeign
  rw [List.Nodup, List.pairwise_map] at hnames
  rw [List.Nodup, List.pairwise_map, warnings, List.pairwise_filterMap]
  refine hnames.imp fun {a b} hne x hx y hy => ?_
  obtain ⟨_, _, rfl⟩ := Option.map_eq_some_iff.mp hx
  obtain ⟨_, _, rfl⟩ := Option.map_eq_some_iff.mp hy
  exact hne

-- An entry of the root gives nothing if nothing was read under its name.
theorem join_entryAt_eq_none_iff {all : List (Package × List FunctionDoc)} (hall : cache.contents d = .ok all)
    (name : String) :
    (entryAt d (cache.root.below name)).toOption.join = none ↔ ∀ entry ∈ all, entry.1.key ≠ name := by
  constructor
  · rintro hnone ⟨p, docs⟩ hentry rfl
    have hholds := (mem_contents_iff hall p docs).mp hentry
    have hread := (entryAt_eq_some_iff cache d p.key p docs).mpr ⟨rfl, hholds⟩
    rw [hread] at hnone
    cases hnone
  · intro hother
    rw [Option.eq_none_iff_forall_ne_some]
    rintro ⟨p, docs⟩ hsome
    have hread := (join_toOption_iff _ _).mp hsome
    obtain ⟨rfl, hholds⟩ := (entryAt_eq_some_iff cache d name p docs).mp hread
    exact hother _ ((mem_contents_iff hall p docs).mpr hholds) rfl

-- What is read from a root that holds `inner` and some entries whose names are no texts: the packages whose own
-- files can be read, in the order of their keys, and one warning for every other directory.
structure Account (cache : Cache) (d : Disk) (inner : Folder) (foreign : List Foreign)
    (all : List (Package × List FunctionDoc)) (warned : List (RawText × Event)) : Prop where
  mem_iff : ∀ p docs, (p, docs) ∈ all ↔ p.Named ∧ (∃ sub, inner.get? p.key = some (.folder sub)) ∧
    ∃ bytes, d.read (cache.fileFor p) = .ok bytes ∧ FunctionDoc.ofBytes bytes = .ok docs
  ordered : all.Pairwise fun a b => a.1.key < b.1.key
  once : (warned.map (·.1)).Nodup
  warned_iff : ∀ name, name ∈ warned.map (·.1) ↔
    IsFolder inner foreign name ∧ ∀ entry ∈ all, .ofText entry.1.key ≠ name
  warning : ∀ item ∈ warned, cache.Warning item.1 item.2

theorem Listable.warned_iff (h : cache.Listable d inner) (hfits : cache.Fits inner)
    {all : List (Package × List FunctionDoc)} (hall : cache.contents d = .ok all) (name : RawText) :
    name ∈ (cache.warnings d inner foreign).map (·.1) ↔
      IsFolder inner foreign name ∧ ∀ entry ∈ all, .ofText entry.1.key ≠ name := by
  simp only [mem_map_fst_warnings_iff, warning?_ne_none_iff, join_entryAt_eq_none_iff hall]
  constructor
  · rintro (⟨text, htext, rfl, hfolder, hother⟩ | ⟨f, hf, rfl, hfolder⟩)
    · obtain ⟨sub, hsub⟩ := (h.isFolder_below hfits htext).2.mp hfolder
      exact ⟨Or.inl ⟨text, sub, rfl, hsub⟩, fun entry hentry hkey => hother entry hentry (RawText.ofText_injective hkey)⟩
    · exact ⟨Or.inr ⟨f, hf, rfl, hfolder⟩, fun entry _ hkey => f.name_ne_ofText _ hkey.symm⟩
  · rintro ⟨⟨text, sub, rfl, hsub⟩ | hforeign, hother⟩
    · have htext : text ∈ inner.names := (Folder.mem_names_iff inner text).mpr (by simp [hsub])
      refine Or.inl ⟨text, htext, rfl, (h.isFolder_below hfits htext).2.mpr ⟨sub, hsub⟩, ?_⟩
      exact fun entry hentry hkey => hother entry hentry (by rw [hkey])
    · exact Or.inr hforeign

theorem Listable.account (h : cache.Listable d inner) (hfits : cache.Fits inner)
    (hforeign : (foreign.map Foreign.name).Nodup) {all : List (Package × List FunctionDoc)}
    (hall : cache.contents d = .ok all) : Account cache d inner foreign all (cache.warnings d inner foreign) := by
  refine ⟨fun p docs => ?_, pairwise_contents hall, nodup_warnings cache d inner hforeign, h.warned_iff hfits hall, ?_⟩
  · rw [mem_contents_iff hall]
    constructor
    · intro hholds
      obtain ⟨hnamed, _, _, sub, _, hget, _⟩ := (holds_iff_get? h.entry p docs).mp hholds
      obtain ⟨bytes, hbytes, hdocs⟩ := (docsAt?_eq_some_iff d _ docs).mp hholds.2
      exact ⟨hnamed, ⟨sub, hget⟩, bytes, (Disk.read_eq_ok_iff d _ bytes).mpr hbytes, hdocs⟩
    · rintro ⟨hnamed, _, bytes, hread, hdocs⟩
      refine ⟨hnamed, (docsAt?_eq_some_iff d _ docs).mpr ⟨bytes, ?_, hdocs⟩⟩
      exact (Disk.read_eq_ok_iff d _ bytes).mp hread
  · rintro ⟨name, event⟩ hitem
    rcases (mem_warnings_iff cache d inner foreign name event).mp hitem with
      ⟨text, _, rfl, hevent⟩ | ⟨f, _, rfl, _, rfl⟩
    · exact warning_of_warning? hevent
    · exact .foreign f

theorem Listable.exists_contentsWith_iff (h : cache.Listable d inner) :
    (∃ all, cache.contentsWith foreign d = .ok all) ↔ cache.Readable inner foreign := by
  have hthere := (Disk.hasEntry_eq_true_iff d cache.root).mpr ⟨_, h.entry⟩
  simp only [contentsWith_eq_ok_iff, hthere, forall_const, exists_and_right, h.exists_contents_iff, Readable]

theorem runIn_getAll {w : World} (h : cache.Listable w.disk inner) (hreadable : cache.Readable inner foreign) :
    ∃ all, cache.contents w.disk = .ok all ∧
      (cache.getAll foreign).runIn w = (.ok all, w.tell ((cache.warnings w.disk inner foreign).map (·.2))) := by
  have hrun := gives_getAll h hreadable w rfl
  obtain ⟨_, hread⟩ := reads_getAll_foreign cache foreign w
  have hcontents : cache.contentsWith foreign w.disk = _ := congrArg Prod.fst (hread.symm.trans hrun)
  exact ⟨_, ((contentsWith_eq_ok_iff cache foreign w.disk _).mp hcontents).1, by rw [map_snd_warnings, hrun]⟩

-- Two roots that hold the same for a package give the same for it, and two that hold the same under all
-- names give the same list, whatever order they are listed in.

theorem mem_contents_congr {d' : Disk} {inner' : Folder} {all all' : List (Package × List FunctionDoc)}
    (h : cache.Listable d inner) (h' : cache.Listable d' inner') (hall : cache.contents d = .ok all)
    (hall' : cache.contents d' = .ok all') {p : Package} (hsame : inner'.get? p.key = inner.get? p.key)
    (docs : List FunctionDoc) : (p, docs) ∈ all' ↔ (p, docs) ∈ all := by
  rw [mem_contents_iff hall', mem_contents_iff hall, holds_iff_get? h'.entry, holds_iff_get? h.entry, hsame]

theorem eq_of_mem_iff {all all' : List (Package × List FunctionDoc)}
    (hordered : all.Pairwise fun a b => a.1.key < b.1.key) (hordered' : all'.Pairwise fun a b => a.1.key < b.1.key)
    (hmem : ∀ entry, entry ∈ all' ↔ entry ∈ all) : all' = all :=
  eq_of_pairwise_lt (fun entry : Package × List FunctionDoc => entry.1.key) hordered' hordered hmem

-- A root that can be listed is read exactly if none of the paths in it is too long, and no directory in it looks
-- like a package's but has a name that is no text. Then each package is read from its own entry alone, all other
-- directories are warned of once, and neither what stands beside an entry nor the order of the listing makes a
-- difference.
theorem getAll_account {w : World} (h : cache.Listable w.disk inner) (hforeign : (foreign.map Foreign.name).Nodup) :
    ((∃ all, ((cache.getAll foreign).runIn w).1 = .ok all) ↔ cache.Readable inner foreign) ∧
    (cache.Readable inner foreign → ∃ all warned,
      (cache.getAll foreign).runIn w = (.ok all, { w with
        events := w.events ++ if w.log.lets "oxidoc.store" Level.warning then warned.map (·.2) else [] }) ∧
      Account cache w.disk inner foreign all warned ∧
      ∀ (other : World) (inner' : Folder) (foreign' : List Foreign), cache.Listable other.disk inner' →
        cache.Readable inner' foreign' →
        ∃ all', ((cache.getAll foreign').runIn other).1 = .ok all' ∧
          (∀ p : Package, inner'.get? p.key = inner.get? p.key → ∀ docs, (p, docs) ∈ all' ↔ (p, docs) ∈ all) ∧
          ((∀ name, inner'.get? name = inner.get? name) → all' = all)) := by
  constructor
  · obtain ⟨_, hread⟩ := reads_getAll_foreign cache foreign w
    rw [hread, ← h.exists_contentsWith_iff]
  · intro hreadable
    obtain ⟨all, hall, hrun⟩ := runIn_getAll h hreadable
    have haccount := h.account hreadable.1 hforeign hall
    have hsame : ∀ event ∈ (cache.warnings w.disk inner foreign).map (·.2),
        event.logger = "oxidoc.store" ∧ event.level = Level.warning := by
      intro event hevent
      obtain ⟨item, hitem, rfl⟩ := List.mem_map.mp hevent
      exact (haccount.warning item hitem).logger_level
    refine ⟨all, cache.warnings w.disk inner foreign, ?_, haccount, fun other inner' foreign' h' hreadable' => ?_⟩
    · rw [hrun, World.tell_of_same w hsame]
    · obtain ⟨all', hall', hrun'⟩ := runIn_getAll h' hreadable'
      refine ⟨all', by rw [hrun'], fun p hp => mem_contents_congr h h' hall hall' hp, fun hnames => ?_⟩
      refine eq_of_mem_iff (pairwise_contents hall) (pairwise_contents hall') fun ⟨p, docs⟩ => ?_
      exact mem_contents_congr h h' hall hall' (hnames p.key) docs

-- A root with one package, beside a file, a leftover, a directory of no package, one with no functions, and one
-- whose name is no text.
def litteredCache : Cache := ⟨⟨.here, ["cache"]⟩⟩

def litteredDocs : List FunctionDoc := [⟨["a", "run"], "fn run()", .normal, .plain, .exported, .rust⟩]

def litteredFolder : Folder :=
  .folder "b-1" (.file "b-1.json" [] .empty) (.file "notes" [0xFF] (.folder "stray" .empty
    (.folder "a-1.9" (.file ".a-1.9.json.00000000.tmp" [0x5B]
      (.file "a-1.9.json" (FunctionDoc.toBytes litteredDocs) .empty)) .empty)))

def litteredWorld : World := .ofDisk (.ofFolder (.folder "cache" litteredFolder .empty))

def litteredForeign : Foreign := ⟨[.char 'x', .ofByte 0xFF], true, ⟨_, rfl⟩, by decide⟩

theorem getAll_account_littered :
    litteredCache.Listable litteredWorld.disk litteredFolder ∧ ([litteredForeign].map Foreign.name).Nodup ∧
      litteredCache.Readable litteredFolder [litteredForeign] ∧
      ∃ (all : List (Package × List FunctionDoc)) (warned : List (RawText × Event)),
        ((litteredCache.getAll [litteredForeign]).runIn litteredWorld).1 = .ok all ∧
        ((litteredCache.getAll [litteredForeign]).runIn litteredWorld).2.events = warned.map (·.2) ∧
        (⟨"a", "1.9"⟩, litteredDocs) ∈ all ∧ .ofText "stray" ∈ warned.map (·.1) ∧ .ofText "b-1" ∈ warned.map (·.1) ∧
        litteredForeign.name ∈ warned.map (·.1) := by
  have hnames : litteredFolder.names = ["b-1", "notes", "stray", "a-1.9"] := by decide
  have hlistable : litteredCache.Listable litteredWorld.disk litteredFolder := by
    refine ⟨List.not_mem_nil, rfl, ?_⟩
    rw [hnames]
    decide +kernel
  have hforeign : ([litteredForeign].map Foreign.name).Nodup := by decide
  have hreadable : litteredCache.Readable litteredFolder [litteredForeign] := by
    refine ⟨?_, List.forall_mem_singleton.mpr ⟨by decide +kernel, fun _ => by decide⟩⟩
    rw [Fits, hnames]
    decide +kernel
  obtain ⟨all, warned, hrun, haccount, _⟩ := (getAll_account hlistable hforeign).2 hreadable
  have hread : litteredWorld.disk.read (litteredCache.fileFor ⟨"a", "1.9"⟩) = .ok (FunctionDoc.toBytes litteredDocs) := by
    rw [Disk.read_eq_ok_iff, (by decide +kernel : litteredCache.fileFor ⟨"a", "1.9"⟩ =
      ⟨.here, ["cache", "a-1.9", "a-1.9.json"]⟩)]
    rfl
  have hempty : litteredWorld.disk.read (litteredCache.fileFor ⟨"b", "1"⟩) = .ok [] := by
    rw [(by decide +kernel : litteredCache.fileFor ⟨"b", "1"⟩ = ⟨.here, ["cache", "b-1", "b-1.json"]⟩)]
    rfl
  have hinvalid : FunctionDoc.ofBytes [] = .error [⟨.notJson, []⟩] := by decide +kernel
  refine ⟨hlistable, hforeign, hreadable, all, warned, by rw [hrun], by rw [hrun]; rfl, ?_, ?_, ?_, ?_⟩
  · refine (haccount.mem_iff _ _).mpr ⟨by decide, ?_, _, hread, FunctionDoc.ofBytes_toBytes litteredDocs⟩
    rw [(by decide +kernel : Package.key ⟨"a", "1.9"⟩ = "a-1.9")]
    exact ⟨_, rfl⟩
  · refine (haccount.warned_iff _).mpr ⟨Or.inl ⟨"stray", _, rfl, rfl⟩, fun entry _ hkey => ?_⟩
    have hdash := entry.1.dash_mem_key
    rw [RawText.ofText_injective hkey] at hdash
    revert hdash
    decide
  · refine (haccount.warned_iff _).mpr ⟨Or.inl ⟨"b-1", _, rfl, rfl⟩, fun entry hentry hkey => ?_⟩
    obtain ⟨_, _, bytes, hbytes, hdocs⟩ := (haccount.mem_iff entry.1 entry.2).mp hentry
    have hsame : entry.1.key = Package.key ⟨"b", "1"⟩ :=
      (RawText.ofText_injective hkey).trans (by decide +kernel)
    rw [Package.key_injective hsame, hempty] at hbytes
    rw [← Except.ok.inj hbytes, hinvalid] at hdocs
    cases hdocs
  · refine (haccount.warned_iff _).mpr ⟨Or.inr ⟨_, List.mem_singleton_self _, rfl, rfl⟩, fun entry _ hkey => ?_⟩
    exact litteredForeign.name_ne_ofText _ hkey.symm

end Cache

end CrateDocs
