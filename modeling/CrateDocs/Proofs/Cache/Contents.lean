import CrateDocs.Cache.Basic
import CrateDocs.Proofs.Disk.Locate
import CrateDocs.Proofs.Package.Key
import CrateDocs.Proofs.Result
import CrateDocs.Proofs.Work.Reads

namespace CrateDocs

-- Keys are names for files.

theorem Package.dash_mem_key (p : Package) : '-' ∈ p.key.toList := by
  rw [toList_key]
  simp

theorem isFileName_of_dash {s : String} (hdash : '-' ∈ s.toList)
    (hchars : ∀ c ∈ s.toList, c ≠ '/' ∧ c ≠ '\x00') : isFileName s = true := by
  have hne : s ≠ "" ∧ s ≠ "." ∧ s ≠ ".." := by
    refine ⟨?_, ?_, ?_⟩
    all_goals
      rintro rfl
      simp at hdash
  simpa [isFileName, hne] using hchars

theorem Package.ne_of_mem_key {p : Package} {c : Char} (hc : c ∈ p.key.toList) : c ≠ '/' ∧ c ≠ '\x00' := by
  have hcode := mem_key hc
  constructor
  · rintro rfl
    revert hcode
    decide
  · rintro rfl
    revert hcode
    decide

theorem Package.isFileName_key (p : Package) : isFileName p.key = true :=
  isFileName_of_dash p.dash_mem_key fun _ hc => ne_of_mem_key hc

theorem Package.isFileName_key_json (p : Package) : isFileName (p.key ++ ".json") = true := by
  refine isFileName_of_dash (by simp [p.dash_mem_key]) fun c hc => ?_
  rw [String.toList_append, List.mem_append] at hc
  cases hc with
  | inl hc => exact ne_of_mem_key hc
  | inr hc =>
      simp at hc
      rcases hc with rfl | rfl | rfl | rfl | rfl <;> decide

namespace Cache

theorem folderFor_eq (cache : Cache) (p : Package) : cache.folderFor p = cache.root.below p.key :=
  Path.child_of_isFileName _ p.isFileName_key

theorem fileFor_eq (cache : Cache) (p : Package) :
    cache.fileFor p = (cache.root.below p.key).below (p.key ++ ".json") := by
  rw [fileFor, folderFor_eq]
  exact Path.child_of_isFileName _ p.isFileName_key_json

-- What a cache file holds, if it can be read.
def docsAt? (d : Disk) (file : Path) : Option (List FunctionDoc) :=
  match d.read file with
  | .error _ => none
  | .ok bytes => (FunctionDoc.ofBytes bytes).toOption

-- What one entry of the root holds.
def entryAt (d : Disk) (entry : Path) : Except Failure (Option (Package × List FunctionDoc)) :=
  match d.isFolder entry with
  | .error e => .error (.disk e)
  | .ok false => .ok none
  | .ok true =>
    match Package.ofKey? entry.name with
    | none => .ok none
    | some package => .ok ((docsAt? d (entry.child (entry.name ++ ".json"))).map fun docs => (package, docs))

-- What all the entries of the root hold.
def contents (cache : Cache) (d : Disk) : Except Failure (List (Package × List FunctionDoc)) :=
  match d.hasEntry cache.root with
  | .error e => .error (.disk e)
  | .ok false => .ok []
  | .ok true =>
    match d.list cache.root with
    | .error e => .error (.fault (.cacheNotListed cache.root e))
    | .ok entries => ((sortByName entries).mapM (entryAt d)).map fun found => found.filterMap id

-- What an entry whose name is no text holds, which is never a package.
def foreignAt (root : Path) (f : Foreign) : Except Failure (Option (Package × List FunctionDoc)) :=
  if f.isTooLong root then .error (.disk ⟨.nameTooLong, some (f.pathIn root).text⟩)
  else if !f.isFolder then .ok none
  else
    match Package.ofRawKey f.name with
    | .error e => .error (.unencodable e)
    | .ok _ => .ok none

def listedAt (root : Path) (d : Disk) : Listed → Except Failure (Option (Package × List FunctionDoc))
  | .named path => entryAt d path
  | .foreign f => foreignAt root f

-- The entries of the root in the order that they are read in.
def inOrder (entries : List Path) (foreign : List Foreign) : List Listed :=
  sortListed (entries.map .named ++ foreign.map .foreign)

-- What all the entries of the root hold, with those whose names are no texts.
def contentsWith (cache : Cache) (foreign : List Foreign) (d : Disk) :
    Except Failure (List (Package × List FunctionDoc)) :=
  match d.hasEntry cache.root with
  | .error e => .error (.disk e)
  | .ok false => .ok []
  | .ok true =>
    match d.list cache.root with
    | .error e => .error (.fault (.cacheNotListed cache.root e))
    | .ok entries => ((inOrder entries foreign).mapM (listedAt cache.root d)).map fun found => found.filterMap id

open Work (Reads)

theorem reads_readFile (file : Path) : Reads (readFile file) fun d => .ok (docsAt? d file) := by
  refine Reads.disk (fun d _ => .ok (docsAt? d file)) fun w => ?_
  dsimp only [docsAt?]
  cases w.disk.read file with
  | error e => exact Reads.note_bind _ (Reads.pure none)
  | ok bytes =>
      dsimp only
      cases FunctionDoc.ofBytes bytes with
      | ok docs => exact Reads.pure (some docs)
      | error problems => exact Reads.note_bind _ (Reads.pure none)

theorem reads_readEntry (entry : Path) : Reads (readEntry entry) fun d => entryAt d entry := by
  refine Reads.answer (fun d => d.isFolder entry) (Reads.pure none) ?_
  cases Package.ofKey? entry.name with
  | none => exact Reads.note_bind _ (Reads.pure none)
  | some package =>
      refine ((reads_readFile (entry.child (entry.name ++ ".json"))).bind fun docs? =>
        Reads.pure (docs?.map fun docs => (package, docs))).congr fun d => ?_
      rfl

theorem reads_readForeign (root : Path) (f : Foreign) : Reads (readForeign root f) fun _ => foreignAt root f := by
  rw [readForeign, foreignAt]
  split
  · exact Reads.throw _
  split
  · exact Reads.pure none
  cases Package.ofRawKey f.name with
  | error e => exact Reads.throw _
  | ok found => exact Reads.note_bind _ (Reads.pure none)

theorem reads_readListed (root : Path) (entry : Listed) :
    Reads (readListed root entry) fun d => listedAt root d entry := by
  cases entry with
  | named path => exact reads_readEntry path
  | foreign f => exact reads_readForeign root f

theorem reads_getAll_foreign (cache : Cache) (foreign : List Foreign) :
    Reads (cache.getAll foreign) (cache.contentsWith foreign) := by
  refine Reads.answer (fun d => d.hasEntry cache.root) (Reads.note_bind _ (Reads.pure [])) ?_
  refine Reads.disk (fun d e => match d.list cache.root with
    | .error e => .error (.fault (.cacheNotListed cache.root e))
    | .ok entries => ((inOrder entries foreign).mapM (listedAt cache.root e)).map fun found =>
        found.filterMap id) fun w => ?_
  cases w.disk.list cache.root with
  | error e => exact Reads.fail _
  | ok entries =>
      refine ((Reads.mapM (reads_readListed cache.root) (inOrder entries foreign)).bind fun found =>
        Reads.pure (found.filterMap id)).congr fun d => ?_
      dsimp only
      cases (inOrder entries foreign).mapM (listedAt cache.root d) <;> rfl

-- The order of names that are texts is the order of the texts.
theorem inOrder_nil (entries : List Path) : inOrder entries [] = (sortByName entries).map .named := by
  rw [inOrder, List.map_nil, List.append_nil, sortListed, sortByName, List.map_mergeSort]
  intro a _ b _
  exact (RawText.comesFirst_ofText a.name b.name).symm

theorem contentsWith_nil (cache : Cache) (d : Disk) : cache.contentsWith [] d = cache.contents d := by
  simp only [contentsWith, contents, inOrder_nil, List.mapM_map]
  rfl

theorem reads_getAll (cache : Cache) : Reads cache.getAll cache.contents :=
  (reads_getAll_foreign cache []).congr cache.contentsWith_nil

-- A cache holds some functions for a package if it has a file for it from which they are read back.
def Holds (cache : Cache) (d : Disk) (p : Package) (docs : List FunctionDoc) : Prop :=
  p.Named ∧ docsAt? d (cache.fileFor p) = some docs

-- A cache has an entry of a name in its root.
def HasName (cache : Cache) (d : Disk) (name : String) : Prop :=
  ∃ inner, d.entry cache.root = .ok (.folder inner) ∧ inner.get? name ≠ none

theorem HasName.there {cache : Cache} {d : Disk} {name : String} (h : cache.HasName d name) :
    d.hasEntry cache.root ≠ .ok false := by
  obtain ⟨inner, hinner, _⟩ := h
  rw [(Disk.hasEntry_eq_true_iff d cache.root).mpr ⟨_, hinner⟩]
  nofun

theorem docsAt?_eq_some_iff (d : Disk) (file : Path) (docs : List FunctionDoc) :
    docsAt? d file = some docs ↔
      ∃ bytes, d.entry file = .ok (.file bytes) ∧ FunctionDoc.ofBytes bytes = .ok docs := by
  simp only [← Disk.read_eq_ok_iff, docsAt?]
  cases d.read file with
  | error e => simp
  | ok bytes => cases hdocs : FunctionDoc.ofBytes bytes <;> simp [hdocs, Except.toOption]

theorem Holds.unique {cache : Cache} {d : Disk} {p : Package} {docs other : List FunctionDoc}
    (h : cache.Holds d p docs) (h' : cache.Holds d p other) : docs = other :=
  Option.some.inj (h.2.symm.trans h'.2)

-- The folder of a package that a cache holds functions for is in the root.
theorem Holds.folder {cache : Cache} {d : Disk} {p : Package} {docs : List FunctionDoc}
    (h : cache.Holds d p docs) : ∃ inner, d.entry (cache.folderFor p) = .ok (.folder inner) := by
  obtain ⟨bytes, hentry, _⟩ := (docsAt?_eq_some_iff d _ docs).mp h.2
  rw [fileFor_eq, Disk.entry_below_eq_ok_iff d _ (ne_up_of_isFileName p.isFileName_key_json)] at hentry
  obtain ⟨_, _, inner, hinner, _⟩ := hentry
  rw [folderFor_eq]
  exact ⟨inner, hinner⟩

theorem Holds.hasName {cache : Cache} {d : Disk} {p : Package} {docs : List FunctionDoc}
    (h : cache.Holds d p docs) : cache.HasName d p.key := by
  obtain ⟨inner, hinner⟩ := h.folder
  rw [folderFor_eq, Disk.entry_below_eq_ok_iff d _ (ne_up_of_isFileName p.isFileName_key)] at hinner
  obtain ⟨_, _, root, hroot, hget⟩ := hinner
  exact ⟨root, hroot, by simp [hget]⟩

theorem Holds.askable {cache : Cache} {d : Disk} {p : Package} {docs : List FunctionDoc}
    (h : cache.Holds d p docs) : Disk.Askable cache.root p.key := by
  obtain ⟨inner, hinner⟩ := h.folder
  rw [folderFor_eq, Disk.entry_below_eq_ok_iff d _ (ne_up_of_isFileName p.isFileName_key)] at hinner
  exact Or.inr ⟨(Disk.textRefusal?_eq_none_iff _).mpr hinner.1, hinner.2.1⟩

theorem name_below (p : Path) (name : String) : (p.below name).name = name := by
  simp [Path.below, Path.name]

theorem entryAt_eq_some {d : Disk} {entry : Path} {p : Package} {docs : List FunctionDoc}
    (h : entryAt d entry = .ok (some (p, docs))) :
    p.key = entry.name ∧ p.Named ∧ docsAt? d (entry.child (entry.name ++ ".json")) = some docs := by
  rw [entryAt] at h
  split at h
  · cases h
  · cases h
  · split at h
    · cases h
    · rename_i package hkey
      obtain ⟨found, hfound, heq⟩ := Option.map_eq_some_iff.mp (Except.ok.inj h)
      obtain ⟨rfl, rfl⟩ := Prod.mk.inj heq
      obtain ⟨hname, hnamed⟩ := Package.key_of_ofKey? hkey
      exact ⟨hname, hnamed, hfound⟩

theorem entryAt_eq_some_iff (cache : Cache) (d : Disk) (name : String) (p : Package)
    (docs : List FunctionDoc) :
    entryAt d (cache.root.below name) = .ok (some (p, docs)) ↔ name = p.key ∧ cache.Holds d p docs := by
  constructor
  · intro h
    obtain ⟨hname, hnamed, hdocs⟩ := entryAt_eq_some h
    rw [name_below] at hname hdocs
    refine ⟨hname.symm, hnamed, ?_⟩
    rw [fileFor, folderFor_eq, hname]
    exact hdocs
  · rintro ⟨rfl, h⟩
    have hfolder := h.folder
    rw [folderFor_eq, ← Disk.isFolder_eq_true_iff] at hfolder
    have hdocs := h.2
    rw [fileFor, folderFor_eq] at hdocs
    simp only [entryAt, hfolder, name_below, Package.ofKey?_key p h.1, hdocs, Option.map_some]

-- Paths are put in the order of their names, which is a strict one if no two names are the same.
theorem pairwise_lt_sortByName {paths : List Path} (h : paths.Pairwise fun a b => a.name ≠ b.name) :
    (sortByName paths).Pairwise fun a b => a.name < b.name := by
  have hle : (sortByName paths).Pairwise fun a b => decide (a.name ≤ b.name) = true := by
    refine List.pairwise_mergeSort ?_ ?_ _
    · intro a b c hab hbc
      simp only [decide_eq_true_eq] at hab hbc ⊢
      exact String.le_trans hab hbc
    · intro a b
      simpa using String.le_total a.name b.name
  have hne : (sortByName paths).Pairwise fun a b => a.name ≠ b.name :=
    ((List.mergeSort_perm _ _).pairwise_iff fun h => Ne.symm h).mpr h
  refine (hle.and hne).imp fun {a b} h => ?_
  rw [← String.not_le]
  exact fun hba => h.2 (String.le_antisymm (of_decide_eq_true h.1) hba)

theorem pairwise_name_ne (root : Path) (inner : Folder) :
    (inner.names.map root.below).Pairwise fun a b => a.name ≠ b.name := by
  rw [List.pairwise_map]
  simp only [name_below]
  exact inner.nodup_names

theorem pairwise_sortByName (root : Path) (inner : Folder) :
    (sortByName (inner.names.map root.below)).Pairwise fun a b => a.name < b.name :=
  pairwise_lt_sortByName (pairwise_name_ne root inner)

-- A list in a strict order is told by its members.
theorem eq_of_pairwise_lt {α : Type} (key : α → String) {l l' : List α} (h : l.Pairwise fun a b => key a < key b)
    (h' : l'.Pairwise fun a b => key a < key b) (hmem : ∀ a, a ∈ l ↔ a ∈ l') : l = l' := by
  have hnodup : ∀ {l : List α}, (l.Pairwise fun a b => key a < key b) → l.Nodup := by
    intro l hl
    refine hl.imp fun {a b} hlt heq => ?_
    rw [heq] at hlt
    exact String.lt_irrefl _ hlt
  have hperm := (List.perm_ext_iff_of_nodup (hnodup h) (hnodup h')).mpr hmem
  refine hperm.eq_of_pairwise (fun a b _ _ hab hba => ?_) h h'
  exact absurd hba (String.lt_asymm hab)

theorem filterMap_of_mapM {α β : Type} {each : α → Except Failure (Option β)} {l : List α}
    {found : List (Option β)} (h : l.mapM each = .ok found) :
    found.filterMap id = l.filterMap fun a => (each a).toOption.join := by
  induction l generalizing found with
  | nil =>
      cases h
      rfl
  | cons a l ih =>
      rw [List.mapM_cons] at h
      cases hhead : each a with
      | error failure =>
          rw [hhead] at h
          cases h
      | ok b =>
          cases htail : l.mapM each with
          | error failure =>
              rw [hhead, htail] at h
              cases h
          | ok bs =>
              rw [hhead, htail] at h
              cases h
              have hjoin : (each a).toOption.join = b := by rw [hhead]; rfl
              rw [List.filterMap_cons, List.filterMap_cons, hjoin, ih htail]
              cases b <;> rfl

theorem join_toOption_iff {α : Type} (x : Except Failure (Option α)) (a : α) :
    x.toOption.join = some a ↔ x = .ok (some a) := by
  cases x <;> simp [Except.toOption]

theorem entryAt_isOk_iff (d : Disk) (entry : Path) :
    (∃ found, entryAt d entry = .ok found) ↔ ∃ answer, d.isFolder entry = .ok answer := by
  rw [entryAt]
  rcases d.isFolder entry with e | (_ | _)
  · simp
  · simp
  · cases Package.ofKey? entry.name <;> simp

-- The entries of the root are read if it is missing, or a directory that can be listed, with names
-- that can be asked about.
theorem contents_eq_ok_iff (cache : Cache) (d : Disk) (all : List (Package × List FunctionDoc)) :
    cache.contents d = .ok all ↔
      d.hasEntry cache.root = .ok false ∧ all = [] ∨
        cache.root.text ∉ d.limits.unlistable ∧ ∃ inner, d.entry cache.root = .ok (.folder inner) ∧
          (∀ name, inner.get? name ≠ none → Disk.Askable cache.root name) ∧
          all = (sortByName (inner.names.map cache.root.below)).filterMap fun entry =>
            (entryAt d entry).toOption.join := by
  have hasked : ∀ inner, d.entry cache.root = .ok (.folder inner) →
      ((∃ found, (sortByName (inner.names.map cache.root.below)).mapM (entryAt d) = .ok found) ↔
        ∀ name, inner.get? name ≠ none → Disk.Askable cache.root name) := by
    intro inner hinner
    simp only [Result.mapM_isOk_iff, entryAt_isOk_iff, sortByName, List.mem_mergeSort, List.forall_mem_map,
      Disk.isFolder_below_eq_ok_iff hinner, Folder.mem_names_iff]
  constructor
  · intro h
    rw [contents] at h
    split at h
    · cases h
    · rename_i hmissing
      exact Or.inl ⟨hmissing, (Except.ok.inj h).symm⟩
    · split at h
      · cases h
      · rename_i entries hlist
        obtain ⟨hlistable, inner, hinner, rfl⟩ := (Disk.list_eq_ok_iff d _ entries).mp hlist
        cases hfound : (sortByName (inner.names.map cache.root.below)).mapM (entryAt d) with
        | error failure =>
            rw [hfound] at h
            cases h
        | ok found =>
            rw [hfound] at h
            refine Or.inr ⟨hlistable, inner, hinner, (hasked inner hinner).mp ⟨found, hfound⟩, ?_⟩
            rw [← filterMap_of_mapM hfound]
            exact (Except.ok.inj h).symm
  · rintro (⟨hmissing, rfl⟩ | ⟨hlistable, inner, hinner, hnames, rfl⟩)
    · simp only [contents, hmissing]
    · have hthere := (Disk.hasEntry_eq_true_iff d cache.root).mpr ⟨_, hinner⟩
      have hlist := (Disk.list_eq_ok_iff d cache.root _).mpr ⟨hlistable, inner, hinner, rfl⟩
      obtain ⟨found, hfound⟩ := (hasked inner hinner).mpr hnames
      simp only [contents, hthere, hlist, hfound, Except.map, filterMap_of_mapM hfound]

theorem exists_contents_iff (cache : Cache) (d : Disk) :
    (∃ all, cache.contents d = .ok all) ↔
      d.hasEntry cache.root = .ok false ∨
        cache.root.text ∉ d.limits.unlistable ∧ (∃ inner, d.entry cache.root = .ok (.folder inner)) ∧
          ∀ name, cache.HasName d name → Disk.Askable cache.root name := by
  simp only [contents_eq_ok_iff]
  constructor
  · rintro ⟨all, ⟨hmissing, _⟩ | ⟨hlistable, inner, hinner, hnames, _⟩⟩
    · exact Or.inl hmissing
    · refine Or.inr ⟨hlistable, ⟨inner, hinner⟩, ?_⟩
      rintro name ⟨other, hother, hname⟩
      obtain rfl := Entry.folder.inj (Except.ok.inj (hinner.symm.trans hother))
      exact hnames name hname
  · rintro (hmissing | ⟨hlistable, ⟨inner, hinner⟩, hnames⟩)
    · exact ⟨[], Or.inl ⟨hmissing, rfl⟩⟩
    · exact ⟨_, Or.inr ⟨hlistable, inner, hinner, fun name hname => hnames name ⟨inner, hinner, hname⟩, rfl⟩⟩

theorem mem_contents_iff {cache : Cache} {d : Disk} {all : List (Package × List FunctionDoc)}
    (h : cache.contents d = .ok all) (p : Package) (docs : List FunctionDoc) :
    (p, docs) ∈ all ↔ cache.Holds d p docs := by
  rcases (contents_eq_ok_iff cache d all).mp h with ⟨hmissing, rfl⟩ | ⟨_, inner, hinner, _, rfl⟩
  · constructor
    · intro hmem
      cases hmem
    · intro hholds
      exact absurd hmissing hholds.hasName.there
  · simp only [List.mem_filterMap, join_toOption_iff, sortByName, List.mem_mergeSort, List.mem_map]
    constructor
    · rintro ⟨_, ⟨name, _, rfl⟩, hentry⟩
      exact ((entryAt_eq_some_iff cache d name p docs).mp hentry).2
    · intro hholds
      obtain ⟨root, hroot, hname⟩ := hholds.hasName
      obtain rfl := Entry.folder.inj (Except.ok.inj (hroot.symm.trans hinner))
      refine ⟨_, ⟨p.key, (Folder.mem_names_iff root p.key).mpr hname, rfl⟩, ?_⟩
      exact (entryAt_eq_some_iff cache d p.key p docs).mpr ⟨rfl, hholds⟩

theorem pairwise_contents {cache : Cache} {d : Disk} {all : List (Package × List FunctionDoc)}
    (h : cache.contents d = .ok all) : all.Pairwise fun a b => a.1.key < b.1.key := by
  rcases (contents_eq_ok_iff cache d all).mp h with ⟨_, rfl⟩ | ⟨_, inner, _, _, rfl⟩
  · exact List.Pairwise.nil
  · rw [List.pairwise_filterMap]
    refine (pairwise_sortByName cache.root inner).imp fun {a b} hlt x hx y hy => ?_
    rw [join_toOption_iff] at hx hy
    rwa [(entryAt_eq_some hx).1, (entryAt_eq_some hy).1]

-- Entries whose names are no texts.

-- The path of an entry, if its name is a text.
def Listed.path? : Listed → Option Path
  | named path => some path
  | foreign _ => none

theorem pairwise_inOrder (entries : List Path) (foreign : List Foreign) :
    (inOrder entries foreign).Pairwise fun a b => a.name.comesFirst b.name = true := by
  refine List.pairwise_mergeSort ?_ ?_ _
  · intro a b c hab hbc
    exact RawText.comesFirst_trans hab hbc
  · intro a b
    exact RawText.comesFirst_total a.name b.name

theorem mem_inOrder_iff {entries : List Path} {foreign : List Foreign} {entry : Listed} :
    entry ∈ inOrder entries foreign ↔
      (∃ path ∈ entries, entry = .named path) ∨ ∃ f ∈ foreign, entry = .foreign f := by
  simp only [inOrder, sortListed, List.mem_mergeSort, List.mem_append, List.mem_map, eq_comm]

-- Among other entries those with paths are read in the order that they are read in alone.
theorem filterMap_path?_inOrder {entries : List Path} (h : entries.Pairwise fun a b => a.name ≠ b.name)
    (foreign : List Foreign) : (inOrder entries foreign).filterMap Listed.path? = sortByName entries := by
  have hperm : ((inOrder entries foreign).filterMap Listed.path?).Perm entries := by
    refine ((List.mergeSort_perm _ _).filterMap _).trans (List.Perm.of_eq ?_)
    rw [List.filterMap_append, List.filterMap_map, List.filterMap_map]
    simp [Function.comp_def, Listed.path?]
  have hle : ((inOrder entries foreign).filterMap Listed.path?).Pairwise fun a b => a.name ≤ b.name := by
    rw [List.pairwise_filterMap]
    refine (pairwise_inOrder entries foreign).imp fun {a b} hab path hpath path' hpath' => ?_
    cases a with
    | foreign f => cases hpath
    | named a =>
        cases b with
        | foreign f => cases hpath'
        | named b =>
            obtain rfl := Option.some.inj hpath
            obtain rfl := Option.some.inj hpath'
            rw [Listed.name, Listed.name, RawText.comesFirst_ofText] at hab
            exact of_decide_eq_true hab
  have hne := (hperm.pairwise_iff (R := fun a b : Path => a.name ≠ b.name) fun h => Ne.symm h).mpr h
  have hlt : ((inOrder entries foreign).filterMap Listed.path?).Pairwise fun a b => a.name < b.name := by
    refine (hle.and hne).imp fun {a b} h => ?_
    rw [← String.not_le]
    exact fun hba => h.2 (String.le_antisymm h.1 hba)
  refine eq_of_pairwise_lt (fun path : Path => path.name) hlt (pairwise_lt_sortByName h) fun path => ?_
  rw [hperm.mem_iff, sortByName, List.mem_mergeSort]

-- An entry whose name is no text is passed over: its path is short enough to ask about, and it is no directory that
-- looks like a package's.
def Passes (root : Path) (f : Foreign) : Prop :=
  f.isTooLong root = false ∧ (f.isFolder = true → ¬Package.KeyLike f.name)

theorem foreignAt_eq_ok_iff {root : Path} {f : Foreign} {found : Option (Package × List FunctionDoc)} :
    foreignAt root f = .ok found ↔ found = none ∧ Passes root f := by
  rw [foreignAt, Passes]
  cases f.isTooLong root with
  | true => simp
  | false =>
      cases f.isFolder with
      | false => simp [eq_comm]
      | true =>
          obtain ⟨e, he⟩ := f.notText
          cases hkey : Package.ofRawKey f.name with
          | error e' =>
              have hlike := (Package.ofRawKey_eq_error_iff.mp hkey).1
              simp [hlike]
          | ok found' =>
              have hlike : ¬Package.KeyLike f.name := by
                intro hlike
                rw [Package.ofRawKey_eq_error_iff.mpr ⟨hlike, he⟩] at hkey
                cases hkey
              simp [hlike, eq_comm]

-- Such entries can keep the root from being read, and make no difference to what is read from it.
theorem contentsWith_eq_ok_iff (cache : Cache) (foreign : List Foreign) (d : Disk)
    (all : List (Package × List FunctionDoc)) :
    cache.contentsWith foreign d = .ok all ↔
      cache.contents d = .ok all ∧ (d.hasEntry cache.root = .ok true → ∀ f ∈ foreign, Passes cache.root f) := by
  rw [contentsWith, contents]
  rcases d.hasEntry cache.root with e | (_ | _)
  · simp
  · simp
  cases hlist : d.list cache.root with
  | error e => simp
  | ok entries =>
      obtain ⟨_, inner, _, rfl⟩ := (Disk.list_eq_ok_iff d _ entries).mp hlist
      have hpaths := filterMap_path?_inOrder (pairwise_name_ne cache.root inner) foreign
      have hok : (∃ found, (inOrder (inner.names.map cache.root.below) foreign).mapM (listedAt cache.root d) = .ok found) ↔
          (∃ found, (sortByName (inner.names.map cache.root.below)).mapM (entryAt d) = .ok found) ∧
            ∀ f ∈ foreign, Passes cache.root f := by
        simp only [Result.mapM_isOk_iff, mem_inOrder_iff, sortByName, List.mem_mergeSort]
        constructor
        · intro h
          refine ⟨fun path hpath => h (.named path) (Or.inl ⟨path, hpath, rfl⟩), fun f hf => ?_⟩
          obtain ⟨found, hfound⟩ := h (.foreign f) (Or.inr ⟨f, hf, rfl⟩)
          exact (foreignAt_eq_ok_iff.mp hfound).2
        · rintro ⟨hnamed, hforeign⟩ entry (⟨path, hpath, rfl⟩ | ⟨f, hf, rfl⟩)
          · exact hnamed path hpath
          · exact ⟨none, foreignAt_eq_ok_iff.mpr ⟨rfl, hforeign f hf⟩⟩
      have hjoin : ∀ entry, (listedAt cache.root d entry).toOption.join =
          entry.path?.bind fun path => (entryAt d path).toOption.join := by
        intro entry
        cases entry with
        | named path => rfl
        | foreign f =>
            rw [Listed.path?, Option.bind_none, Option.eq_none_iff_forall_ne_some]
            intro found hfound
            rw [join_toOption_iff] at hfound
            cases (foreignAt_eq_ok_iff.mp hfound).1
      have hsame : ∀ {found plain},
          (inOrder (inner.names.map cache.root.below) foreign).mapM (listedAt cache.root d) = .ok found →
          (sortByName (inner.names.map cache.root.below)).mapM (entryAt d) = .ok plain →
          found.filterMap id = plain.filterMap id := by
        intro found plain hfound hplain
        rw [filterMap_of_mapM hfound, filterMap_of_mapM hplain, ← hpaths, List.filterMap_filterMap]
        simp only [hjoin]
      simp only [Result.map_eq_ok_iff, forall_const]
      constructor
      · rintro ⟨found, hfound, rfl⟩
        obtain ⟨⟨plain, hplain⟩, hpasses⟩ := hok.mp ⟨found, hfound⟩
        exact ⟨⟨plain, hplain, (hsame hfound hplain).symm⟩, hpasses⟩
      · rintro ⟨⟨plain, hplain, rfl⟩, hpasses⟩
        obtain ⟨found, hfound⟩ := hok.mpr ⟨⟨plain, hplain⟩, hpasses⟩
        exact ⟨found, hfound, hsame hfound hplain⟩

end Cache

end CrateDocs
