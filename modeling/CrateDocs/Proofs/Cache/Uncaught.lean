import CrateDocs.Proofs.Cache.Update

namespace CrateDocs

-- A key has at least as many bytes as its name has characters.

theorem length_le_flatMap {α β : Type} {f : α → List β} (hf : ∀ a, f a ≠ []) (l : List α) :
    l.length ≤ (l.flatMap f).length := by
  induction l with
  | nil => exact Nat.le_refl 0
  | cons a l ih =>
      have ha := List.length_pos_iff.mpr (hf a)
      rw [List.flatMap_cons, List.length_append, List.length_cons]
      omega

theorem Utf8.length_le_size (s : String) : s.toList.length ≤ size s :=
  length_le_flatMap (fun _ => String.utf8EncodeChar_ne_nil) s.toList

theorem Percent.encodeByte_ne_nil (b : UInt8) : encodeByte b ≠ [] := by
  rw [encodeByte]
  split <;> exact List.cons_ne_nil _ _

theorem Package.length_name_le_size_key (p : Package) : p.name.toList.length ≤ Utf8.size p.key := by
  calc p.name.toList.length
      ≤ (Utf8.encode p.name).length := Utf8.length_le_size p.name
    _ ≤ p.nameCode.length := by
      rw [nameCode, Percent.encode, String.toList_ofList]
      exact length_le_flatMap Percent.encodeByte_ne_nil _
    _ ≤ p.key.toList.length := by
      rw [toList_key, List.length_append]
      omega
    _ ≤ Utf8.size p.key := Utf8.length_le_size p.key

-- Directories are made from the first that is missing on, and none above it may be missing too often.

-- The last components of a path lead nowhere, more of them than calls can be nested.
def Disk.Unmade (d : Disk) (p : Path) : Prop :=
  ∀ i < d.limits.depth, i < p.parts.length ∧
    d.locate ⟨p.anchor, p.parts.take (p.parts.length - i)⟩ = .error .noEntry

theorem Disk.makeFolder_noEntry_iff (d : Disk) (p : Path) :
    (∃ e, d.makeFolder p = .error e ∧ e.refusal = .noEntry) ↔ d.locate p = .error .noEntry := by
  rw [makeFolder]
  cases d.locate p with
  | error refusal => simp [refuse, bind, Except.bind, Except.mapError]
  | ok spot =>
      cases hfind : d.root.find? spot <;>
        simp [refuse, bind, Except.bind, pure, Except.pure, throw, throwThe, MonadExceptOf.throw, Except.mapError, hfind]

theorem Disk.lt_callsToMakeBack_iff (anchor : Anchor) (back : List String) (d : Disk) (n : Nat) :
    n < callsToMakeBack anchor back d ↔
      ∀ i < n, i < back.length ∧ d.locate ⟨anchor, (back.drop i).reverse⟩ = .error .noEntry := by
  induction back generalizing n with
  | nil =>
      rw [callsToMakeBack, Nat.lt_one_iff]
      constructor
      · rintro rfl i hi
        omega
      · intro h
        cases n with
        | zero => rfl
        | succ n => exact absurd (h 0 (Nat.succ_pos n)).1 (Nat.lt_irrefl 0)
  | cons part above ih =>
      have hfirst := d.makeFolder_noEntry_iff ⟨anchor, (part :: above).reverse⟩
      cases n with
      | zero =>
          refine ⟨fun _ i hi => absurd hi (Nat.not_lt_zero i), fun _ => ?_⟩
          rw [callsToMakeBack]
          split
          · exact Nat.one_pos
          · split <;> exact Nat.succ_pos _
      | succ n =>
          by_cases hmissing : d.locate ⟨anchor, (part :: above).reverse⟩ = .error .noEntry
          · obtain ⟨e, he, hrefusal⟩ := hfirst.mpr hmissing
            rw [callsToMakeBack, he]
            dsimp only
            rw [if_pos hrefusal, Nat.add_lt_add_iff_right, ih]
            constructor
            · intro h i hi
              cases i with
              | zero => exact ⟨Nat.succ_pos _, hmissing⟩
              | succ i =>
                  obtain ⟨hlength, hlocate⟩ := h i (Nat.lt_of_succ_lt_succ hi)
                  exact ⟨Nat.succ_lt_succ hlength, hlocate⟩
            · intro h i hi
              obtain ⟨hlength, hlocate⟩ := h (i + 1) (Nat.succ_lt_succ hi)
              exact ⟨Nat.lt_of_succ_lt_succ hlength, hlocate⟩
          · have hone : callsToMakeBack anchor (part :: above) d = 1 := by
              rw [callsToMakeBack]
              split
              · rfl
              · rename_i e he
                rw [if_neg fun hrefusal => hmissing (hfirst.mp ⟨e, he, hrefusal⟩)]
            rw [hone]
            refine ⟨fun h => by omega, fun h => absurd (h 0 (Nat.succ_pos n)).2 hmissing⟩

theorem Disk.unmade_iff (d : Disk) (p : Path) : d.Unmade p ↔ d.limits.depth < d.callsToMake p := by
  rw [callsToMake, lt_callsToMakeBack_iff]
  simp only [Unmade, List.length_reverse, List.drop_reverse, List.reverse_reverse]

-- Packages and records with raw texts.

theorem RawPackage.toPackage_eq_ok_iff {package : RawPackage} {p : Package} :
    package.toPackage = .ok p ↔ package = .ofPackage p := by
  obtain ⟨name, version⟩ := package
  obtain ⟨pname, pversion⟩ := p
  rw [toPackage, ofPackage, RawPackage.mk.injEq, ← RawText.toText_eq_ok_iff, ← RawText.toText_eq_ok_iff]
  cases name.toText with
  | error e => simp [bind, Except.bind]
  | ok s => cases version.toText <;> simp [bind, Except.bind, pure, Except.pure]

theorem RawPackage.toPackage_eq_error_iff {package : RawPackage} {e : Unencodable} :
    package.toPackage = .error e ↔ (package.name ++ package.version : RawText).FirstHalf e := by
  rw [← RawText.toText_eq_error_iff, RawText.toText_append_eq_error_iff, toPackage]
  cases package.name.toText with
  | error e' => simp [bind, Except.bind]
  | ok s => cases package.version.toText <;> simp [bind, Except.bind, pure, Except.pure]

-- All that is written of a record, but for its tags.
def RawDoc.units (doc : RawDoc) : RawText :=
  doc.path.flatten ++ doc.signature

theorem RawDoc.toDoc_eq_error_iff {doc : RawDoc} {e : Unencodable} :
    doc.toDoc = .error e ↔ doc.units.toText = .error e := by
  simp only [units, RawText.toText_append_eq_error_iff, ne_eq, ← RawText.mapM_toText_eq_error_iff, toDoc]
  cases doc.path.mapM RawText.toText with
  | error e' => simp [bind, Except.bind]
  | ok path => cases doc.signature.toText <;> simp [bind, Except.bind, pure, Except.pure]

theorem RawDoc.toDoc_eq_ok_iff {doc : RawDoc} {found : FunctionDoc} : doc.toDoc = .ok found ↔ doc = .ofDoc found := by
  have hpath : ∀ paths : List String, doc.path.mapM RawText.toText = .ok paths ↔ doc.path = paths.map .ofText :=
    fun paths => Result.mapM_eq_ok_iff_map fun _ _ => RawText.toText_eq_ok_iff
  obtain ⟨path, signature, unsafety, constness, visibility, abi⟩ := doc
  obtain ⟨paths, text, unsafety', constness', visibility', abi'⟩ := found
  dsimp only at hpath
  rw [toDoc, ofDoc, RawDoc.mk.injEq, ← hpath, ← RawText.toText_eq_ok_iff]
  dsimp only
  cases path.mapM RawText.toText with
  | error e => simp [bind, Except.bind]
  | ok found => cases signature.toText <;> simp [bind, Except.bind, pure, Except.pure]

theorem RawDoc.mapM_toDoc_eq_ok_iff {docs : List RawDoc} {found : List FunctionDoc} :
    docs.mapM toDoc = .ok found ↔ docs = found.map ofDoc :=
  Result.mapM_eq_ok_iff_map fun _ _ => toDoc_eq_ok_iff

theorem RawDoc.mapM_toDoc_eq_error_iff {docs : List RawDoc} {e : Unencodable} :
    docs.mapM toDoc = .error e ↔ RawText.FirstHalf (docs.flatMap units) e := by
  rw [← RawText.toText_eq_error_iff]
  induction docs with
  | nil => simp [RawText.toText, pure, Except.pure, Except.map]
  | cons doc docs ih =>
      simp only [List.mapM_cons, List.flatMap_cons, RawText.toText_append_eq_error_iff, ne_eq, ← toDoc_eq_error_iff, ← ih]
      cases doc.toDoc with
      | error e' => simp [bind, Except.bind]
      | ok found => cases docs.mapM toDoc <;> simp [bind, Except.bind, pure, Except.pure]

namespace Cache

-- What can be asked of a cache, with the entries of the root whose names are no texts.
inductive Operation
  | put (package : RawPackage) (docs : List RawDoc)
  | getAll (foreign : List Foreign)
  | remove (package : RawPackage)

-- An operation ends with a failure.
def Operation.Fails (cache : Cache) (w : World) (failure : Failure) : Operation → Prop
  | .put package docs => ((cache.putRaw package docs).runIn w).1 = .error failure
  | .getAll foreign => ((cache.getAll foreign).runIn w).1 = .error failure
  | .remove package => ((cache.removeRaw package).runIn w).1 = .error failure

-- A failure that is the operation's own fault and says what it was about.
def Operation.Owns (cache : Cache) (failure : Failure) : Operation → Prop
  | .put package _ =>
    ∃ p trouble, package = .ofPackage p ∧ failure = .fault (.cacheNotWritten (cache.fileFor p) trouble)
  | .getAll _ => ∃ e, failure = .fault (.cacheNotListed cache.root e)
  | .remove package => ∃ p e, package = .ofPackage p ∧ failure = .fault (.cacheNotRemoved (cache.folderFor p) e)

-- An entry of the root that ends the reading: it cannot be asked about, or it is a directory that looks like a
-- package's though its name is no text.
inductive Halts (root : Path) (d : Disk) : Listed → Failure → Prop
  | named {path : Path} (hlong : d.entry path = .error .nameTooLong) :
      Halts root d (.named path) (.disk ⟨.nameTooLong, some path.text⟩)
  | foreign {f : Foreign} (hlong : f.isTooLong root = true) :
      Halts root d (.foreign f) (.disk ⟨.nameTooLong, some (f.pathIn root).text⟩)
  | key {f : Foreign} {e : Unencodable} (hshort : f.isTooLong root = false) (hfolder : f.isFolder = true)
      (hlike : Package.KeyLike f.name) (hhalf : f.name.FirstHalf e) : Halts root d (.foreign f) (.unencodable e)

-- The failures that an operation lets through. Texts that cannot be encoded are met before any failure is dealt with.
-- So are the questions whether something is there, which a path that is too long answers neither way. A root with a
-- zero byte is no path at all, and neither making directories nor taking them away gets below a certain depth.
inductive Uncaught (cache : Cache) (d : Disk) : Operation → Failure → Prop
  | name {package : RawPackage} {docs : List RawDoc} {e : Unencodable}
      (hhalf : (package.name ++ package.version : RawText).FirstHalf e) :
      Uncaught cache d (.put package docs) (.unencodable e)
  | record {p : Package} {docs : List RawDoc} {e : Unencodable} (hhalf : RawText.FirstHalf (docs.flatMap RawDoc.units) e) :
      Uncaught cache d (.put (.ofPackage p) docs) (.unserializable e)
  | root {p : Package} {docs : List FunctionDoc} (hmade : ¬d.Unmade (cache.folderFor p))
      (hzero : '\x00' ∈ cache.root.text.toList) :
      Uncaught cache d (.put (.ofPackage p) (docs.map .ofDoc)) (.disk ⟨.zeroByte, some (cache.folderFor p).text⟩)
  | unmade {p : Package} {docs : List FunctionDoc} (hunmade : d.Unmade (cache.folderFor p)) :
      Uncaught cache d (.put (.ofPackage p) (docs.map .ofDoc)) .tooDeep
  | list {foreign : List Foreign} (hlong : d.entry cache.root = .error .nameTooLong) :
      Uncaught cache d (.getAll foreign) (.disk ⟨.nameTooLong, some cache.root.text⟩)
  | entry {foreign : List Foreign} {entries : List Path} {entry : Listed} {failure : Failure}
      (hentries : d.list cache.root = .ok entries)
      (hfirst : Result.First (fun entry => ∃ failure, Halts cache.root d entry failure) (inOrder entries foreign) entry)
      (hhalts : Halts cache.root d entry failure) : Uncaught cache d (.getAll foreign) failure
  | removed {package : RawPackage} {e : Unencodable}
      (hhalf : (package.name ++ package.version : RawText).FirstHalf e) :
      Uncaught cache d (.remove package) (.unencodable e)
  | folder {p : Package} (hlong : d.entry (cache.folderFor p) = .error .nameTooLong) :
      Uncaught cache d (.remove (.ofPackage p)) (.disk ⟨.nameTooLong, some (cache.folderFor p).text⟩)
  | nested {p : Package} {inner : Folder} (hinner : d.entry (cache.folderFor p) = .ok (.folder inner))
      (hdeep : d.limits.depth < inner.height) : Uncaught cache d (.remove (.ofPackage p)) .tooDeep

variable {cache : Cache} {w : World} {package : RawPackage} {docs : List RawDoc} {foreign : List Foreign}
  {failure : Failure}

-- Storing.

theorem put_fails_iff {p : Package} {docs : List FunctionDoc} :
    ((cache.put p docs).runIn w).1 = .error failure ↔
      '\x00' ∈ cache.root.text.toList ∧ failure = .disk ⟨.zeroByte, some (cache.folderFor p).text⟩ ∨
        '\x00' ∉ cache.root.text.toList ∧
          ∃ trouble left, w.disk.replaceFileBelow (cache.fileFor p) (FunctionDoc.toBytes docs) = (.error trouble, left) ∧
            failure = .fault (.cacheNotWritten (cache.fileFor p) trouble) := by
  obtain ⟨events, hrun⟩ := runIn_put cache p docs w
  rw [hrun]
  by_cases hzero : '\x00' ∈ cache.root.text.toList
  · rw [replaceFileBelow_fileFor_zero hzero]
    simp [hzero, DiskTrouble.first, DiskError.fromSystem, eq_comm]
  · simp only [hzero, false_and, not_false_eq_true, true_and, false_or]
    rcases hput : w.disk.replaceFileBelow (cache.fileFor p) (FunctionDoc.toBytes docs) with ⟨trouble | ⟨⟩, left⟩
    · simp [fromSystem_of_replaceFileBelow hzero hput, eq_comm]
    · simp

theorem runIn_putRaw (cache : Cache) (package : RawPackage) (docs : List RawDoc) (w : World) :
    (cache.putRaw package docs).runIn w =
      match package.toPackage with
      | .error e => (.error (.unencodable e), w)
      | .ok p =>
        match docs.mapM RawDoc.toDoc with
        | .error e => (.error (.unserializable e), w)
        | .ok found =>
          if w.disk.limits.depth < w.disk.callsToMake (cache.folderFor p) then (.error .tooDeep, w)
          else (cache.put p found).runIn w := by
  rw [putRaw]
  cases package.toPackage with
  | error e => rfl
  | ok p =>
      dsimp only
      cases docs.mapM RawDoc.toDoc with
      | error e => rfl
      | ok found =>
          dsimp only
          rw [Work.runIn_get_bind]
          split <;> rfl

theorem putRaw_fails_iff :
    Operation.Fails cache w failure (.put package docs) ↔
      (∃ p found trouble left, package = .ofPackage p ∧ docs = found.map .ofDoc ∧
        '\x00' ∉ cache.root.text.toList ∧ ¬w.disk.Unmade (cache.folderFor p) ∧
        w.disk.replaceFileBelow (cache.fileFor p) (FunctionDoc.toBytes found) = (.error trouble, left) ∧
        failure = .fault (.cacheNotWritten (cache.fileFor p) trouble)) ∨
        Uncaught cache w.disk (.put package docs) failure := by
  rw [Operation.Fails, runIn_putRaw]
  constructor
  · intro h
    split at h
    · rename_i e he
      cases h
      exact Or.inr (.name (RawPackage.toPackage_eq_error_iff.mp he))
    · rename_i p hp
      obtain rfl := RawPackage.toPackage_eq_ok_iff.mp hp
      split at h
      · rename_i e he
        cases h
        exact Or.inr (.record (RawDoc.mapM_toDoc_eq_error_iff.mp he))
      · rename_i found hfound
        obtain rfl := RawDoc.mapM_toDoc_eq_ok_iff.mp hfound
        split at h
        · rename_i hunmade
          cases h
          exact Or.inr (.unmade ((Disk.unmade_iff _ _).mpr hunmade))
        · rename_i hmade
          rw [← Disk.unmade_iff] at hmade
          rcases put_fails_iff.mp h with ⟨hzero, rfl⟩ | ⟨hzero, trouble, left, hput, hfailure⟩
          · exact Or.inr (.root hmade hzero)
          · exact Or.inl ⟨p, found, trouble, left, rfl, rfl, hzero, hmade, hput, hfailure⟩
  · have hname := fun p => (RawPackage.toPackage_eq_ok_iff (p := p)).mpr rfl
    have hrecords : ∀ found : List FunctionDoc, (found.map RawDoc.ofDoc).mapM RawDoc.toDoc = .ok found :=
      fun found => RawDoc.mapM_toDoc_eq_ok_iff.mpr rfl
    rintro (⟨p, found, trouble, left, rfl, rfl, hzero, hmade, hput, hfailure⟩ | h)
    · rw [Disk.unmade_iff] at hmade
      simp only [hname, hrecords, if_neg hmade]
      exact put_fails_iff.mpr (Or.inr ⟨hzero, trouble, left, hput, hfailure⟩)
    · cases h with
      | name hhalf => simp only [RawPackage.toPackage_eq_error_iff.mpr hhalf]
      | record hhalf => simp only [hname, RawDoc.mapM_toDoc_eq_error_iff.mpr hhalf]
      | root hmade hzero =>
          rw [Disk.unmade_iff] at hmade
          simp only [hname, hrecords, if_neg hmade]
          exact put_fails_iff.mpr (Or.inl ⟨hzero, rfl⟩)
      | unmade hunmade =>
          rw [Disk.unmade_iff] at hunmade
          simp only [hname, hrecords, if_pos hunmade]

-- Reading.

theorem entryAt_eq_error_iff {d : Disk} {entry : Path} :
    entryAt d entry = .error failure ↔
      d.entry entry = .error .nameTooLong ∧ failure = .disk ⟨.nameTooLong, some entry.text⟩ := by
  have hlong : d.entry entry = .error .nameTooLong ↔ d.isFolder entry = .error ⟨.nameTooLong, some entry.text⟩ := by
    simp [Disk.isFolder_eq_error_iff]
  rw [entryAt, hlong]
  rcases hfolder : d.isFolder entry with e | (_ | _)
  · obtain ⟨_, rfl⟩ := (Disk.isFolder_eq_error_iff d entry e).mp hfolder
    simp [eq_comm]
  · simp
  · dsimp only
    split <;> simp

theorem foreignAt_eq_error_iff {d : Disk} {root : Path} {f : Foreign} :
    foreignAt root f = .error failure ↔ Halts root d (.foreign f) failure := by
  rw [foreignAt]
  constructor
  · intro h
    split at h
    · rename_i hlong
      cases h
      exact .foreign hlong
    · rename_i hshort
      split at h
      · cases h
      · rename_i hfolder
        split at h
        · rename_i e he
          obtain ⟨hlike, hhalf⟩ := Package.ofRawKey_eq_error_iff.mp he
          cases h
          exact .key (by simpa using hshort) (by simpa using hfolder) hlike (RawText.toText_eq_error_iff.mp hhalf)
        · cases h
  · intro h
    cases h with
    | foreign hlong => rw [if_pos hlong]
    | key hshort hfolder hlike hhalf =>
        have he := Package.ofRawKey_eq_error_iff.mpr ⟨hlike, RawText.toText_eq_error_iff.mpr hhalf⟩
        simp [hshort, hfolder, he]

theorem eq_of_halts_named {root path : Path} {d : Disk} (h : Halts root d (.named path) failure) :
    failure = .disk ⟨.nameTooLong, some path.text⟩ := by
  cases h
  rfl

theorem exists_halts_foreign_iff {root : Path} {d : Disk} {f : Foreign} :
    (∃ failure, Halts root d (.foreign f) failure) ↔ ¬Passes root f := by
  simp only [← foreignAt_eq_error_iff]
  cases hfound : foreignAt root f with
  | ok found => simp [(foreignAt_eq_ok_iff.mp hfound).2]
  | error failure =>
      simp only [Except.error.injEq, exists_eq', true_iff]
      intro hpasses
      rw [foreignAt_eq_ok_iff.mpr ⟨rfl, hpasses⟩] at hfound
      cases hfound

theorem listedAt_eq_error_iff {d : Disk} {root : Path} {entry : Listed} :
    listedAt root d entry = .error failure ↔ Halts root d entry failure := by
  cases entry with
  | foreign f => exact foreignAt_eq_error_iff
  | named path =>
      rw [listedAt, entryAt_eq_error_iff]
      constructor
      · rintro ⟨hlong, rfl⟩
        exact .named hlong
      · rintro ⟨hlong⟩
        exact ⟨hlong, rfl⟩

theorem contentsWith_eq_error_iff {d : Disk} :
    cache.contentsWith foreign d = .error failure ↔
      (∃ e, d.hasEntry cache.root = .ok true ∧ d.list cache.root = .error e ∧
        failure = .fault (.cacheNotListed cache.root e)) ∨
        Uncaught cache d (.getAll foreign) failure := by
  constructor
  · intro h
    rw [contentsWith] at h
    split at h
    · rename_i e hthere
      cases h
      obtain ⟨hlong, rfl⟩ := (Disk.hasEntry_eq_error_iff d _ e).mp hthere
      exact Or.inr (.list hlong)
    · cases h
    · rename_i hthere
      split at h
      · rename_i e hlist
        cases h
        exact Or.inl ⟨e, hthere, hlist, rfl⟩
      · rename_i entries hlist
        simp only [Result.map_eq_error_iff, Result.mapM_eq_error_iff, listedAt_eq_error_iff] at h
        obtain ⟨entry, hfirst, hhalts⟩ := h
        exact Or.inr (.entry hlist hfirst hhalts)
  · rintro (⟨e, hthere, hlist, rfl⟩ | h)
    · simp only [contentsWith, hthere, hlist]
    · cases h with
      | list hlong =>
          have hthere := (Disk.hasEntry_eq_error_iff d cache.root _).mpr ⟨hlong, rfl⟩
          simp only [contentsWith, hthere]
      | entry hlist hfirst hhalts =>
          obtain ⟨_, inner, hinner, _⟩ := (Disk.list_eq_ok_iff d _ _).mp hlist
          have hthere := (Disk.hasEntry_eq_true_iff d cache.root).mpr ⟨_, hinner⟩
          simp only [contentsWith, hthere, hlist, Result.map_eq_error_iff, Result.mapM_eq_error_iff,
            listedAt_eq_error_iff]
          exact ⟨_, hfirst, hhalts⟩

theorem getAll_fails_iff :
    Operation.Fails cache w failure (.getAll foreign) ↔ cache.contentsWith foreign w.disk = .error failure := by
  obtain ⟨events, hrun⟩ := reads_getAll_foreign cache foreign w
  rw [Operation.Fails, hrun]

-- Taking away.

theorem runIn_removeRaw (cache : Cache) (package : RawPackage) (w : World) :
    (cache.removeRaw package).runIn w =
      match package.toPackage with
      | .error e => (.error (.unencodable e), w)
      | .ok p => (cache.remove p).runIn w := by
  rw [removeRaw]
  cases package.toPackage <;> rfl

theorem removeRaw_fails_iff :
    Operation.Fails cache w failure (.remove package) ↔
      (∃ p e, package = .ofPackage p ∧ w.disk.hasEntry (cache.folderFor p) = .ok true ∧
        w.disk.removeFolder (cache.folderFor p) = .error e ∧
        failure = .fault (.cacheNotRemoved (cache.folderFor p) e)) ∨
        Uncaught cache w.disk (.remove package) failure := by
  rw [Operation.Fails, runIn_removeRaw]
  constructor
  · intro h
    split at h
    · rename_i e he
      cases h
      exact Or.inr (.removed (RawPackage.toPackage_eq_error_iff.mp he))
    · rename_i p hp
      obtain rfl := RawPackage.toPackage_eq_ok_iff.mp hp
      obtain ⟨events, hrun⟩ := runIn_remove cache p w
      rw [hrun] at h
      rcases hthere : w.disk.hasEntry (cache.folderFor p) with e | (_ | _)
      · rw [hthere] at h
        cases h
        obtain ⟨hlong, rfl⟩ := (Disk.hasEntry_eq_error_iff _ _ e).mp hthere
        exact Or.inr (.folder hlong)
      · rw [hthere] at h
        cases h
      · rw [hthere] at h
        rcases hdone : w.disk.removeFolder (cache.folderFor p) with e | ⟨_ | _, left⟩
        · rw [hdone] at h
          cases h
          exact Or.inl ⟨p, e, rfl, hthere, hdone, rfl⟩
        · rw [hdone] at h
          cases h
          obtain ⟨spot, inner, hlocate, hfind, hgone, _⟩ := (Disk.removeFolder_eq_ok_iff _ _ _ _).mp hdone
          refine Or.inr (.nested ((Disk.entry_eq_ok_iff _ _ _).mpr ⟨spot, hlocate, hfind⟩) ?_)
          rwa [eq_comm, decide_eq_false_iff_not, Folder.uncleared_eq_empty_iff, Nat.not_le] at hgone
        · rw [hdone] at h
          cases h
  · have hname := fun p => (RawPackage.toPackage_eq_ok_iff (p := p)).mpr rfl
    rintro (⟨p, e, rfl, hthere, hdone, rfl⟩ | h)
    · obtain ⟨events, hrun⟩ := runIn_remove cache p w
      simp only [hname, hrun, hthere, hdone]
    · cases h with
      | removed hhalf => simp only [RawPackage.toPackage_eq_error_iff.mpr hhalf]
      | @folder p hlong =>
          obtain ⟨events, hrun⟩ := runIn_remove cache p w
          have hthere := (Disk.hasEntry_eq_error_iff _ _ _).mpr ⟨hlong, rfl⟩
          simp only [hname, hrun, hthere]
      | @nested p inner hinner hdeep =>
          obtain ⟨events, hrun⟩ := runIn_remove cache p w
          have hthere := (Disk.hasEntry_eq_true_iff _ _).mpr ⟨_, hinner⟩
          obtain ⟨spot, hlocate, hfind⟩ := (Disk.entry_eq_ok_iff _ _ _).mp hinner
          have hstays : false = decide (inner.uncleared w.disk.limits.depth = .empty) := by
            rw [eq_comm, decide_eq_false_iff_not, Folder.uncleared_eq_empty_iff]
            omega
          have hdone := (Disk.removeFolder_eq_ok_iff _ _ _ _).mpr ⟨spot, inner, hlocate, hfind, hstays, rfl⟩
          simp only [hname, hrun, hthere, hdone]
          rfl

theorem tooLong_of_remove_fails {p : Package} {e : DiskError}
    (h : Operation.Fails cache w (.disk e) (.remove (.ofPackage p))) :
    w.disk.entry (cache.folderFor p) = .error .nameTooLong := by
  rw [Operation.Fails, runIn_removeRaw, RawPackage.toPackage_eq_ok_iff.mpr rfl] at h
  obtain ⟨events, hrun⟩ := runIn_remove cache p w
  dsimp only at h
  rw [hrun] at h
  rcases hthere : w.disk.hasEntry (cache.folderFor p) with e' | (_ | _)
  · exact ((Disk.hasEntry_eq_error_iff _ _ e').mp hthere).1
  · rw [hthere] at h
    cases h
  · rw [hthere] at h
    rcases hdone : w.disk.removeFolder (cache.folderFor p) with e' | ⟨_ | _, left⟩ <;> rw [hdone] at h <;> cases h

-- What each operation can fail with, taken together.

theorem Operation.Fails.owns_or_uncaught {operation : Operation} (h : operation.Fails cache w failure) :
    operation.Owns cache failure ∨ Uncaught cache w.disk operation failure := by
  cases operation with
  | put package docs =>
      exact (putRaw_fails_iff.mp h).imp_left fun ⟨p, _, trouble, _, hp, _, _, _, _, hfailure⟩ => ⟨p, trouble, hp, hfailure⟩
  | getAll foreign =>
      rw [getAll_fails_iff, contentsWith_eq_error_iff] at h
      exact h.imp_left fun ⟨e, _, _, hfailure⟩ => ⟨e, hfailure⟩
  | remove package =>
      exact (removeRaw_fails_iff.mp h).imp_left fun ⟨p, e, hp, _, _, hfailure⟩ => ⟨p, e, hp, hfailure⟩

theorem Uncaught.fails {operation : Operation} (h : Uncaught cache w.disk operation failure) :
    operation.Fails cache w failure := by
  cases operation with
  | put package docs => exact putRaw_fails_iff.mpr (Or.inr h)
  | getAll foreign => exact getAll_fails_iff.mpr (contentsWith_eq_error_iff.mpr (Or.inr h))
  | remove package => exact removeRaw_fails_iff.mpr (Or.inr h)

-- A name below a directory that is there.
theorem entry_below_tooLong_iff {d : Disk} {p : Path} {inner : Folder} (h : d.entry p = .ok (.folder inner))
    {name : String} (hname : '\x00' ∉ name.toList) :
    d.entry (p.below name) = .error .nameTooLong ↔
      Disk.nameLimit < Utf8.size name ∨ Disk.pathLimit ≤ Utf8.size (p.below name).text := by
  have hzero : '\x00' ∉ (p.below name).text.toList := by
    obtain ⟨spot, hlocate, _⟩ := (Disk.entry_eq_ok_iff d p _).mp h
    rw [Path.zero_mem_text_below, not_or]
    exact ⟨((Disk.locate_eq_ok_iff d p spot).mp hlocate).1.1, hname⟩
  have hasked : d.entry (p.below name) = .error .nameTooLong ↔ ¬Disk.Askable p name := by
    rw [← Disk.isFolder_below_eq_ok_iff h name]
    cases hfolder : d.isFolder (p.below name) with
    | error e => simp [((Disk.isFolder_eq_error_iff d _ e).mp hfolder).1]
    | ok answer =>
        have hfits : d.entry (p.below name) ≠ .error .nameTooLong := by
          intro hlong
          rw [(Disk.isFolder_eq_error_iff d _ _).mpr ⟨hlong, rfl⟩] at hfolder
          cases hfolder
        simp [hfits]
  have htext : Disk.textRefusal? (p.below name) ≠ some .zeroByte := by
    simp only [Disk.textRefusal?, List.contains_iff_mem, hzero, if_false]
    split <;> nofun
  rw [hasked, Disk.Askable, Disk.textRefusal?_eq_none_iff, Path.Fitting]
  simp only [htext, hzero, false_or, not_false_eq_true, true_and, not_and_or, Nat.not_lt, Nat.not_le]
  exact or_comm

-- Every operation ends well, with a fault of its own, or with a failure that nothing deals with, and it ends with one
-- of the last exactly if that is listed for it. For a cache that is there, asking for a package's directory to be taken
-- away ends so exactly if its key, or the path that it makes, is too long.
theorem operations_fail (cache : Cache) (operation : Operation) (w : World) :
    (∀ failure, operation.Fails cache w failure →
      operation.Owns cache failure ∨ Uncaught cache w.disk operation failure) ∧
      (∀ failure, Uncaught cache w.disk operation failure → operation.Fails cache w failure) ∧
      ∀ p inner, operation = .remove (.ofPackage p) → w.disk.entry cache.root = .ok (.folder inner) →
        ((∃ e, operation.Fails cache w (.disk e)) ↔
          Disk.nameLimit < Utf8.size p.key ∨ Disk.pathLimit ≤ Utf8.size (cache.folderFor p).text) := by
  refine ⟨fun failure h => h.owns_or_uncaught, fun failure h => h.fails, ?_⟩
  rintro p inner rfl hroot
  rw [folderFor_eq, ← entry_below_tooLong_iff hroot (zero_notMem_of_isFileName p.isFileName_key), ← folderFor_eq]
  constructor
  · rintro ⟨e, h⟩
    exact tooLong_of_remove_fails h
  · exact fun hlong => ⟨_, Uncaught.fails (.folder hlong)⟩

-- A cache that is there, with nothing in it, and a package with a long name.
def bareWorld : World := .ofDisk (.ofFolder (.folder "cache" .empty .empty))

def bareCache : Cache := ⟨⟨.here, ["cache"]⟩⟩

def longPackage : Package := ⟨String.ofList (List.replicate 300 'n'), "1"⟩

theorem operations_fail_longPackage :
    (∃ e, (Operation.remove (.ofPackage longPackage)).Fails bareCache bareWorld (.disk e)) ∧
      ∀ failure, (Operation.remove (.ofPackage longPackage)).Fails bareCache bareWorld failure →
        (Operation.remove (.ofPackage longPackage)).Owns bareCache failure ∨
          Uncaught bareCache bareWorld.disk (.remove (.ofPackage longPackage)) failure := by
  obtain ⟨hends, -, hremove⟩ := operations_fail bareCache (.remove (.ofPackage longPackage)) bareWorld
  have hroot : bareWorld.disk.entry bareCache.root = .ok (.folder .empty) := by decide
  have hlong : Disk.nameLimit < Utf8.size longPackage.key := by
    have hsize := longPackage.length_name_le_size_key
    have hname : longPackage.name = String.ofList (List.replicate 300 'n') := rfl
    rw [hname, String.toList_ofList, List.length_replicate] at hsize
    exact Nat.lt_of_lt_of_le (by decide) hsize
  exact ⟨(hremove longPackage .empty rfl hroot).mpr (Or.inl hlong), hends⟩

end Cache

end CrateDocs
