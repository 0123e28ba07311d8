import CrateDocs.Proofs.Cache.Contents
import CrateDocs.Proofs.Disk.Replace
import CrateDocs.Proofs.FunctionDoc.RoundTrip

namespace CrateDocs

-- Whether a cache itself was at fault.
def Failure.ofCache : Failure → Bool
  | .fault (.cacheNotWritten _ _) | .fault (.cacheNotListed _ _) | .fault (.cacheNotRemoved _ _) => true
  | _ => false

namespace Cache

variable {cache : Cache} {d d' : Disk} {p : Package} {docs : List FunctionDoc}

-- Where the root of a cache never goes up again, what it holds is told by the locations of its files.

theorem plain_folderFor (hroot : cache.root.Plain) (p : Package) : (cache.folderFor p).Plain := by
  rw [folderFor_eq]
  exact Path.plain_below hroot (ne_up_of_isFileName p.isFileName_key)

theorem plain_fileFor (hroot : cache.root.Plain) (p : Package) : (cache.fileFor p).Plain := by
  rw [fileFor_eq, ← folderFor_eq]
  exact Path.plain_below (plain_folderFor hroot p) (ne_up_of_isFileName p.isFileName_key_json)

theorem spot_fileFor (cache : Cache) (d : Disk) (p : Package) :
    d.spot (cache.fileFor p) = d.spot cache.root ++ [p.key, p.key ++ ".json"] := by
  rw [fileFor_eq, Disk.spot_below, Disk.spot_below, List.append_assoc, List.singleton_append]

theorem holds_iff (hroot : cache.root.Plain) :
    cache.Holds d p docs ↔ p.Named ∧ (cache.fileFor p).Usable ∧
      ∃ bytes, d.root.find? (d.spot (cache.fileFor p)) = some (.file bytes) ∧
        FunctionDoc.ofBytes bytes = .ok docs := by
  simp only [Holds, docsAt?_eq_some_iff, Disk.entry_plain_iff d (plain_fileFor hroot p), and_assoc,
    exists_and_left]

theorem hasName_iff (hroot : cache.root.Plain) (name : String) :
    cache.HasName d name ↔ cache.root.Usable ∧ d.root.find? (d.spot cache.root ++ [name]) ≠ none := by
  simp only [HasName, Disk.entry_plain_iff d hroot]
  constructor
  · rintro ⟨inner, ⟨husable, hinner⟩, hname⟩
    rw [Folder.find?_snoc hinner]
    exact ⟨husable, hname⟩
  · rintro ⟨husable, hfound⟩
    obtain ⟨e, he⟩ := Option.ne_none_iff_exists'.mp hfound
    obtain ⟨inner, hinner, _⟩ := Folder.find?_above he
    rw [Folder.find?_snoc hinner] at hfound
    exact ⟨inner, ⟨husable, hinner⟩, hfound⟩

-- Disks on which the root of a cache differs under one name only.
structure SameBut (cache : Cache) (d d' : Disk) (name : String) : Prop where
  here : d'.here = d.here
  limits : d'.limits = d.limits
  find : ∀ other rest, other ≠ name →
    d'.root.find? (d.spot cache.root ++ other :: rest) = d.root.find? (d.spot cache.root ++ other :: rest)

theorem SameBut.spot {name : String} (h : cache.SameBut d d' name) (path : Path) : d'.spot path = d.spot path := by
  rw [Disk.spot, Disk.spot, Disk.start, Disk.start, h.here]

theorem SameBut.holds_iff (h : cache.SameBut d d' p.key) (hroot : cache.root.Plain) {other : Package}
    (hother : other ≠ p) : cache.Holds d' other docs ↔ cache.Holds d other docs := by
  have hkey : other.key ≠ p.key := fun hkey => hother (Package.key_injective hkey)
  simp only [Cache.holds_iff hroot, spot_fileFor, h.spot, h.find _ _ hkey]

theorem SameBut.hasName_iff {name other : String} (h : cache.SameBut d d' name) (hroot : cache.root.Plain)
    (hother : other ≠ name) : cache.HasName d' other ↔ cache.HasName d other := by
  simp only [Cache.hasName_iff hroot, h.spot, h.find _ _ hother]

-- A package whose file was replaced is held, and all else is as it was.
theorem replaceFileBelow_fileFor (hroot : cache.root.Plain) (hp : p.Named)
    (h : d.replaceFileBelow (cache.fileFor p) (FunctionDoc.toBytes docs) = (.ok (), d')) :
    cache.SameBut d d' p.key ∧ cache.Holds d' p docs := by
  have hfolder := plain_folderFor hroot p
  rw [fileFor_eq, ← folderFor_eq] at h
  obtain ⟨husable, hagrees, hfile⟩ :=
    Disk.replaceFileBelow_ok hfolder (ne_up_of_isFileName p.isFileName_key_json) h
  rw [folderFor_eq, ← fileFor_eq] at husable hagrees hfile
  have hsame : cache.SameBut d d' p.key := by
    refine ⟨hagrees.here, hagrees.limits, fun other rest hother => hagrees.find _ fun hl => ?_⟩
    rw [spot_fileFor, List.prefix_append_right_inj, List.cons_prefix_cons] at hl
    exact hother hl.1
  refine ⟨hsame, (holds_iff hroot).mpr ⟨hp, husable, FunctionDoc.toBytes docs, ?_, ?_⟩⟩
  · rw [hsame.spot, hfile]
  · exact FunctionDoc.ofBytes_toBytes docs

-- A package whose folder was removed has no name in the root any more, and all else is as it was.
theorem removeFolder_folderFor (hroot : cache.root.Plain) (h : d.removeFolder (cache.folderFor p) = .ok (true, d')) :
    cache.SameBut d d' p.key ∧ ¬cache.HasName d' p.key ∧
      ∃ inner, d'.entry cache.root = .ok (.folder inner) := by
  rw [folderFor_eq] at h
  obtain ⟨husable, hhere, hlimits, ⟨inner, hinner⟩, hgone, hbeside⟩ :=
    Disk.removeFolder_ok hroot (ne_up_of_isFileName p.isFileName_key) h
  rw [Disk.spot_below] at hgone hbeside
  have hsame : cache.SameBut d d' p.key := by
    refine ⟨hhere, hlimits, fun other rest hother => hbeside _ (fun hl => ?_) fun hl => ?_⟩
    · have hlength := hl.length_le
      rw [List.length_append, List.length_cons] at hlength
      omega
    · rw [List.prefix_append_right_inj, List.cons_prefix_cons] at hl
      exact hother hl.1.symm
  refine ⟨hsame, fun hname => ((hasName_iff hroot _).mp hname).2 ?_, inner, ?_⟩
  · have hnone := hgone []
    rwa [List.append_nil, ← hsame.spot] at hnone
  · rw [Disk.entry_plain_iff d' hroot, hsame.spot]
    exact ⟨husable, hinner⟩

-- A root that is there and may not be listed is not read.
theorem contents_of_denied (hthere : d.hasEntry cache.root = .ok true) (hdenied : cache.root.text ∈ d.limits.unlistable) :
    cache.contents d = .error (.fault (.cacheNotListed cache.root ⟨.denied, some cache.root.text⟩)) := by
  have hlist : d.list cache.root = .error ⟨.denied, some cache.root.text⟩ := by
    rw [Disk.list, if_pos (List.contains_iff_mem.mpr hdenied)]
    rfl
  simp only [contents, hthere, hlist]

-- After a file was replaced a cache that could be read can be read again, with that package changed and no other,
-- exactly if its root may be listed. That was not asked before of a root that was still to be made.
theorem contents_replaceFileBelow (hroot : cache.root.Plain) (hp : p.Named)
    {before : List (Package × List FunctionDoc)} (hbefore : cache.contents d = .ok before)
    (h : d.replaceFileBelow (cache.fileFor p) (FunctionDoc.toBytes docs) = (.ok (), d')) :
    (cache.root.text ∉ d.limits.unlistable → ∃ all, cache.contents d' = .ok all ∧
      ∀ other found, (other, found) ∈ all ↔ if other = p then found = docs else (other, found) ∈ before) ∧
    (cache.root.text ∈ d.limits.unlistable → d.hasEntry cache.root = .ok false ∧
      cache.contents d' = .error (.fault (.cacheNotListed cache.root ⟨.denied, some cache.root.text⟩))) := by
  obtain ⟨hsame, hholds⟩ := replaceFileBelow_fileFor hroot hp h
  obtain ⟨inner, hinner, _⟩ := hholds.hasName
  constructor
  · intro hlist
    have hnames : ∀ name, cache.HasName d name → Disk.Askable cache.root name := by
      rcases (exists_contents_iff cache d).mp ⟨before, hbefore⟩ with hmissing | ⟨_, _, hnames⟩
      · exact fun name hname => absurd hmissing hname.there
      · exact hnames
    obtain ⟨all, hall⟩ : ∃ all, cache.contents d' = .ok all := by
      refine (exists_contents_iff cache d').mpr (Or.inr ⟨?_, ⟨inner, hinner⟩, fun name hname => ?_⟩)
      · rwa [hsame.limits]
      · by_cases hkey : name = p.key
        · rw [hkey]
          exact hholds.askable
        · exact hnames name ((hsame.hasName_iff hroot hkey).mp hname)
    refine ⟨all, hall, fun other found => ?_⟩
    rw [mem_contents_iff hall]
    by_cases hother : other = p
    · rw [if_pos hother, hother]
      exact ⟨fun hfound => hfound.unique hholds, fun hfound => hfound ▸ hholds⟩
    · rw [if_neg hother, mem_contents_iff hbefore, hsame.holds_iff hroot hother]
  · intro hdenied
    have hmissing : d.hasEntry cache.root = .ok false := by
      rcases (exists_contents_iff cache d).mp ⟨before, hbefore⟩ with hmissing | ⟨hlist, _⟩
      · exact hmissing
      · exact absurd hdenied hlist
    refine ⟨hmissing, contents_of_denied ((Disk.hasEntry_eq_true_iff d' _).mpr ⟨_, hinner⟩) ?_⟩
    rwa [hsame.limits]

-- What storing and removing do to the disk, and what they answer.

-- A path with a zero byte is no path at all, and of a cache only the root can have one.
theorem replaceFileBelow_fileFor_zero (hzero : '\x00' ∈ cache.root.text.toList) (package : Package)
    (content : List UInt8) :
    d.replaceFileBelow (cache.fileFor package) content =
      (.error (.first ⟨.zeroByte, some (cache.folderFor package).text⟩), d) := by
  have hfolder : '\x00' ∈ (cache.folderFor package).text.toList := by
    rw [folderFor_eq, Path.zero_mem_text_below]
    exact Or.inl hzero
  rw [fileFor_eq, ← folderFor_eq]
  exact Disk.replaceFileBelow_of_zero hfolder _ content

theorem fromSystem_of_replaceFileBelow (hzero : '\x00' ∉ cache.root.text.toList) {package : Package}
    {content : List UInt8} {trouble : DiskTrouble} {left : Disk}
    (h : d.replaceFileBelow (cache.fileFor package) content = (.error trouble, left)) :
    trouble.error.fromSystem = true := by
  have hfolder : '\x00' ∉ (cache.folderFor package).text.toList := by
    rw [folderFor_eq, Path.zero_mem_text_below, not_or]
    exact ⟨hzero, zero_notMem_of_isFileName package.isFileName_key⟩
  rw [fileFor_eq, ← folderFor_eq] at h
  exact Disk.replaceFileBelow_fromSystem hfolder (zero_notMem_of_isFileName package.isFileName_key_json) h

theorem runIn_put (cache : Cache) (p : Package) (docs : List FunctionDoc) (w : World) :
    ∃ events, (cache.put p docs).runIn w =
      match w.disk.replaceFileBelow (cache.fileFor p) (FunctionDoc.toBytes docs) with
      | (.ok (), disk) => (.ok (cache.fileFor p), { w with disk := disk, events := events })
      | (.error trouble, disk) =>
        (.error (if trouble.error.fromSystem then .fault (.cacheNotWritten (cache.fileFor p) trouble)
          else .disk trouble.error), { w with disk := disk, events := events }) := by
  simp only [put, Work.runIn_get_bind, Work.runIn_set_bind]
  rcases w.disk.replaceFileBelow (cache.fileFor p) (FunctionDoc.toBytes docs) with ⟨trouble | ⟨⟩, disk⟩
  · refine ⟨w.events, ?_⟩
    dsimp only
    cases trouble.error.fromSystem <;> rfl
  · have hreads : Work.Reads (do
        Work.note (.cacheWritten docs.length p (cache.fileFor p))
        return cache.fileFor p) fun _ => .ok (cache.fileFor p) :=
      Work.Reads.note_bind _ (Work.Reads.pure _)
    exact hreads { w with disk := disk }

theorem runIn_put_eq_ok {w left : World} {file : Path} (h : (cache.put p docs).runIn w = (.ok file, left)) :
    file = cache.fileFor p ∧
      w.disk.replaceFileBelow (cache.fileFor p) (FunctionDoc.toBytes docs) = (.ok (), left.disk) := by
  obtain ⟨events, hrun⟩ := runIn_put cache p docs w
  rw [hrun] at h
  rcases hdone : w.disk.replaceFileBelow (cache.fileFor p) (FunctionDoc.toBytes docs) with ⟨trouble | ⟨⟩, disk⟩
  · rw [hdone] at h
    cases (Prod.mk.inj h).1
  · rw [hdone] at h
    obtain ⟨hfile, hleft⟩ := Prod.mk.inj h
    exact ⟨(Except.ok.inj hfile).symm, by rw [← hleft]⟩

-- Storing under a root that is no path at all changes nothing; every other failure is the cache's own.
theorem runIn_put_unchanged {w left : World} {failure : Failure}
    (h : (cache.put p docs).runIn w = (.error failure, left)) (hfailure : failure.ofCache = false) :
    left.disk = w.disk := by
  obtain ⟨events, hrun⟩ := runIn_put cache p docs w
  rw [hrun] at h
  rcases hdone : w.disk.replaceFileBelow (cache.fileFor p) (FunctionDoc.toBytes docs) with ⟨trouble | ⟨⟩, disk⟩
  · rw [hdone] at h
    obtain ⟨hcause, hleft⟩ := Prod.mk.inj h
    have hsystem : trouble.error.fromSystem = false := by
      rw [← Except.error.inj hcause] at hfailure
      cases hsystem : trouble.error.fromSystem with
      | false => rfl
      | true =>
          rw [hsystem] at hfailure
          cases hfailure
    have hjson := zero_notMem_of_isFileName p.isFileName_key_json
    rw [fileFor_eq, ← folderFor_eq] at hdone
    rw [← hleft]
    exact Disk.replaceFileBelow_of_zeroByte hjson hdone hsystem
  · rw [hdone] at h
    cases (Prod.mk.inj h).1

theorem runIn_remove (cache : Cache) (p : Package) (w : World) :
    ∃ events, (cache.remove p).runIn w =
      match w.disk.hasEntry (cache.folderFor p) with
      | .error e => (.error (.disk e), { w with events := events })
      | .ok false => (.ok false, { w with events := events })
      | .ok true =>
        match w.disk.removeFolder (cache.folderFor p) with
        | .error e => (.error (.fault (.cacheNotRemoved (cache.folderFor p) e)), { w with events := events })
        | .ok (gone, disk) =>
          (if gone then .ok true else .error .tooDeep, { w with disk := disk, events := events }) := by
  simp only [remove, Work.runIn_ask_bind]
  rcases w.disk.hasEntry (cache.folderFor p) with e | (_ | _)
  · exact ⟨w.events, rfl⟩
  · exact ⟨w.events, rfl⟩
  · simp only [Bool.not_true, Bool.false_eq_true, if_false, Work.runIn_get_bind]
    rcases w.disk.removeFolder (cache.folderFor p) with e | ⟨gone, disk⟩
    · exact ⟨w.events, rfl⟩
    cases gone with
    | false => exact ⟨w.events, rfl⟩
    | true =>
        have hreads : Work.Reads (do
            Work.note (.cacheRemoved p)
            return true) fun _ => .ok true :=
          Work.Reads.note_bind _ (Work.Reads.pure _)
        exact hreads { w with disk := disk }

theorem runIn_remove_eq_ok {w left : World} {present : Bool}
    (h : (cache.remove p).runIn w = (.ok present, left)) :
    w.disk.hasEntry (cache.folderFor p) = .ok present ∧
      if present then w.disk.removeFolder (cache.folderFor p) = .ok (true, left.disk) else left.disk = w.disk := by
  obtain ⟨events, hrun⟩ := runIn_remove cache p w
  rw [hrun] at h
  rcases hentry : w.disk.hasEntry (cache.folderFor p) with e | (_ | _)
  · rw [hentry] at h
    cases h
  · rw [hentry] at h
    cases h
    exact ⟨rfl, rfl⟩
  · rcases hdone : w.disk.removeFolder (cache.folderFor p) with e | ⟨_ | _, disk⟩
    · rw [hentry, hdone] at h
      cases h
    · rw [hentry, hdone] at h
      cases h
    · rw [hentry, hdone] at h
      cases h
      exact ⟨rfl, rfl⟩

end Cache

end CrateDocs
