import CrateDocs.Proofs.Cache.Steps
import CrateDocs.Proofs.Crate.Asked
import CrateDocs.Proofs.Disk.Storing

namespace CrateDocs.Cache

variable {cache : Cache} {d e left : Disk} {p : Package} {l : Location}

-- Storing a package, as it is seen on the disk.

theorem start_folderFor (cache : Cache) (d : Disk) (p : Package) : d.start (cache.folderFor p) = d.start cache.root := by
  rw [folderFor_eq]
  rfl

theorem spot_folderFor (cache : Cache) (d : Disk) (p : Package) :
    d.spot (cache.folderFor p) = d.spot cache.root ++ [p.key] := by
  rw [folderFor_eq, Disk.spot_below]

theorem start_prefix_spot (d : Disk) (path : Path) : d.start path <+: d.spot path :=
  List.prefix_append _ _

-- Why a package is not stored, if it is not.
def refusal? (cache : Cache) (d : Disk) (p : Package) : Option Refusal :=
  d.storeRefusal? (cache.folderFor p) (p.key ++ ".json")

-- The directories that are made for a package.
def MadeFor (cache : Cache) (d : Disk) (p : Package) (l : Location) : Prop :=
  d.MadeFor (cache.folderFor p) l

theorem MadeFor.cases (h : cache.MadeFor d p l) :
    d.start cache.root <+: l ∧
      (l <+: d.spot cache.root ∨ l = d.spot cache.root ++ [p.key] ∧ (cache.folderFor p).Usable) := by
  constructor
  · have hstart := Disk.MadeFor.start_isPrefix h
    rwa [start_folderFor] at hstart
  · have hleads := Disk.MadeFor.prefix_spot h
    rw [spot_folderFor, List.prefix_concat_iff] at hleads
    rcases hleads with rfl | hleads
    · have hwhole : d.MadeFor (cache.folderFor p) (d.spot (cache.folderFor p)) := by
        rw [spot_folderFor]
        exact h
      exact Or.inr ⟨rfl, hwhole.usable⟩
    · exact Or.inl hleads

theorem MadeFor.length_le (h : cache.MadeFor d p l) : l.length ≤ (d.spot cache.root).length + 1 := by
  rcases h.cases.2 with hleads | ⟨rfl, _⟩
  · have hlength := hleads.length_le
    omega
  · simp

-- What a call that stores a package leaves.
structure Stores (cache : Cache) (d left : Disk) (put : Put) : Prop where
  here : left.here = d.here
  limits : left.limits = d.limits
  file : cache.refusal? d put.package = none →
    left.mark? (fileSpot (d.spot cache.root) put.package.key) = some (.file put.payload)
  made : ∀ l, d.mark? l = none → cache.MadeFor d put.package l → left.mark? l = some .folder
  same : ∀ l, (cache.refusal? d put.package = none → l ≠ fileSpot (d.spot cache.root) put.package.key) →
    (d.mark? l = none → ¬cache.MadeFor d put.package l) → left.mark? l = d.mark? l

theorem replaceFileBelow_put (hroot : cache.root.Plain) (d : Disk) (put : Put) :
    Disk.refusalOf? (d.replaceFileBelow (cache.fileFor put.package) put.payload).1 = cache.refusal? d put.package ∧
      cache.Stores d (d.replaceFileBelow (cache.fileFor put.package) put.payload).2 put := by
  have hparts : (cache.folderFor put.package).parts ≠ [] := by
    rw [folderFor_eq, Path.below]
    simp
  have hspot : d.spot (cache.folderFor put.package) ++ [put.package.key ++ ".json"] =
      fileSpot (d.spot cache.root) put.package.key := by
    rw [spot_folderFor, fileSpot, List.append_assoc, List.singleton_append]
  have hfile : cache.fileFor put.package = (cache.folderFor put.package).below (put.package.key ++ ".json") := by
    rw [fileFor_eq, folderFor_eq]
  obtain ⟨hrefusal, hstores⟩ := Disk.replaceFileBelow_stores (plain_folderFor hroot put.package) hparts
    (ne_up_of_isFileName put.package.isFileName_key_json) d put.payload
  rw [← hfile] at hrefusal hstores
  obtain ⟨hhere, hlimits, hdone, hmade, hsame⟩ := hstores
  rw [hspot] at hdone hsame
  exact ⟨hrefusal, hhere, hlimits, hdone, hmade, hsame⟩

theorem Stores.spot {put : Put} (h : cache.Stores d left put) (path : Path) : left.spot path = d.spot path := by
  rw [Disk.spot, Disk.spot, Disk.start_congr h.here]

theorem length_fileSpot (root : Location) (key : String) : (fileSpot root key).length = root.length + 2 := by
  rw [fileSpot, List.length_append, List.length_cons, List.length_singleton]

theorem MadeFor.ne_fileSpot (h : cache.MadeFor d p l) (key : String) : l ≠ fileSpot (d.spot cache.root) key := by
  rintro rfl
  have hlength := h.length_le
  rw [length_fileSpot] at hlength
  omega

-- A call changes what is held for its own package, and only if it stores it.
theorem Stores.holds_iff (hroot : cache.root.Plain) {put : Put} (h : cache.Stores d left put) {docs : List FunctionDoc}
    (hp : cache.refusal? d put.package = none → p ≠ put.package) : cache.Holds left p docs ↔ cache.Holds d p docs := by
  have hsame : left.mark? (fileSpot (d.spot cache.root) p.key) = d.mark? (fileSpot (d.spot cache.root) p.key) := by
    apply h.same
    · intro hdone hspot
      exact hp hdone (Package.key_injective (fileSpot_injective _ hspot))
    · intro _ hmade
      exact hmade.ne_fileSpot _ rfl
  have hspot : d.spot (cache.fileFor p) = fileSpot (d.spot cache.root) p.key := spot_fileFor cache d p
  simp only [Cache.holds_iff hroot, h.spot, hspot, ← Disk.mark?_eq_file_iff, hsame]

-- Whether anything is where a cache may write.

-- Everything that a cache writes to: what is below its root, and the directories that are missing on the way there.
def Makes (cache : Cache) (d : Disk) (l : Location) : Prop :=
  (∃ name rest, l = d.spot cache.root ++ name :: rest) ∨ l <+: d.spot cache.root ∧ d.mark? l = none

-- The same disk, but for what a cache has written to it.
structure Beside (cache : Cache) (d e : Disk) : Prop where
  here : e.here = d.here
  limits : e.limits = d.limits
  marks : ∀ l, (∀ name rest, l ≠ d.spot cache.root ++ name :: rest) →
    e.mark? l = d.mark? l ∨ d.mark? l = none ∧ l <+: d.spot cache.root ∧ e.mark? l = some .folder

theorem Beside.refl (cache : Cache) (d : Disk) : cache.Beside d d :=
  ⟨rfl, rfl, fun _ _ => Or.inl rfl⟩

theorem Beside.spot (h : cache.Beside d e) (path : Path) : e.spot path = d.spot path := by
  rw [Disk.spot, Disk.spot, Disk.start_congr h.here]

theorem Beside.stores (h : cache.Beside d e) {put : Put} (hstores : cache.Stores e left put) : cache.Beside d left := by
  refine ⟨hstores.here.trans h.here, hstores.limits.trans h.limits, fun l hl => ?_⟩
  have hfile : cache.refusal? e put.package = none → l ≠ fileSpot (e.spot cache.root) put.package.key := by
    intro _
    rw [h.spot]
    exact hl _ _
  by_cases hmade : e.mark? l = none ∧ cache.MadeFor e put.package l
  · have hleads : l <+: d.spot cache.root := by
      rcases hmade.2.cases.2 with hleads | ⟨hspot, _⟩
      · rwa [h.spot] at hleads
      · rw [h.spot] at hspot
        exact absurd hspot (hl _ [])
    rcases h.marks l hl with hsame | ⟨_, _, hfolder⟩
    · exact Or.inr ⟨hsame.symm.trans hmade.1, hleads, hstores.made l hmade.1 hmade.2⟩
    · rw [hmade.1] at hfolder
      cases hfolder
  · rw [not_and] at hmade
    rw [hstores.same l hfile hmade]
    exact h.marks l hl

-- A path that a cache does not write to. One that never goes up again may pass through its directories.
def Spares (cache : Cache) (d : Disk) (path : Path) : Prop :=
  path.Plain ∧ path.Usable ∧ ¬cache.Makes d (d.spot path) ∨ ∀ l ∈ d.trailOf path, ¬cache.Makes d l

theorem Beside.mark?_eq (h : cache.Beside d e) (hl : ¬cache.Makes d l) : e.mark? l = d.mark? l := by
  rw [Makes, not_or] at hl
  have hbelow : ∀ name rest, l ≠ d.spot cache.root ++ name :: rest := fun name rest hspot => hl.1 ⟨name, rest, hspot⟩
  rcases h.marks l hbelow with hsame | ⟨hnone, hleads, _⟩
  · exact hsame
  · exact absurd ⟨hleads, hnone⟩ hl.2

theorem Beside.map_mark_entry (h : cache.Beside d e) {path : Path} (hpath : cache.Spares d path) :
    (e.entry path).map Entry.mark = (d.entry path).map Entry.mark := by
  rcases hpath with ⟨hplain, husable, hend⟩ | htrail
  · rw [Disk.map_mark_entry, Disk.map_mark_entry, Disk.start_congr h.here, Disk.lookup_congr hplain husable.2]
    · intro front hfront
      have hleads : d.start path ++ front <+: d.spot path := (List.prefix_append_right_inj _).mpr hfront
      have hmarks := h.marks (d.start path ++ front) (fun name rest hbelow => hend (Or.inl ?_))
      · rcases hmarks with hsame | ⟨hnone, _, hfolder⟩
        · exact Or.inl hsame
        · exact Or.inr ⟨hnone, hfolder⟩
      · obtain ⟨more, hmore⟩ := hleads
        rw [hbelow, List.append_assoc, List.cons_append] at hmore
        exact ⟨name, rest ++ more, hmore.symm⟩
    · exact h.mark?_eq hend
  · exact Disk.Agree.entry ⟨h.here, fun l hl => h.mark?_eq (htrail l hl)⟩

theorem Beside.alike (h : cache.Beside d e) {path : Path} (hpath : cache.Spares d path) : Crate.Alike d e path := by
  constructor
  · rw [Disk.read_eq_mark, Disk.read_eq_mark, h.map_mark_entry hpath]
  · rw [Disk.isFile_eq_mark, Disk.isFile_eq_mark, h.map_mark_entry hpath]

-- The disk after many calls for different packages.

-- What some calls have written, and nothing else is different. Whether a call stores its package, and which
-- directories it makes, is told by the disk before all of them.
structure Filled (cache : Cache) (d e : Disk) (puts : List Put) : Prop where
  here : e.here = d.here
  limits : e.limits = d.limits
  file : ∀ put ∈ puts, cache.refusal? d put.package = none →
    e.mark? (fileSpot (d.spot cache.root) put.package.key) = some (.file put.payload)
  made : ∀ put ∈ puts, ∀ l, d.mark? l = none → cache.MadeFor d put.package l → e.mark? l = some .folder
  same : ∀ l, (∀ put ∈ puts, cache.refusal? d put.package = none → l ≠ fileSpot (d.spot cache.root) put.package.key) →
    (d.mark? l = none → ∀ put ∈ puts, ¬cache.MadeFor d put.package l) → e.mark? l = d.mark? l

theorem Filled.refl (cache : Cache) (d : Disk) : cache.Filled d d [] :=
  ⟨rfl, rfl, by simp, by simp, fun _ _ _ => rfl⟩

theorem Filled.spot {puts : List Put} (h : cache.Filled d e puts) (path : Path) : e.spot path = d.spot path := by
  rw [Disk.spot, Disk.spot, Disk.start_congr h.here]

-- At any location there is a file of one of the calls, or a directory that was made, or what was there.
theorem Filled.cases {puts : List Put} (h : cache.Filled d e puts) (l : Location) :
    (∃ put ∈ puts, cache.refusal? d put.package = none ∧ l = fileSpot (d.spot cache.root) put.package.key) ∨
      (∃ put ∈ puts, cache.MadeFor d put.package l ∧ d.mark? l = none ∧ e.mark? l = some .folder) ∨
      e.mark? l = d.mark? l := by
  by_cases hfile : ∃ put ∈ puts, cache.refusal? d put.package = none ∧ l = fileSpot (d.spot cache.root) put.package.key
  · exact Or.inl hfile
  · by_cases hmade : d.mark? l = none ∧ ∃ put ∈ puts, cache.MadeFor d put.package l
    · obtain ⟨hnone, put, hput, hmade⟩ := hmade
      exact Or.inr (Or.inl ⟨put, hput, hmade, hnone, h.made put hput l hnone hmade⟩)
    · refine Or.inr (Or.inr (h.same l ?_ ?_))
      · exact fun put hput hdone hl => hfile ⟨put, hput, hdone, hl⟩
      · exact fun hnone put hput hl => hmade ⟨hnone, put, hput, hl⟩

theorem Filled.beside {puts : List Put} (h : cache.Filled d e puts) : cache.Beside d e := by
  refine ⟨h.here, h.limits, fun l hl => ?_⟩
  rcases h.cases l with ⟨put, _, _, hfile⟩ | ⟨put, _, hmade, hnone, hfolder⟩ | hsame
  · exact absurd hfile (hl _ _)
  · rcases hmade.cases.2 with hleads | ⟨hspot, _⟩
    · exact Or.inr ⟨hnone, hleads, hfolder⟩
    · exact absurd hspot (hl _ [])
  · exact Or.inl hsame

-- Other packages do not matter for whether a package is stored.
theorem Filled.sameWay {puts : List Put} (h : cache.Filled d e puts) (hp : ∀ put ∈ puts, put.package ≠ p) :
    d.SameWay e (cache.folderFor p) := by
  refine ⟨h.here, ?_, fun l hl => ?_, fun name => ?_⟩
  · rw [start_folderFor]
    have hlength := (start_prefix_spot d cache.root).length_le
    rcases h.cases (d.start cache.root).dropLast with ⟨put, _, _, hfile⟩ | ⟨put, _, hmade, hnone, _⟩ | hsame
    · have hlong := congrArg List.length hfile
      rw [length_fileSpot, List.length_dropLast] at hlong
      omega
    · have hrooted := hmade.2.1
      rw [start_folderFor, hnone] at hrooted
      cases hrooted
    · rw [hsame]
  · rw [Disk.blocks, Disk.blocks]
    rcases h.cases l with ⟨put, _, _, hfile⟩ | ⟨put, _, _, hnone, hfolder⟩ | hsame
    · have hlong := congrArg List.length hfile
      have hlength := hl.length_le
      rw [length_fileSpot] at hlong
      rw [spot_folderFor, List.length_append, List.length_singleton] at hlength
      omega
    · rw [hnone, hfolder]
    · rw [hsame]
  · rw [spot_folderFor]
    rcases h.cases (d.spot cache.root ++ [p.key] ++ [name]) with ⟨put, hput, _, hfile⟩ | ⟨put, _, hmade, _⟩ | hsame
    · rw [fileSpot, List.append_assoc, List.append_cancel_left_eq, List.singleton_append] at hfile
      exact absurd (Package.key_injective (List.cons.inj hfile).1).symm (hp put hput)
    · have hlength := hmade.length_le
      simp only [List.length_append, List.length_singleton] at hlength
      omega
    · exact hsame

theorem Filled.refusal?_eq {puts : List Put} (h : cache.Filled d e puts) (hp : ∀ put ∈ puts, put.package ≠ p) :
    cache.refusal? e p = cache.refusal? d p :=
  (h.sameWay hp).storeRefusal? _

theorem Filled.madeFor_iff {puts : List Put} (h : cache.Filled d e puts) (hp : ∀ put ∈ puts, put.package ≠ p)
    (l : Location) : cache.MadeFor e p l ↔ cache.MadeFor d p l :=
  (h.sameWay hp).madeFor_iff l

theorem Filled.stores {puts : List Put} (h : cache.Filled d e puts) {put : Put}
    (hput : ∀ other ∈ puts, other.package ≠ put.package) (hstores : cache.Stores e left put) :
    cache.Filled d left (puts ++ [put]) := by
  obtain ⟨hhere, hlimits, hfile, hnew, hsame⟩ := hstores
  simp only [h.refusal?_eq hput, h.madeFor_iff hput, h.spot] at hfile hnew hsame
  refine ⟨hhere.trans h.here, hlimits.trans h.limits, ?_, ?_, ?_⟩
  · intro other hother hdone
    rcases List.mem_append.mp hother with hother | hother
    · have hthere := h.file other hother hdone
      rw [hsame, hthere]
      · intro _ hspot
        exact hput other hother (Package.key_injective (fileSpot_injective _ hspot))
      · intro hnone
        rw [hthere] at hnone
        cases hnone
    · rw [List.mem_singleton.mp hother] at hdone ⊢
      exact hfile hdone
  · intro other hother l hnone hl
    have hshort := hl.ne_fileSpot
    rcases List.mem_append.mp hother with hother | hother
    · have hfolder := h.made other hother l hnone hl
      rw [hsame l (fun _ => hshort _) (by simp [hfolder]), hfolder]
    · rw [List.mem_singleton.mp hother] at hl
      by_cases hthere : e.mark? l = none
      · exact hnew l hthere hl
      · rw [hsame l (fun _ => hshort _) fun hnone => absurd hnone hthere]
        rcases h.cases l with ⟨_, _, _, hfile⟩ | ⟨_, _, _, _, hfolder⟩ | hbefore
        · exact absurd hfile (hshort _)
        · exact hfolder
        · rw [hbefore] at hthere
          exact absurd hnone hthere
  · intro l hl hnot
    simp only [List.mem_append, List.mem_singleton, or_imp, forall_and, forall_eq] at hl hnot
    have hbefore := h.same l hl.1 hnot.1
    rw [hsame l hl.2, hbefore]
    rw [hbefore]
    exact hnot.2

-- The order of the calls does not show.
theorem Filled.mark?_perm {puts puts' : List Put} (h : cache.Filled d e puts) {e' : Disk} (h' : cache.Filled d e' puts')
    (hperm : puts'.Perm puts) : e'.mark? = e.mark? := by
  funext l
  rcases h.cases l with ⟨put, hput, hdone, rfl⟩ | ⟨put, hput, hmade, hnone, hfolder⟩ | hsame
  · rw [h.file put hput hdone, h'.file put (hperm.mem_iff.mpr hput) hdone]
  · rw [hfolder, h'.made put (hperm.mem_iff.mpr hput) l hnone hmade]
  · rcases h'.cases l with ⟨put, hput, hdone, rfl⟩ | ⟨put, hput, hmade, hnone, hfolder⟩ | hsame'
    · rw [h.file put (hperm.mem_iff.mp hput) hdone, h'.file put hput hdone]
    · rw [hfolder, h.made put (hperm.mem_iff.mp hput) l hnone hmade]
    · rw [hsame', hsame]

end CrateDocs.Cache
