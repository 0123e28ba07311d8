import CrateDocs.Proofs.Cache.Fuller

namespace CrateDocs.Cache

open Function (update)
open Relation (ReflTransGen)

variable {cache : Cache} {put : Put} {d e left : Disk}

-- A call that fails, from the disk that it finds to the disk that it leaves. The disk refuses it, or the system
-- stops it at any of its steps: while it makes directories, or while it has a temporary file, which it takes away.
inductive Put.Fails (cache : Cache) (put : Put) : Disk → Disk → Prop
  | refused {w left : World} {failure : Failure}
      (h : (cache.put put.package put.docs).runIn w = (.error failure, left)) : Fails cache put w.disk left.disk
  | beforeFile {d left : Disk} (h : ReflTransGen (put.Step cache) (d, .starting) (left, .starting)) :
      Fails cache put d left
  | withFile {d between left : Disk} {mark : String} {rest : List UInt8}
      (hsteps : ReflTransGen (put.Step cache) (d, .starting) (between, .writing mark rest))
      (h : between.removeFile (cache.temporaryFor between put.package mark) = .ok left) : Fails cache put d left

-- What such a call may leave: directories, on the way to the directory of its package.
structure Put.Leaves (cache : Cache) (put : Put) (d left : Disk) : Prop where
  here : left.here = d.here
  limits : left.limits = d.limits
  marks : ∀ l, left.mark? l = d.mark? l ∨ d.mark? l = none ∧ left.mark? l = some .folder ∧ d.start cache.root <+: l ∧
    (l <+: d.spot cache.root ∨ l = d.spot cache.root ++ [put.package.key] ∧ (cache.folderFor put.package).Usable)

namespace Put.Leaves

theorem refl (cache : Cache) (put : Put) (d : Disk) : put.Leaves cache d d :=
  ⟨rfl, rfl, fun _ => Or.inl rfl⟩

theorem fuller (h : put.Leaves cache d left) : cache.Fuller d left := by
  refine ⟨h.here, h.limits, fun l => (h.marks l).imp_right ?_⟩
  rintro ⟨hnone, hfolder, hstart, hplace⟩
  refine ⟨hnone, hfolder, hstart, hplace.imp_right ?_⟩
  rintro ⟨hspot, husable⟩
  exact ⟨put.package, hspot, husable⟩

theorem prefix_folderFor (h : put.Leaves cache d left) (l : Location) :
    left.mark? l = d.mark? l ∨
      d.mark? l = none ∧ left.mark? l = some .folder ∧ l <+: d.spot (cache.folderFor put.package) := by
  rw [spot_folderFor, List.prefix_concat_iff]
  refine (h.marks l).imp_right ?_
  rintro ⟨hnone, hfolder, _, hleads | ⟨hspot, _⟩⟩
  · exact ⟨hnone, hfolder, Or.inr hleads⟩
  · exact ⟨hnone, hfolder, Or.inl hspot⟩

theorem fileAt_eq (h : put.Leaves cache d left) : left.fileAt = d.fileAt := by
  funext l
  rw [Disk.fileAt_eq_mark, Disk.fileAt_eq_mark]
  rcases h.marks l with hsame | ⟨hnone, hfolder, _⟩
  · rw [hsame]
  · rw [hnone, hfolder]

theorem of_same (h : put.Leaves cache d e) (hhere : left.here = e.here) (hlimits : left.limits = e.limits)
    (hmarks : left.mark? = e.mark?) : put.Leaves cache d left := by
  refine ⟨hhere.trans h.here, hlimits.trans h.limits, fun l => ?_⟩
  rw [hmarks]
  exact h.marks l

theorem of_stores (h : cache.Stores d left put) (hrefused : cache.refusal? d put.package ≠ none) :
    put.Leaves cache d left := by
  refine ⟨h.here, h.limits, fun l => ?_⟩
  by_cases hl : d.mark? l = none ∧ cache.MadeFor d put.package l
  · exact Or.inr ⟨hl.1, h.made l hl.1 hl.2, hl.2.cases⟩
  · rw [not_and] at hl
    exact Or.inl (h.same l (fun hdone => absurd hdone hrefused) hl)

theorem makeFolder (hroot : cache.root.Plain) (h : put.Leaves cache d e) {folder : Path} {made : Disk}
    (hanchor : folder.anchor = (cache.folderFor put.package).anchor)
    (hparts : folder.parts <+: (cache.folderFor put.package).parts) (hmade : e.makeFolder folder = .ok made) :
    put.Leaves cache d made := by
  have hplain : folder.Plain := fun hup => plain_folderFor hroot put.package (hparts.subset hup)
  have hstart : e.start folder = d.start cache.root := by
    rw [Disk.start_congr h.here, ← start_folderFor cache d put.package, Disk.start, Disk.start, hanchor]
  obtain ⟨hhere, hlimits, husable, hmarks⟩ := Disk.makeFolder_marks hplain hmade
  refine ⟨hhere.trans h.here, hlimits.trans h.limits, fun l => ?_⟩
  rcases hmarks l with hsame | ⟨rfl, hnone, hfolder⟩
  · rw [hsame]
    exact h.marks l
  · have hbefore : d.mark? (e.spot folder) = none := h.fuller.mark?_of_none hnone
    rw [Disk.spot, hstart] at hbefore hfolder ⊢
    refine Or.inr ⟨hbefore, hfolder, List.prefix_append _ _, ?_⟩
    rw [folderFor_eq, Path.below, List.prefix_concat_iff] at hparts
    rcases hparts with hwhole | hparts
    · have heq : folder = cache.folderFor put.package := by
        rw [folderFor_eq] at hanchor ⊢
        cases folder
        exact congrArg₂ Path.mk hanchor hwhole
      refine Or.inr ⟨?_, heq ▸ husable⟩
      rw [hwhole, ← List.append_assoc]
      rfl
    · exact Or.inl ((List.prefix_append_right_inj _).mpr hparts)

end Put.Leaves

-- What there is of a call until it has ended: directories, and its temporary file once that has been made.
def Put.Pending (cache : Cache) (put : Put) (d : Disk) : Disk × Phase → Prop
  | (e, .starting) => put.Leaves cache d e
  | (e, .writing mark _) =>
    ∃ before content, put.Leaves cache d before ∧ e.here = before.here ∧ e.limits = before.limits ∧
      before.mark? (temporarySpot (d.resolve cache.root) put.package.key mark) = none ∧
      e.mark? = update before.mark? (temporarySpot (d.resolve cache.root) put.package.key mark) (some (.file content))
  | (_, .ended) => True

namespace Put.Pending

theorem step (hroot : cache.root.Plain) {after : Disk} {phase next : Phase} (h : put.Pending cache d (e, phase))
    (hstep : put.Step cache (e, phase) (after, next)) : put.Pending cache d (after, next) := by
  cases hstep with
  | makeFolder hanchor hparts hmade => exact h.makeFolder hroot hanchor hparts hmade
  | create hfree hcreated =>
      have hresolve := Disk.resolve_congr h.here cache.root
      have hnone := Disk.mark?_of_hasEntry hfree hcreated
      obtain ⟨hhere, hlimits, hmarks⟩ := Disk.writeFile_marks (temporaryName_ne_up _ _) hcreated
      rw [← temporaryFor] at hmarks
      rw [resolve_temporaryFor, hresolve] at hnone hmarks
      exact ⟨e, [], h, hhere, hlimits, hnone, hmarks⟩
  | append hread hwritten =>
      obtain ⟨before, content, hleaves, hhere, hlimits, hnone, hmarks⟩ := h
      have hresolve := Disk.resolve_congr (hhere.trans hleaves.here) cache.root
      obtain ⟨hhere', hlimits', hmarks'⟩ := Disk.writeFile_marks (temporaryName_ne_up _ _) hwritten
      rw [← temporaryFor, resolve_temporaryFor, hresolve, hmarks, Function.update_idem] at hmarks'
      exact ⟨before, _, hleaves, hhere'.trans hhere, hlimits'.trans hlimits, hnone, hmarks'⟩
  | rename _ => trivial
  | unlink _ => trivial
  | stop => trivial

theorem steps (hroot : cache.root.Plain) {state : Disk × Phase}
    (h : ReflTransGen (put.Step cache) (d, .starting) state) : put.Pending cache d state := by
  induction h with
  | refl => exact Put.Leaves.refl cache put d
  | tail _ hstep ih => exact step hroot ih hstep

-- Without its temporary file, a call has done nothing but make directories.
theorem removeFile {mark : String} {rest : List UInt8} (h : put.Pending cache d (e, .writing mark rest))
    (hremoved : e.removeFile (cache.temporaryFor e put.package mark) = .ok left) : put.Leaves cache d left := by
  obtain ⟨before, content, hleaves, hhere, hlimits, hnone, hmarks⟩ := h
  have hresolve := Disk.resolve_congr (hhere.trans hleaves.here) cache.root
  obtain ⟨hhere', hlimits', hmarks'⟩ := Disk.removeFile_marks (temporaryName_ne_up _ _) hremoved
  rw [← temporaryFor, resolve_temporaryFor, hresolve, hmarks, Function.update_idem, ← hnone,
    Function.update_eq_self] at hmarks'
  exact hleaves.of_same (hhere'.trans hhere) (hlimits'.trans hlimits) hmarks'

end Put.Pending

theorem Put.Fails.leaves (hroot : cache.root.Plain) (h : put.Fails cache d left) : put.Leaves cache d left := by
  cases h with
  | @refused w left failure h =>
      obtain ⟨hrefusal, hstores⟩ := replaceFileBelow_put hroot w.disk put
      obtain ⟨events, hrun⟩ := runIn_put cache put.package put.docs w
      rw [hrun, ← Put.payload] at h
      rcases hdone : w.disk.replaceFileBelow (cache.fileFor put.package) put.payload with ⟨trouble | ⟨⟩, disk⟩
      · rw [hdone] at h hrefusal hstores
        obtain ⟨_, rfl⟩ := Prod.mk.inj h
        refine Put.Leaves.of_stores hstores ?_
        rw [← hrefusal]
        exact Option.some_ne_none _
      · rw [hdone] at h
        cases (Prod.mk.inj h).1
  | beforeFile h => exact Put.Pending.steps hroot h
  | withFile hsteps h => exact (Put.Pending.steps hroot hsteps).removeFile h

-- A name of the root is too long, and there is a directory in which it is looked for.
def Overruns (cache : Cache) (d e : Disk) : Prop :=
  ∃ front part rest, cache.root.parts = front ++ part :: rest ∧ Disk.nameLimit < Utf8.size part ∧
    e.mark? (d.start cache.root ++ front) = some .folder

-- How a new directory is seen: the root was missing before, and now it is there but cannot be listed, or a name of it
-- is found to be too long.
def Uncovers (cache : Cache) (d e : Disk) : Prop :=
  cache.root.Fitting ∧ d.hasEntry cache.root = .ok false ∧
    (e.mark? (d.spot cache.root) = some .folder ∧ cache.root.text ∈ d.limits.unlistable ∨ cache.Overruns d e)

-- On the way to a directory no name is too long, unless that is found out.
theorem size_le_of_not_overruns (h : ¬cache.Overruns d e) (hfolder : e.mark? (d.spot cache.root) = some .folder) :
    ∀ part ∈ cache.root.parts, Utf8.size part ≤ Disk.nameLimit := by
  intro part hpart
  obtain ⟨front, rest, hparts⟩ := List.append_of_mem hpart
  by_contra hsize
  apply h
  refine ⟨front, part, rest, hparts, Nat.lt_of_not_le hsize, Disk.mark?_folder_above hfolder ?_⟩
  rw [Disk.spot, hparts]
  exact (List.prefix_append_right_inj _).mpr (List.prefix_append _ _)

namespace Fuller

variable (h : cache.Fuller d e) (hroot : cache.root.Plain)

include h hroot

theorem hasEntry_eq_error_iff (hfits : cache.root.Fitting) (error : DiskError) :
    e.hasEntry cache.root = .error error ↔ cache.Overruns d e ∧ error = ⟨.nameTooLong, some cache.root.text⟩ := by
  have hentry : e.entry cache.root = .error .nameTooLong ↔
      (e.entry cache.root).map Entry.mark = .error .nameTooLong := by
    cases e.entry cache.root <;> simp [Except.map]
  rw [Disk.hasEntry, Disk.test_eq_error_iff, hentry, Disk.map_mark_entry, (Disk.textRefusal?_eq_none_iff _).mpr hfits,
    h.start, Disk.lookup_eq_nameTooLong_iff hroot, Overruns]

-- What has appeared at a missing root can only be a directory.
theorem mark?_root_of_missing (hmissing : d.hasEntry cache.root = .ok false) (hthere : e.hasEntry cache.root = .ok true) :
    cache.root.Usable ∧ e.mark? (d.spot cache.root) = some .folder := by
  obtain ⟨found, hentry⟩ := (Disk.hasEntry_eq_true_iff e _).mp hthere
  obtain ⟨husable, hfound⟩ := (Disk.entry_plain_iff e hroot _).mp hentry
  rw [h.spot] at hfound
  refine ⟨husable, ?_⟩
  rcases h.marks (d.spot cache.root) with hsame | ⟨_, hmade, _⟩
  · have hbefore : d.mark? (d.spot cache.root) ≠ none := by
      rw [← hsame, Ne, Disk.mark?_eq_none_iff, hfound]
      nofun
    rw [Ne, Disk.mark?_eq_none_iff] at hbefore
    obtain ⟨old, hold⟩ := Option.ne_none_iff_exists'.mp hbefore
    have hentry := (Disk.entry_plain_iff d hroot _).mpr ⟨husable, hold⟩
    rw [(Disk.hasEntry_eq_true_iff d _).mpr ⟨_, hentry⟩] at hmissing
    cases hmissing
  · exact hmade

theorem contents_of_uncovers (hseen : cache.Uncovers d e) : cache.contents e ≠ cache.contents d := by
  intro heq
  obtain ⟨hfits, hmissing, hseen⟩ := hseen
  have hbefore : cache.contents d = .ok [] := by rw [contents, hmissing]
  rw [hbefore, contents] at heq
  by_cases hlong : cache.Overruns d e
  · rw [(h.hasEntry_eq_error_iff hroot hfits _).mpr ⟨hlong, rfl⟩] at heq
    cases heq
  · obtain ⟨hfolder, hdenied⟩ := hseen.resolve_right hlong
    obtain ⟨inner, hinner⟩ := (Disk.mark?_eq_folder_iff e _).mp hfolder
    rw [← h.spot] at hinner
    have husable : cache.root.Usable := ⟨hfits, size_le_of_not_overruns hlong hfolder⟩
    have hentry := (Disk.entry_plain_iff e hroot _).mpr ⟨husable, hinner⟩
    rw [(Disk.hasEntry_eq_true_iff e _).mpr ⟨_, hentry⟩, Disk.list_eq, h.limits, if_pos hdenied] at heq
    cases heq

theorem contents_of_not_uncovers (hcovered : ¬cache.Uncovers d e) : cache.contents e = cache.contents d := by
  by_cases hmissing : d.hasEntry cache.root = .ok false
  · by_cases hfits : cache.root.Fitting
    · rw [Uncovers, not_and, not_and, not_or] at hcovered
      obtain ⟨hlisted, hshort⟩ := hcovered hfits hmissing
      rcases hthere : e.hasEntry cache.root with error | (_ | _)
      · exact absurd ((h.hasEntry_eq_error_iff hroot hfits error).mp hthere).1 hshort
      · rw [contents, contents, hmissing, hthere]
      · obtain ⟨husable, hfolder⟩ := h.mark?_root_of_missing hroot hmissing hthere
        exact h.contents_of_missing hroot hmissing husable.2 fun hdenied => hlisted ⟨hfolder, hdenied⟩
    · -- Nothing is looked for under a text that is no path.
      refine h.contents_of_entry hroot ?_
      rw [Disk.map_mark_entry, Disk.map_mark_entry]
      cases htext : Disk.textRefusal? cache.root with
      | some refusal => rfl
      | none => exact absurd ((Disk.textRefusal?_eq_none_iff _).mp htext) hfits
  · exact h.contents_eq hroot fun hfalse => absurd hfalse hmissing

theorem contents_eq_iff : cache.contents e = cache.contents d ↔ ¬cache.Uncovers d e :=
  ⟨fun heq hseen => h.contents_of_uncovers hroot hseen heq, h.contents_of_not_uncovers hroot⟩

end Fuller

-- A call that fails leaves every file as it is, and makes directories at most. Who reads the whole cache does not see
-- them, unless they uncover that its root cannot be read.
theorem failed_put_unseen (hroot : cache.root.Plain) {put : Put} {w left : World}
    (h : put.Fails cache w.disk left.disk) :
    left.disk.fileAt = w.disk.fileAt ∧
      (∀ l, left.disk.mark? l = w.disk.mark? l ∨
        w.disk.mark? l = none ∧ left.disk.mark? l = some .folder ∧ l <+: w.disk.spot (cache.folderFor put.package)) ∧
      ((cache.getAll.runIn left).1 = (cache.getAll.runIn w).1 ↔ ¬cache.Uncovers w.disk left.disk) := by
  have hleaves := h.leaves hroot
  obtain ⟨_, hbefore⟩ := reads_getAll cache w
  obtain ⟨_, hafter⟩ := reads_getAll cache left
  rw [hbefore, hafter]
  exact ⟨hleaves.fileAt_eq, hleaves.prefix_folderFor, hleaves.fuller.contents_eq_iff hroot⟩

-- A directory in place of the cache file, beside a package that is stored.

def obstructedCache : Cache := ⟨⟨.here, ["cache"]⟩⟩

def obstructedWorld : World :=
  .ofDisk (.ofFolder (.folder "cache" (.folder "a-1" (.folder "a-1.json" .empty .empty)
    (.folder "b-1" (.file "b-1.json" [0x5B, 0x5D] .empty) .empty)) .empty))

theorem failed_put_unseen_obstructed :
    ∃ failure left, (obstructedCache.put ⟨"a", "1"⟩ []).runIn obstructedWorld = (.error failure, left) ∧
      left.disk.fileAt = obstructedWorld.disk.fileAt ∧
      (obstructedCache.getAll.runIn left).1 = (obstructedCache.getAll.runIn obstructedWorld).1 := by
  have hroot : obstructedCache.root.Plain := by decide
  have hfailed : ((obstructedCache.put ⟨"a", "1"⟩ []).runIn obstructedWorld).1.isOk = false := by decide +kernel
  have hthere : (obstructedWorld.disk.hasEntry obstructedCache.root).toOption = some true := by decide +kernel
  rcases hrun : (obstructedCache.put ⟨"a", "1"⟩ []).runIn obstructedWorld with ⟨failure | file, left⟩
  · have hfails : Put.Fails obstructedCache ⟨⟨"a", "1"⟩, []⟩ obstructedWorld.disk left.disk := .refused hrun
    obtain ⟨hfiles, _, hread⟩ := failed_put_unseen hroot hfails
    refine ⟨failure, left, rfl, hfiles, hread.mpr ?_⟩
    rintro ⟨_, hmissing, _⟩
    rw [hmissing] at hthere
    cases hthere
  · rw [hrun] at hfailed
    cases hfailed

end CrateDocs.Cache
