import CrateDocs.Proofs.Crate.Ends

namespace CrateDocs.Crate

open Syntax (Source Tree)

variable {grammar : Grammar} {d : Disk}

-- The place of a declared module that is too long to ask about. An attribute leaves no other place, and the nested
-- place is only asked for when nothing is at the flat one.
inductive Refused (d : Disk) (s : Source) (directory : Path) (decl : Declaration) : Path → Prop
  | given {target : String} (h : PathAttribute s decl.before target)
      (hlong : d.entry (attributeFile s directory decl target) = .error .nameTooLong) :
      Refused d s directory decl (attributeFile s directory decl target)
  | flat (h : ∀ target, ¬PathAttribute s decl.before target)
      (hlong : d.entry (flatFile directory decl) = .error .nameTooLong) :
      Refused d s directory decl (flatFile directory decl)
  | nested (h : ∀ target, ¬PathAttribute s decl.before target)
      (hflat : d.isFile (flatFile directory decl) = .ok false)
      (hlong : d.entry (nestedFile directory decl) = .error .nameTooLong) :
      Refused d s directory decl (nestedFile directory decl)

def tooLong (path : Path) : DiskError :=
  ⟨.nameTooLong, some path.text⟩

theorem isFile_eq_error_iff {file : Path} {e : DiskError} :
    d.isFile file = .error e ↔ d.entry file = .error .nameTooLong ∧ e = tooLong file :=
  Disk.test_eq_error_iff d file _ e

section located

variable {s : Source} {directory : Path} {decl : Declaration}

theorem locateDeclared_eq_error_iff {e : DiskError} :
    locateDeclared d s directory decl = .error e ↔ ∃ path, Refused d s directory decl path ∧ e = tooLong path := by
  by_cases hpath : ∃ target, PathAttribute s decl.before target
  · obtain ⟨target, htarget⟩ := hpath
    rw [locateDeclared_of_attribute htarget]
    constructor
    · intro h
      cases hfile : d.isFile (attributeFile s directory decl target) with
      | ok answer =>
          rw [hfile] at h
          cases h
      | error other =>
          rw [hfile] at h
          cases h
          obtain ⟨hlong, heq⟩ := isFile_eq_error_iff.mp hfile
          exact ⟨_, .given htarget hlong, heq⟩
    · rintro ⟨path, hrefused, rfl⟩
      cases hrefused with
      | given h hlong =>
          obtain rfl := h.unique htarget
          rw [isFile_eq_error_iff.mpr ⟨hlong, rfl⟩]
          rfl
      | flat h _ => exact absurd htarget (h target)
      | nested h _ _ => exact absurd htarget (h target)
  · rw [not_exists] at hpath
    rw [locateDeclared_of_none hpath]
    constructor
    · intro h
      rcases hflat : d.isFile (flatFile directory decl) with other | (_ | _)
      · rw [hflat] at h
        cases h
        obtain ⟨hlong, heq⟩ := isFile_eq_error_iff.mp hflat
        exact ⟨_, .flat hpath hlong, heq⟩
      · rw [hflat] at h
        cases hnested : d.isFile (nestedFile directory decl) with
        | ok answer =>
            rw [hnested] at h
            cases h
        | error other =>
            rw [hnested] at h
            cases h
            obtain ⟨hlong, heq⟩ := isFile_eq_error_iff.mp hnested
            exact ⟨_, .nested hpath hflat hlong, heq⟩
      · rw [hflat] at h
        cases h
    · rintro ⟨path, hrefused, rfl⟩
      cases hrefused with
      | given h _ => exact absurd h (hpath _)
      | flat _ hlong => rw [isFile_eq_error_iff.mpr ⟨hlong, rfl⟩]
      | nested _ hflat hlong =>
          rw [hflat]
          dsimp only
          rw [isFile_eq_error_iff.mpr ⟨hlong, rfl⟩]
          rfl

-- A module has no file: every test for one is answered, and none finds it.
structure Missing (d : Disk) (s : Source) (directory : Path) (decl : Declaration) : Prop where
  answered : Answered d s directory decl
  none : ∀ file beside, ¬Located d s directory decl file beside

theorem locateDeclared_eq_none_iff : locateDeclared d s directory decl = .ok none ↔ Missing d s directory decl := by
  constructor
  · intro h
    refine ⟨exists_locateDeclared_iff.mp ⟨_, h⟩, fun file beside hlocated => ?_⟩
    rw [(locateDeclared_eq_some_iff file beside).mpr hlocated] at h
    cases h
  · intro h
    obtain ⟨found?, hfound⟩ := exists_locateDeclared_iff.mpr h.answered
    cases found? with
    | none => exact hfound
    | some found => exact absurd ((locateDeclared_eq_some_iff found.1 found.2).mp hfound) (h.none _ _)

end located

-- The modules of a file are gone through in the order of their declarations, each with the modules in it before the
-- next one, and a file that was reached before is not opened again. From the files reached before, this leads to
-- those reached after, or to the first place that is too long to ask about.
inductive Walk (grammar : Grammar) (d : Disk) :
    Source → Path → List Declaration → List Location → Except Path (List Location) → Prop
  | nil {s : Source} {directory : Path} {seen : List Location} : Walk grammar d s directory [] seen (.ok seen)
  | refused {s : Source} {directory path : Path} {decl : Declaration} {decls : List Declaration} {seen : List Location}
      (h : Refused d s directory decl path) : Walk grammar d s directory (decl :: decls) seen (.error path)
  | missing {s : Source} {directory : Path} {decl : Declaration} {decls : List Declaration} {seen : List Location}
      {outcome : Except Path (List Location)} (h : Missing d s directory decl)
      (hrest : Walk grammar d s directory decls seen outcome) : Walk grammar d s directory (decl :: decls) seen outcome
  | again {s : Source} {directory file : Path} {beside : Bool} {decl : Declaration} {decls : List Declaration}
      {seen : List Location} {outcome : Except Path (List Location)} (h : Located d s directory decl file beside)
      (hseen : d.resolve file ∈ seen) (hrest : Walk grammar d s directory decls seen outcome) :
      Walk grammar d s directory (decl :: decls) seen outcome
  | stopped {s : Source} {directory file path : Path} {beside : Bool} {decl : Declaration} {decls : List Declaration}
      {seen : List Location} {bytes : List UInt8} (h : Located d s directory decl file beside)
      (hnew : d.resolve file ∉ seen) (hread : d.read file = .ok bytes)
      (hin : Walk grammar d ⟨file, bytes⟩ (childFolder file beside) (declarations ⟨file, bytes⟩ [] [] [] (grammar bytes))
        (seen ++ [d.resolve file]) (.error path)) :
      Walk grammar d s directory (decl :: decls) seen (.error path)
  | opened {s : Source} {directory file : Path} {beside : Bool} {decl : Declaration} {decls : List Declaration}
      {seen inside : List Location} {bytes : List UInt8} {outcome : Except Path (List Location)}
      (h : Located d s directory decl file beside) (hnew : d.resolve file ∉ seen) (hread : d.read file = .ok bytes)
      (hin : Walk grammar d ⟨file, bytes⟩ (childFolder file beside) (declarations ⟨file, bytes⟩ [] [] [] (grammar bytes))
        (seen ++ [d.resolve file]) (.ok inside))
      (hrest : Walk grammar d s directory decls inside outcome) :
      Walk grammar d s directory (decl :: decls) seen outcome

-- Loading a crate comes to a place that is too long to ask about.
def StopsAt (grammar : Grammar) (d : Disk) (entry path : Path) : Prop :=
  ∃ bytes, d.read entry = .ok bytes ∧
    Walk grammar d ⟨entry, bytes⟩ entry.parent (declarations ⟨entry, bytes⟩ [] [] [] (grammar bytes)) [d.resolve entry]
      (.error path)

-- What is left of an outcome of loading: the files that were reached.
def reached {α : Type} (outcome : Except DiskError (α × Progress)) : Except DiskError (List Location) :=
  outcome.map fun found => found.2.files

section runs

variable {load : Path → Path → Loading (Option Tree)} {s : Source} {directory : Path} {decl : Declaration}
  {decls : List Declaration} {p : Progress}

theorem reached_run_bind_pure {α β : Type} (x : Loading α) (f : α → β) (p : Progress) :
    reached ((x >>= fun a => pure (f a)).run p) = reached (x.run p) := by
  rw [Loading.run_bind_pure rfl]
  cases x.run p <;> rfl

theorem reached_loadDeclaration_refused {path : Path} (h : Refused d s directory decl path) :
    reached ((loadDeclaration load d s directory decl).run p) = .error (tooLong path) := by
  rw [loadDeclaration, loadModule, ← locateDeclared, locateDeclared_eq_error_iff.mpr ⟨path, h, rfl⟩]
  rfl

theorem reached_loadDeclaration_missing (h : Missing d s directory decl) :
    reached ((loadDeclaration load d s directory decl).run p) = .ok p.files := by
  rw [loadDeclaration, loadModule, ← locateDeclared, locateDeclared_eq_none_iff.mpr h]
  rfl

theorem reached_loadDeclaration_located {file : Path} {beside : Bool} (h : Located d s directory decl file beside) :
    reached ((loadDeclaration load d s directory decl).run p) =
      reached ((load file (childFolder file beside)).run p) := by
  rw [loadDeclaration, loadModule, ← locateDeclared,
    Loading.run_bind_of_ok (Loading.run_lift ((locateDeclared_eq_some_iff file beside).mpr h) p)]
  exact reached_run_bind_pure _ _ _

theorem reached_loadDeclarations_of_error {e : DiskError}
    (h : reached ((loadDeclaration load d s directory decl).run p) = .error e) :
    reached ((loadDeclarations load d s directory (decl :: decls)).run p) = .error e := by
  cases hrun : (loadDeclaration load d s directory decl).run p with
  | ok found =>
      rw [hrun] at h
      cases h
  | error other =>
      rw [hrun] at h
      cases h
      rw [loadDeclarations, Loading.run_bind_of_error hrun]
      rfl

theorem reached_loadDeclarations_of_ok {files : List Location} {outcome : Except DiskError (List Location)}
    (h : reached ((loadDeclaration load d s directory decl).run p) = .ok files)
    (hrest : ∀ q : Progress, q.files = files → reached ((loadDeclarations load d s directory decls).run q) = outcome) :
    reached ((loadDeclarations load d s directory (decl :: decls)).run p) = outcome := by
  cases hrun : (loadDeclaration load d s directory decl).run p with
  | error e =>
      rw [hrun] at h
      cases h
  | ok found =>
      rw [hrun] at h
      rw [loadDeclarations, Loading.run_bind_of_ok hrun, reached_run_bind_pure]
      exact hrest found.2 (Except.ok.inj h)

theorem reached_loadFile_again {limit : Nat} {file : Path} (h : d.resolve file ∈ p.files) :
    reached ((loadFile grammar d (limit + 1) file directory).run p) = .ok p.files := by
  rw [run_loadFile_again (t := ⟨file, directory⟩) h]
  rfl

theorem reached_loadFile_new {limit : Nat} {file : Path} {bytes : List UInt8} (hnew : d.resolve file ∉ p.files)
    (hread : d.read file = .ok bytes) :
    reached ((loadFile grammar d (limit + 1) file directory).run p) =
      reached ((loadDeclarations (loadFile grammar d limit) d ⟨file, bytes⟩ directory
        (declarations ⟨file, bytes⟩ [] [] [] (grammar bytes))).run
          ⟨p.diagnostics ++ Source.syntaxErrors ⟨file, bytes⟩ (grammar bytes), p.files ++ [d.resolve file]⟩) := by
  rw [run_loadFile_new hnew hread, loadModules_root _ d ⟨file, bytes⟩]
  exact reached_run_bind_pure _ _ _

end runs

-- What loading does is such a walk, once the bound on the depth is large enough.
theorem Walk.exists_bound {s : Source} {directory : Path} {decls : List Declaration} {seen : List Location}
    {outcome : Except Path (List Location)} (h : Walk grammar d s directory decls seen outcome) :
    ∃ bound, ∀ limit, bound ≤ limit → ∀ p : Progress, p.files = seen →
      reached ((loadDeclarations (loadFile grammar d limit) d s directory decls).run p) = outcome.mapError tooLong := by
  induction h with
  | nil =>
      refine ⟨0, fun limit _ p hp => ?_⟩
      rw [← hp]
      rfl
  | refused h =>
      exact ⟨0, fun limit _ p _ => reached_loadDeclarations_of_error (reached_loadDeclaration_refused h)⟩
  | missing h _ ih =>
      obtain ⟨bound, ih⟩ := ih
      refine ⟨bound, fun limit hlimit p hp => ?_⟩
      exact reached_loadDeclarations_of_ok (reached_loadDeclaration_missing h)
        fun q hq => ih limit hlimit q (hq.trans hp)
  | again h hseen _ ih =>
      obtain ⟨bound, ih⟩ := ih
      refine ⟨bound + 1, fun limit hlimit p hp => ?_⟩
      obtain ⟨less, rfl⟩ := Nat.exists_eq_add_of_le' (Nat.le_of_add_left_le hlimit)
      rw [← hp] at hseen
      exact reached_loadDeclarations_of_ok
        ((reached_loadDeclaration_located h).trans (reached_loadFile_again hseen))
        fun q hq => ih _ (by omega) q (hq.trans hp)
  | stopped h hnew hread _ ih =>
      obtain ⟨bound, ih⟩ := ih
      refine ⟨bound + 1, fun limit hlimit p hp => ?_⟩
      obtain ⟨less, rfl⟩ := Nat.exists_eq_add_of_le' (Nat.le_of_add_left_le hlimit)
      rw [← hp] at hnew
      refine reached_loadDeclarations_of_error ?_
      rw [reached_loadDeclaration_located h, reached_loadFile_new hnew hread]
      exact ih less (by omega) _ (by rw [hp])
  | opened h hnew hread _ _ ih ihrest =>
      obtain ⟨bound, ih⟩ := ih
      obtain ⟨other, ihrest⟩ := ihrest
      refine ⟨max bound other + 1, fun limit hlimit p hp => ?_⟩
      obtain ⟨less, rfl⟩ := Nat.exists_eq_add_of_le' (Nat.le_of_add_left_le hlimit)
      rw [← hp] at hnew
      refine reached_loadDeclarations_of_ok ?_ (ihrest _ (by omega))
      rw [reached_loadDeclaration_located h, reached_loadFile_new hnew hread]
      exact ih less (by omega) _ (by rw [hp])

-- A walk that comes to its end has only reached files, and still has all that were reached before.
structure Ended (d : Disk) (seen after : List Location) : Prop where
  spots : FileSpots d after
  length : seen.length ≤ after.length

-- There is always a walk, and it is finite: with every file that is opened, fewer are left.
theorem exists_walk (grammar : Grammar) (d : Disk) (left : Nat) (s : Source) (directory : Path)
    (decls : List Declaration) {seen : List Location} (hspots : FileSpots d seen)
    (hleft : d.root.fileCount < seen.length + left) :
    ∃ outcome, Walk grammar d s directory decls seen outcome ∧ ∀ after, outcome = .ok after → Ended d seen after := by
  induction left generalizing s directory decls seen with
  | zero =>
      have hcount := Folder.length_le_fileCount hspots.1 hspots.2
      omega
  | succ left ih =>
      induction decls generalizing seen with
      | nil =>
          refine ⟨_, .nil, ?_⟩
          rintro after ⟨⟩
          exact ⟨hspots, Nat.le_refl _⟩
      | cons decl decls ihdecls =>
          rcases hlocate : locateDeclared d s directory decl with e | (_ | ⟨file, beside⟩)
          · obtain ⟨path, hrefused, _⟩ := locateDeclared_eq_error_iff.mp hlocate
            exact ⟨_, .refused hrefused, nofun⟩
          · obtain ⟨outcome, hwalk, hended⟩ := ihdecls hspots hleft
            exact ⟨outcome, .missing (locateDeclared_eq_none_iff.mp hlocate) hwalk, hended⟩
          · have hlocated := (locateDeclared_eq_some_iff file beside).mp hlocate
            by_cases hseen : d.resolve file ∈ seen
            · obtain ⟨outcome, hwalk, hended⟩ := ihdecls hspots hleft
              exact ⟨outcome, .again hlocated hseen hwalk, hended⟩
            · obtain ⟨bytes, hread⟩ := exists_read_of_isFile hlocated.isFile
              obtain ⟨outcome, hwalk, hended⟩ := ih ⟨file, bytes⟩ (childFolder file beside)
                (declarations ⟨file, bytes⟩ [] [] [] (grammar bytes)) (hspots.append hseen hread)
                (by rw [List.length_append, List.length_singleton]; omega)
              cases outcome with
              | error path => exact ⟨_, .stopped hlocated hseen hread hwalk, nofun⟩
              | ok inside =>
                  have hinside := hended inside rfl
                  have hlonger := hinside.length
                  rw [List.length_append, List.length_singleton] at hlonger
                  obtain ⟨outcome, hrest, hlast⟩ := ihdecls hinside.spots (by omega)
                  refine ⟨outcome, .opened hlocated hseen hread hwalk hrest, fun after hafter => ?_⟩
                  have hend := hlast after hafter
                  exact ⟨hend.spots, by have := hend.length; omega⟩

-- Loading a crate only fails where it comes to a place that is too long to ask about.
theorem load_eq_error_iff {entry : Path} (hentry : d.isFile entry = .ok true) {e : DiskError} :
    load grammar d entry = .error e ↔ ∃ path, StopsAt grammar d entry path ∧ e = tooLong path := by
  obtain ⟨bytes, hread⟩ := exists_read_of_isFile hentry
  have hnew : d.resolve entry ∉ ([] : List Location) := List.not_mem_nil
  have hfails : ∀ outcome, Walk grammar d ⟨entry, bytes⟩ entry.parent
      (declarations ⟨entry, bytes⟩ [] [] [] (grammar bytes)) [d.resolve entry] outcome →
      reached (load grammar d entry) = outcome.mapError tooLong := by
    intro outcome hwalk
    obtain ⟨bound, hbound⟩ := hwalk.exists_bound
    obtain ⟨_, found, _, hfound⟩ := exists_ends grammar d entry entry.parent
    have hlimit := hfound (max bound (fileLimit d) + 1) (by omega)
    rw [load, hfound (fileLimit d) (Nat.le_refl _), ← hlimit, reached_loadFile_new hnew hread]
    exact hbound _ (by omega) _ rfl
  have hreached : load grammar d entry = .error e ↔ reached (load grammar d entry) = .error e := by
    cases load grammar d entry <;> simp [reached, Except.map]
  rw [hreached]
  constructor
  · intro h
    obtain ⟨outcome, hwalk, _⟩ := exists_walk grammar d (fileLimit d) ⟨entry, bytes⟩ entry.parent
      (declarations ⟨entry, bytes⟩ [] [] [] (grammar bytes))
      (FileSpots.append ⟨List.nodup_nil, by simp⟩ hnew hread) (by simp [fileLimit]; omega)
    rw [hfails outcome hwalk] at h
    cases outcome with
    | ok after => cases h
    | error path => exact ⟨path, ⟨bytes, hread, hwalk⟩, (Except.error.inj h).symm⟩
  · rintro ⟨path, ⟨other, hother, hwalk⟩, rfl⟩
    obtain rfl := Except.ok.inj (hread.symm.trans hother)
    exact hfails _ hwalk

end CrateDocs.Crate
