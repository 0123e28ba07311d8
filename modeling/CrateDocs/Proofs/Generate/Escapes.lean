import CrateDocs.Proofs.Crate.Stops
import CrateDocs.Proofs.Generate.Each

namespace CrateDocs

namespace Generate

section places

variable (root : Path) (d : Disk)

-- A place that an entry file is looked for at: there is no file at those before it.
def Next (places : List String) (place : String) : Prop :=
  ∃ earlier later, places = earlier ++ place :: later ∧ ∀ other ∈ earlier, d.isFile (root.child other) = .ok false

theorem next_or_none (places : List String) :
    (∀ place ∈ places, d.isFile (root.child place) = .ok false) ∨
      ∃ place, Next root d places place ∧ d.isFile (root.child place) ≠ .ok false := by
  induction places with
  | nil => exact Or.inl (by simp)
  | cons first places ih =>
      by_cases hfirst : d.isFile (root.child first) = .ok false
      · rcases ih with hnone | ⟨place, ⟨earlier, later, rfl, hearlier⟩, hplace⟩
        · exact Or.inl (List.forall_mem_cons.mpr ⟨hfirst, hnone⟩)
        · exact Or.inr ⟨place, ⟨first :: earlier, later, rfl, List.forall_mem_cons.mpr ⟨hfirst, hearlier⟩⟩, hplace⟩
      · exact Or.inr ⟨first, ⟨[], places, rfl, by simp⟩, hfirst⟩

variable {root d}

theorem firstFileAt_append {earlier : List String} (places : List String)
    (h : ∀ other ∈ earlier, d.isFile (root.child other) = .ok false) :
    firstFileAt root d (earlier ++ places) = firstFileAt root d places := by
  induction earlier with
  | nil => rfl
  | cons other earlier ih =>
      rw [List.forall_mem_cons] at h
      rw [List.cons_append, firstFileAt, h.1]
      exact ih h.2

theorem firstFileAt_of_none {places : List String} (h : ∀ place ∈ places, d.isFile (root.child place) = .ok false) :
    firstFileAt root d places = .error (.fault (.noEntryPoint root)) := by
  have hall := firstFileAt_append [] h
  rwa [List.append_nil] at hall

theorem firstFileAt_of_next {places : List String} {place : String} (h : Next root d places place)
    (hplace : d.isFile (root.child place) ≠ .ok false) :
    firstFileAt root d places = ((d.isFile (root.child place)).map fun _ => root.child place).mapError .disk := by
  obtain ⟨earlier, later, rfl, hearlier⟩ := h
  rw [firstFileAt_append _ hearlier, firstFileAt]
  rcases hfile : d.isFile (root.child place) with e | (_ | _)
  · rfl
  · exact absurd hfile hplace
  · rfl

theorem firstFileAt_eq_ok_iff {places : List String} {entry : Path} :
    firstFileAt root d places = .ok entry ↔
      ∃ place, Next root d places place ∧ d.isFile (root.child place) = .ok true ∧ entry = root.child place := by
  constructor
  · intro h
    rcases next_or_none root d places with hnone | ⟨place, hnext, hplace⟩
    · rw [firstFileAt_of_none hnone] at h
      cases h
    · rw [firstFileAt_of_next hnext hplace] at h
      rcases hfile : d.isFile (root.child place) with e | (_ | _)
      · rw [hfile] at h
        cases h
      · exact absurd hfile hplace
      · rw [hfile] at h
        exact ⟨place, hnext, hfile, (Except.ok.inj h).symm⟩
  · rintro ⟨place, hnext, hfile, rfl⟩
    rw [firstFileAt_of_next hnext (by simp [hfile]), hfile]
    rfl

end places

end Generate

-- What ends the steps of documenting a package, other than a fault of the program.

section steps

variable {failure : Failure} (hfailure : ∀ f, failure ≠ .fault f)

include hfailure

-- What the decoder of a manifest does not turn into a fault of the program.
inductive Manifest.Undecoded (limit : Nat) (bytes : List UInt8) : Failure → Prop
  | digits {text : String} {e : Text.TooManyDigits} (htext : Utf8.decode? bytes = some text)
      (h : Toml.parse limit text = .error (.digits e)) : Undecoded limit bytes (.digits e)
  | nested {text : String} (htext : Utf8.decode? bytes = some text) (h : Toml.parse limit text = .error .tooDeep) :
      Undecoded limit bytes .tooDeep

theorem Manifest.ofBytes_eq_error_iff {limit : Nat} {manifest : Path} {bytes : List UInt8} :
    ofBytes limit manifest bytes = .error failure ↔ Undecoded limit bytes failure := by
  constructor
  · intro h
    rw [ofBytes] at h
    split at h
    · exact absurd (Except.error.inj h).symm (hfailure _)
    · rename_i text htext
      split at h
      · rename_i e hparse
        cases h
        exact .digits htext hparse
      · rename_i hparse
        cases h
        exact .nested htext hparse
      · exact absurd (Except.error.inj h).symm (hfailure _)
      · rename_i fields hparse
        cases hpackage : packageOf manifest fields with
        | ok package =>
            rw [hpackage] at h
            cases h
        | error f =>
            rw [hpackage] at h
            exact absurd (Except.error.inj h).symm (hfailure f)
  · rintro (⟨htext, hparse⟩ | ⟨htext, hparse⟩)
    · simp only [ofBytes, htext, hparse]
    · simp only [ofBytes, htext, hparse]

theorem Manifest.readAt_eq_error_iff {root : Path} {d : Disk} :
    readAt root d = .error failure ↔
      '\x00' ∈ root.text.toList ∧ failure = .disk ⟨.zeroByte, some (root.child fileName).text⟩ ∨
        ∃ bytes, d.read (root.child fileName) = .ok bytes ∧ Undecoded d.limits.depth bytes failure := by
  have hname : isFileName fileName = true := by decide
  have hpath : '\x00' ∈ (root.child fileName).text.toList ↔ '\x00' ∈ root.text.toList := by
    rw [Path.child_of_isFileName root hname, Path.zero_mem_text_below]
    simp [zero_notMem_of_isFileName hname]
  rw [← hpath, readAt]
  by_cases hzero : '\x00' ∈ (root.child fileName).text.toList
  · simp [Disk.read_of_zeroByte d hzero, hzero, DiskError.fromSystem, eq_comm]
  · cases hread : d.read (root.child fileName) with
    | ok bytes => simp [hzero, ofBytes_eq_error_iff hfailure]
    | error e =>
        have hsystem := Disk.fromSystem_of_read hzero hread
        simp only [hzero, hsystem, if_true, false_and, false_or, reduceCtorEq, exists_const, iff_false,
          Except.error.injEq]
        split
        · exact Ne.symm (hfailure _)
        · exact Ne.symm (hfailure _)

namespace Generate

theorem firstFileAt_eq_error_iff {root : Path} {d : Disk} {places : List String} :
    firstFileAt root d places = .error failure ↔
      ∃ place, Next root d places place ∧ d.entry (root.child place) = .error .nameTooLong ∧
        failure = .disk (Crate.tooLong (root.child place)) := by
  constructor
  · intro h
    rcases next_or_none root d places with hnone | ⟨place, hnext, hplace⟩
    · rw [firstFileAt_of_none hnone] at h
      exact absurd (Except.error.inj h).symm (hfailure _)
    · rw [firstFileAt_of_next hnext hplace] at h
      cases hfile : d.isFile (root.child place) with
      | ok answer =>
          rw [hfile] at h
          cases h
      | error e =>
          rw [hfile] at h
          cases h
          obtain ⟨hlong, rfl⟩ := Crate.isFile_eq_error_iff.mp hfile
          exact ⟨place, hnext, hlong, rfl⟩
  · rintro ⟨place, hnext, hlong, rfl⟩
    have hfile := Crate.isFile_eq_error_iff.mpr ⟨hlong, rfl⟩
    rw [firstFileAt_of_next hnext (by simp [hfile]), hfile]
    rfl

theorem documentAt_eq_error_iff {grammar : Crate.Grammar} {entry : Path} {name : String} {d : Disk} :
    documentAt grammar entry name d = .error failure ↔
      ∃ e, Crate.load grammar d entry = .error e ∧ failure = .disk e := by
  rw [documentAt, Crate.parseAt]
  cases hload : Crate.load grammar d entry with
  | error e => simp [Except.mapError, Except.bind, eq_comm]
  | ok loaded =>
      simp only [reduceCtorEq, false_and, exists_false, iff_false]
      intro h
      cases haccept : Crate.accept entry loaded with
      | error other =>
          have hfault : ∃ f, other = .fault f := by
            unfold Crate.accept at haccept
            split at haccept
            · cases haccept
            · exact ⟨_, (Except.error.inj haccept).symm⟩
          obtain ⟨f, rfl⟩ := hfault
          simp only [Except.mapError, Except.bind, haccept, Except.error.injEq] at h
          exact hfailure f h.symm
      | ok crate =>
          simp only [Except.mapError, Except.bind, haccept] at h
          cases hdocs : Extract.functions crate.root (some name) with
          | ok found =>
              rw [hdocs] at h
              cases h
          | error f =>
              rw [hdocs] at h
              exact hfailure f (Except.error.inj h).symm

end Generate

end steps

namespace Generate

-- The ways in which documenting a package ends with something else than a package or a fault of the program. A
-- path has a zero byte, a manifest has a number with too many digits or values that are nested too deep, or a path
-- is too long to ask about: that of an entry file, or the first one that the name or the attribute of a module
-- leads to.
inductive Escapes (grammar : Crate.Grammar) (cache : Cache) (root : Path) (d : Disk) : Failure → Prop
  | root (h : '\x00' ∈ root.text.toList) :
      Escapes grammar cache root d (.disk ⟨.zeroByte, some (root.child Manifest.fileName).text⟩)
  | manifest {bytes : List UInt8} {failure : Failure} (hread : d.read (root.child Manifest.fileName) = .ok bytes)
      (h : Manifest.Undecoded d.limits.depth bytes failure) : Escapes grammar cache root d failure
  | entry {package : Package} {place : String} (hpackage : Manifest.readAt root d = .ok package)
      (hplace : Next root d Fault.entryPoints place) (h : d.entry (root.child place) = .error .nameTooLong) :
      Escapes grammar cache root d (.disk (Crate.tooLong (root.child place)))
  | module {package : Package} {place : String} {path : Path} (hpackage : Manifest.readAt root d = .ok package)
      (hplace : Next root d Fault.entryPoints place) (hfile : d.isFile (root.child place) = .ok true)
      (h : Crate.StopsAt grammar d (root.child place) path) :
      Escapes grammar cache root d (.disk (Crate.tooLong path))
  | cache {package : Package} {docs : List FunctionDoc} (hprepare : prepareAt grammar root d = .ok (package, docs))
      (h : '\x00' ∈ cache.root.text.toList) :
      Escapes grammar cache root d (.disk ⟨.zeroByte, some (cache.folderFor package).text⟩)

variable {grammar : Crate.Grammar} {cache : Cache} {root : Path} {d : Disk}

theorem Escapes.ne_fault {failure : Failure} (h : Escapes grammar cache root d failure) (f : Fault) :
    failure ≠ .fault f := by
  cases h with
  | manifest _ h => cases h <;> exact nofun
  | root | entry | module | cache => exact nofun

-- The failures that come before a cache is replaced.
theorem escapes_of_prepareAt {failure : Failure} (hfailure : ∀ f, failure ≠ .fault f)
    (h : prepareAt grammar root d = .error failure) : Escapes grammar cache root d failure := by
  rw [prepareAt] at h
  cases hpackage : Manifest.readAt root d with
  | error other =>
      rw [hpackage] at h
      cases h
      rcases (Manifest.readAt_eq_error_iff hfailure).mp hpackage with ⟨hzero, rfl⟩ | ⟨bytes, hread, hbytes⟩
      · exact .root hzero
      · exact .manifest hread hbytes
  | ok package =>
      rw [hpackage] at h
      dsimp only [Except.bind] at h
      cases hentry : firstFileAt root d Fault.entryPoints with
      | error other =>
          rw [hentry] at h
          cases h
          obtain ⟨place, hplace, hlong, rfl⟩ := (firstFileAt_eq_error_iff hfailure).mp hentry
          exact .entry hpackage hplace hlong
      | ok entry =>
          rw [hentry] at h
          dsimp only [Except.bind] at h
          cases hdocs : documentAt grammar entry package.name d with
          | ok docs =>
              rw [hdocs] at h
              cases h
          | error other =>
              rw [hdocs] at h
              cases h
              obtain ⟨place, hplace, hfile, rfl⟩ := firstFileAt_eq_ok_iff.mp hentry
              obtain ⟨e, hload, rfl⟩ := (documentAt_eq_error_iff hfailure).mp hdocs
              obtain ⟨path, hstops, rfl⟩ := (Crate.load_eq_error_iff hfile).mp hload
              exact .module hpackage hplace hfile hstops

theorem generateAt_eq_error_iff {failure : Failure} (hfailure : ∀ f, failure ≠ .fault f) :
    (generateAt grammar cache root d).1 = .error failure ↔ Escapes grammar cache root d failure := by
  constructor
  · intro h
    rw [generateAt] at h
    cases hprepare : prepareAt grammar root d with
    | error other =>
        rw [hprepare] at h
        cases h
        exact escapes_of_prepareAt hfailure hprepare
    | ok prepared =>
        obtain ⟨package, docs⟩ := prepared
        rw [hprepare] at h
        dsimp only at h
        by_cases hzero : '\x00' ∈ cache.root.text.toList
        · rw [Cache.replaceFileBelow_fileFor_zero hzero] at h
          cases h
          exact .cache hprepare hzero
        · rcases hput : d.replaceFileBelow (cache.fileFor package) (FunctionDoc.toBytes docs) with ⟨trouble | ⟨⟩, left⟩
          · rw [hput] at h
            dsimp only at h
            rw [Cache.fromSystem_of_replaceFileBelow hzero hput, if_pos rfl] at h
            exact absurd (Except.error.inj h).symm (hfailure _)
          · rw [hput] at h
            cases h
  · intro h
    rw [generateAt]
    cases h with
    | root hzero =>
        have hpackage := (Manifest.readAt_eq_error_iff hfailure (d := d)).mpr (Or.inl ⟨hzero, rfl⟩)
        rw [prepareAt, hpackage]
        rfl
    | manifest hread hbytes =>
        have hpackage := (Manifest.readAt_eq_error_iff hfailure).mpr (Or.inr ⟨_, hread, hbytes⟩)
        rw [prepareAt, hpackage]
        rfl
    | entry hpackage hplace hlong =>
        have hentry := (firstFileAt_eq_error_iff hfailure).mpr ⟨_, hplace, hlong, rfl⟩
        rw [prepareAt, hpackage]
        dsimp only [Except.bind]
        rw [hentry]
    | @module package place path hpackage hplace hfile hstops =>
        have hload := (Crate.load_eq_error_iff hfile).mpr ⟨path, hstops, rfl⟩
        have hdocs : documentAt grammar (root.child place) package.name d = .error (.disk (Crate.tooLong path)) :=
          (documentAt_eq_error_iff hfailure).mpr ⟨_, hload, rfl⟩
        rw [prepareAt, hpackage]
        dsimp only [Except.bind]
        rw [firstFileAt_eq_ok_iff.mpr ⟨_, hplace, hfile, rfl⟩]
        dsimp only
        rw [hdocs]
    | @cache package docs hprepare hzero =>
        rw [hprepare]
        dsimp only
        rw [Cache.replaceFileBelow_fileFor_zero hzero]
        rfl

theorem not_calm_iff {failure : Failure} : ¬Calm (.error failure) ↔ ∀ f, failure ≠ .fault f := by
  cases failure <;> simp [Calm]

-- A package that does not escape is documented or fails with a fault.
theorem calm_result {w : World} (h : ∀ failure, ¬Escapes grammar cache root w.disk failure) :
    Calm (result grammar cache root w) := by
  rw [result_eq]
  cases hresult : (generateAt grammar cache root w.disk).1 with
  | ok package => trivial
  | error failure =>
      by_contra hcalm
      exact h failure ((generateAt_eq_error_iff (not_calm_iff.mp hcalm)).mp hresult)

theorem calm_results {roots : List Path} {w : World}
    (h : ∀ t ∈ trials grammar cache roots w, ∀ failure, ¬Escapes grammar cache t.1 t.2.disk failure) :
    ∀ r ∈ results grammar cache roots w, Calm r.2 := by
  intro r hr
  obtain ⟨t, ht, rfl⟩ := List.mem_map.mp hr
  exact calm_result (h t ht)

-- If every package failed, the failures are those of all roots.
theorem map_fst_failures {results : List (Path × Except Failure Package)} (hcalm : ∀ r ∈ results, Calm r.2)
    (hnone : (Report.ofResults results).generated = []) :
    (Report.ofResults results).failures.map (·.1) = results.map (·.1) := by
  rw [Report.ofResults] at hnone ⊢
  induction results with
  | nil => rfl
  | cons first results ih =>
      rw [List.forall_mem_cons] at hcalm
      obtain ⟨root, failure | package⟩ := first
      · cases failure with
        | fault f =>
            have hrest := ih hcalm.2 hnone
            simpa [List.filterMap_cons, failureOf?] using hrest
        | _ => exact hcalm.1.elim
      · cases hnone

end Generate

end CrateDocs
