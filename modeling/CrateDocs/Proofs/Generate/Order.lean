import CrateDocs.Proofs.Generate.All

namespace CrateDocs

-- A refusal of the system names the directory that was tried, and follows on what was tried before. Both depend on the
-- directories that other packages have made in the meantime; what is told of a fault does not.

def Fault.told : Fault → Fault
  | .cacheNotWritten file trouble => .cacheNotWritten file (.first ⟨trouble.error.refusal, none⟩)
  | f => f

def Failure.told : Failure → Failure
  | .fault f => .fault f.told
  | .disk e => .disk ⟨e.refusal, none⟩
  | failure => failure

theorem Fault.message_told (f : Fault) : f.told.message = f.message := by
  cases f <;> rfl

namespace Generate

variable {grammar : Crate.Grammar} {cache : Cache} {d e : Disk} {root : Path}

open Cache (Put)

-- The identities that the manifests of some roots give, as far as they can be read.
def identities (d : Disk) (roots : List Path) : List Package :=
  roots.filterMap fun root => (Manifest.readAt root d).toOption

-- The calls to a cache that documenting some packages comes to, as far as there is something to store.
def calls (grammar : Crate.Grammar) (d : Disk) (roots : List Path) : List Put :=
  roots.flatMap fun root =>
    match prepareAt grammar root d with
    | .ok (package, docs) => [⟨package, docs⟩]
    | .error _ => []

theorem readAt_of_prepareAt {package : Package} {docs : List FunctionDoc}
    (h : prepareAt grammar root d = .ok (package, docs)) : Manifest.readAt root d = .ok package := by
  obtain ⟨found, hpackage, h⟩ := Work.bind_eq_ok h
  obtain ⟨entry, _, h⟩ := Work.bind_eq_ok h
  obtain ⟨all, _, h⟩ := Work.bind_eq_ok h
  cases h
  exact hpackage

def toldResult (r : Path × Except Failure Package) : Path × Except Failure Package :=
  (r.1, r.2.mapError Failure.told)

section step

variable (hroot : cache.root.Plain) {puts : List Put}

include hroot

-- A package comes to the same, and makes the same call, wherever in the run it is documented.
theorem generateAt_filled (hapart : Apart grammar cache d root)
    (hnew : ∀ package, Manifest.readAt root d = .ok package → ∀ put ∈ puts, put.package ≠ package)
    (h : cache.Filled d e puts) :
    (generateAt grammar cache root e).1.mapError Failure.told =
        (generateAt grammar cache root d).1.mapError Failure.told ∧
      cache.Filled d (generateAt grammar cache root e).2 (puts ++ calls grammar d [root]) := by
  have hsame := hapart.prepareAt_eq h.beside
  rw [calls, List.flatMap_singleton]
  rcases generateAt_cases hroot grammar root d with ⟨failure, hprepare, hrun⟩ | ⟨package, docs, hprepare, _, hdone⟩
  · rw [hprepare] at hsame ⊢
    rcases generateAt_cases hroot grammar root e with ⟨failure', hprepare', hrun'⟩ | ⟨_, _, hprepare', _⟩
    · rw [hsame] at hprepare'
      cases hprepare'
      rw [hrun, hrun']
      dsimp only
      rw [List.append_nil]
      exact ⟨rfl, h⟩
    · rw [hsame] at hprepare'
      cases hprepare'
  · rw [hprepare] at hsame ⊢
    have hothers := hnew package (readAt_of_prepareAt hprepare)
    rcases generateAt_cases hroot grammar root e with ⟨_, hprepare', _⟩ | ⟨found, docs', hprepare', hstores, hdone'⟩
    · rw [hsame] at hprepare'
      cases hprepare'
    · rw [hsame] at hprepare'
      cases hprepare'
      refine ⟨?_, h.stores hothers hstores⟩
      rw [h.refusal?_eq hothers] at hdone'
      rcases hdone with ⟨hstored, hok⟩ | ⟨trouble, hrefused, hfailed⟩
      · rcases hdone' with ⟨_, hok'⟩ | ⟨trouble', hrefused', _⟩
        · rw [hok, hok']
        · rw [hstored] at hrefused'
          cases hrefused'
      · rcases hdone' with ⟨hstored', _⟩ | ⟨trouble', hrefused', hfailed'⟩
        · rw [hstored'] at hrefused
          cases hrefused
        · have hrefusal : trouble'.error.refusal = trouble.error.refusal := by
            rw [hrefused] at hrefused'
            exact (Option.some.inj hrefused').symm
          have hsystem : trouble'.error.fromSystem = trouble.error.fromSystem := by
            rw [DiskError.fromSystem, DiskError.fromSystem, hrefusal]
          rw [hfailed, hfailed', hsystem]
          cases trouble.error.fromSystem with
          | true =>
              simp only [if_true, Except.mapError, Failure.told, Fault.told, hrefusal]
          | false =>
              simp only [Bool.false_eq_true, if_false, Except.mapError, Failure.told, hrefusal]

-- So does every package of a run.
theorem results_filled {roots : List Path} (hapart : ∀ root ∈ roots, Apart grammar cache d root)
    (hdistinct : (identities d roots).Nodup) {w : World}
    (hnew : ∀ put ∈ puts, put.package ∉ identities d roots) (h : cache.Filled d w.disk puts) :
    (results grammar cache roots w).map toldResult =
        roots.map (fun root => toldResult (root, (generateAt grammar cache root d).1)) ∧
      cache.Filled d (worldAfter grammar cache roots w).disk (puts ++ calls grammar d roots) := by
  induction roots generalizing w puts with
  | nil =>
      rw [calls, List.flatMap_nil, List.append_nil]
      exact ⟨rfl, h⟩
  | cons root roots ih =>
      rw [List.forall_mem_cons] at hapart
      have hroots : identities d (root :: roots) = (Manifest.readAt root d).toOption.toList ++ identities d roots := by
        rw [identities, List.filterMap_cons, identities]
        cases (Manifest.readAt root d).toOption <;> rfl
      rw [hroots] at hdistinct hnew
      have hfirst : ∀ package, Manifest.readAt root d = .ok package → ∀ put ∈ puts, put.package ≠ package := by
        rintro package hread put hput rfl
        exact hnew put hput (by simp [hread, Except.toOption])
      obtain ⟨htold, hstep⟩ := generateAt_filled hroot hapart.1 hfirst h
      rw [← disk_leftBy root w] at hstep
      have hrest : ∀ put ∈ puts ++ calls grammar d [root], put.package ∉ identities d roots := by
        intro put hput hmem
        rcases List.mem_append.mp hput with hput | hput
        · exact hnew put hput (List.mem_append_right _ hmem)
        · rw [calls, List.flatMap_singleton] at hput
          split at hput
          · rename_i package docs hprepare
            rw [List.mem_singleton.mp hput] at hmem
            rw [readAt_of_prepareAt hprepare] at hdistinct
            exact (List.nodup_append.mp hdistinct).2.2 package (by simp [Except.toOption]) package hmem rfl
          · cases hput
      obtain ⟨hresults, hlast⟩ := ih hapart.2 (List.nodup_append.mp hdistinct).2.1 hrest hstep
      constructor
      · rw [results_cons, List.map_cons, List.map_cons, hresults, result_eq, toldResult, toldResult, htold]
      · have hcalls : calls grammar d (root :: roots) = calls grammar d [root] ++ calls grammar d roots := by
          rw [← List.singleton_append, calls, List.flatMap_append, calls, calls]
        rw [List.append_assoc, ← hcalls] at hlast
        exact hlast

end step

-- What is reported can be told from what the packages come to.

theorem generated_toldResult (results : List (Path × Except Failure Package)) :
    (results.map toldResult).filterMap (·.2.toOption) = (Report.ofResults results).generated := by
  rw [Report.ofResults, List.filterMap_map]
  refine List.filterMap_congr fun r _ => ?_
  obtain ⟨root, failure | package⟩ := r <;> rfl

theorem failures_toldResult (results : List (Path × Except Failure Package)) :
    (results.map toldResult).filterMap failureOf? =
      (Report.ofResults results).failures.map fun (root, f) => (root, f.told) := by
  rw [Report.ofResults, List.filterMap_map, List.map_filterMap]
  refine List.filterMap_congr fun r _ => ?_
  obtain ⟨root, failure | package⟩ := r
  · cases failure <;> rfl
  · rfl

theorem calm_toldResult (r : Path × Except Failure Package) : Calm (toldResult r).2 ↔ Calm r.2 := by
  obtain ⟨root, failure | package⟩ := r
  · cases failure <;> rfl
  · rfl

theorem Report.exists_error_iff {report report' : Report}
    (hgenerated : report'.generated.length = report.generated.length)
    (hfailures : report'.failures.length = report.failures.length) :
    (∃ failure, report'.conclude = .error failure) ↔ ∃ failure, report.conclude = .error failure := by
  have hiff : ∀ report : Report, (∃ failure, report.conclude = .error failure) ↔
      report.generated.length = 0 ∧ report.failures.length ≠ 0 := by
    intro report
    simp only [conclude, ne_eq, List.length_eq_zero_iff]
    by_cases hall : report.generated = [] ∧ ¬report.failures = [] <;> simp [hall]
  rw [hiff, hiff, hgenerated, hfailures]

-- The order of the packages does not matter. Whether a package can be stored does not depend on those that were
-- stored before it, nor on the directories that were made for them.
theorem generateAll_perm (hroot : cache.root.Plain) {roots roots' : List Path} {w : World}
    (hcalm : ∀ r ∈ results grammar cache roots w, Calm r.2)
    (hapart : ∀ root ∈ roots, Apart grammar cache w.disk root) (hdistinct : (identities w.disk roots).Nodup)
    (hperm : roots'.Perm roots) :
    ∃ (report report' : Report) (left left' : World),
      (generateAll grammar cache roots).runIn w = (report.conclude, left) ∧
      (generateAll grammar cache roots').runIn w = (report'.conclude, left') ∧
      (cache.getAll.runIn left').1 = (cache.getAll.runIn left).1 ∧
      ((∃ failure, report'.conclude = .error failure) ↔ ∃ failure, report.conclude = .error failure) ∧
      report'.generated.Perm report.generated ∧
      (report'.failures.map fun (root, f) => (root, f.told)).Perm (report.failures.map fun (root, f) => (root, f.told)) ∧
      (report'.failures.map fun (root, f) => (root, f.message)).Perm
        (report.failures.map fun (root, f) => (root, f.message)) := by
  have hapart' : ∀ root ∈ roots', Apart grammar cache w.disk root := fun root hmem => hapart root (hperm.mem_iff.mp hmem)
  have hdistinct' : (identities w.disk roots').Nodup := (hperm.filterMap _).nodup_iff.mpr hdistinct
  obtain ⟨hresults, hfilled⟩ := results_filled hroot hapart hdistinct (by simp) (Cache.Filled.refl cache w.disk)
  obtain ⟨hresults', hfilled'⟩ := results_filled hroot hapart' hdistinct' (by simp) (Cache.Filled.refl cache w.disk)
  have hsame : ((results grammar cache roots' w).map toldResult).Perm
      ((results grammar cache roots w).map toldResult) := by
    rw [hresults, hresults']
    exact hperm.map _
  have hcalm' : ∀ r ∈ results grammar cache roots' w, Calm r.2 := by
    intro r hr
    obtain ⟨other, hother, htold⟩ := List.mem_map.mp (hsame.mem_iff.mp (List.mem_map_of_mem hr))
    rw [← calm_toldResult, ← htold, calm_toldResult]
    exact hcalm other hother
  have hgenerated := hsame.filterMap (·.2.toOption)
  have hfailures := hsame.filterMap failureOf?
  rw [generated_toldResult, generated_toldResult] at hgenerated
  rw [failures_toldResult, failures_toldResult] at hfailures
  have hlength := hfailures.length_eq
  rw [List.length_map, List.length_map] at hlength
  obtain ⟨events, hrun⟩ := runIn_generateAll hcalm
  obtain ⟨events', hrun'⟩ := runIn_generateAll hcalm'
  refine ⟨_, _, _, _, hrun, hrun', ?_, Report.exists_error_iff hgenerated.length_eq hlength, hgenerated, hfailures, ?_⟩
  · obtain ⟨_, hleft⟩ := Cache.reads_getAll cache { worldAfter grammar cache roots w with events := events }
    obtain ⟨_, hleft'⟩ := Cache.reads_getAll cache { worldAfter grammar cache roots' w with events := events' }
    have hcalls : ([] ++ calls grammar w.disk roots').Perm ([] ++ calls grammar w.disk roots) := hperm.flatMap_right _
    have hmarks := hfilled.mark?_perm hfilled' hcalls
    have hhere := hfilled'.here.trans hfilled.here.symm
    have hfuller : cache.Fuller (worldAfter grammar cache roots w).disk (worldAfter grammar cache roots' w).disk :=
      .of_same hhere (hfilled'.limits.trans hfilled.limits.symm) hmarks
    rw [hleft, hleft']
    exact hfuller.contents_of_entry hroot (Disk.Agree.entry ⟨hhere, fun l _ => congrFun hmarks l⟩)
  · have hmessages := hfailures.map fun (root, f) => (root, f.message)
    simpa only [List.map_map, Function.comp_def, Fault.message_told] using hmessages

theorem generateAll_perm_reversed :
    ∃ (report report' : Report) (left left' : World),
      (generateAll sampleGrammar sampleCache threeRoots).runIn (twoPackages "c") = (.ok report, left) ∧
      (generateAll sampleGrammar sampleCache threeRoots.reverse).runIn (twoPackages "c") = (report'.conclude, left') ∧
      report.generated = [⟨"a", "1"⟩, ⟨"c", "1"⟩] ∧ report'.generated.Perm report.generated ∧
      (sampleCache.getAll.runIn left').1 = (sampleCache.getAll.runIn left).1 := by
  have hcalm : ∀ r ∈ results sampleGrammar sampleCache threeRoots (twoPackages "c"), Calm r.2 := by
    decide +kernel
  have hapart : ∀ root ∈ threeRoots, Apart sampleGrammar sampleCache (twoPackages "c").disk root := by
    intro root hmem
    refine @apart_of_clear _ _ _ _ [Crate.Target.entry (entryFile root (twoPackages "c").disk)] List.mem_cons_self ?_ ?_ ?_
    all_goals
      revert root
      decide +kernel
  have hgenerated : ((generateAll sampleGrammar sampleCache threeRoots).runIn (twoPackages "c")).1.toOption.map
      (·.generated) = some [⟨"a", "1"⟩, ⟨"c", "1"⟩] := by
    decide +kernel
  obtain ⟨report, report', left, left', hrun, hrun', hall, _, hperm, _⟩ :=
    generateAll_perm (by decide) hcalm hapart (by decide +kernel) (List.reverse_perm threeRoots)
  rw [hrun, Report.conclude] at hgenerated
  rw [Report.conclude] at hrun
  split at hgenerated
  · cases hgenerated
  · rename_i hsome
    rw [if_neg hsome] at hrun
    exact ⟨report, report', left, left', hrun, hrun', Option.some.inj hgenerated, hperm, hall⟩

end Generate

end CrateDocs
