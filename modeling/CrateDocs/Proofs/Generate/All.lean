import CrateDocs.Proofs.Generate.Apart

namespace CrateDocs.Generate

variable {grammar : Crate.Grammar} {cache : Cache}

-- The roots of the packages that were documented.
def succeeded (results : List (Path × Except Failure Package)) : List Path :=
  (results.filter (·.2.isOk)).map (·.1)

theorem succeeded_eq_nil_iff (results : List (Path × Except Failure Package)) :
    succeeded results = [] ↔ (Report.ofResults results).generated = [] := by
  rw [succeeded, List.map_eq_nil_iff, List.filter_eq_nil_iff, Report.ofResults, List.filterMap_eq_nil_iff]
  refine forall_congr' fun r => forall_congr' fun _ => ?_
  cases r.2 <;> simp [Except.isOk, Except.toBool, Except.toOption]

-- A run over all roots beside one over those that succeed. Neither has written anything but caches, and all that
-- the first has more is empty directories.
structure InStep (cache : Cache) (d alone left : Disk) : Prop where
  aside : cache.Beside d alone
  beside : cache.Beside d left
  fuller : cache.Fuller alone left

section step

variable (hroot : cache.root.Plain) {d alone left : Disk} {root : Path}

include hroot

theorem beside_generateAt (h : cache.Beside d left) : cache.Beside d (generateAt grammar cache root left).2 := by
  rcases generateAt_cases hroot grammar root left with ⟨_, _, hrun⟩ | ⟨_, _, _, hstores, _⟩
  · rw [hrun]
    exact h
  · exact h.stores hstores

theorem InStep.of_failed (h : InStep cache d alone left)
    (hfailed : ∀ package, (generateAt grammar cache root left).1 ≠ .ok package) :
    InStep cache d alone (generateAt grammar cache root left).2 := by
  refine ⟨h.aside, beside_generateAt hroot h.beside, ?_⟩
  rcases generateAt_cases hroot grammar root left with
    ⟨_, _, hrun⟩ | ⟨package, docs, _, hstores, hdone | ⟨trouble, hrefused, _⟩⟩
  · rw [hrun]
    exact h.fuller
  · exact absurd hdone.2 (hfailed package)
  · exact h.fuller.stores_of_refused hstores (by simp [hrefused])

theorem InStep.of_ok (h : InStep cache d alone left) (hapart : Apart grammar cache d root) {package : Package}
    (hok : (generateAt grammar cache root left).1 = .ok package) :
    (generateAt grammar cache root alone).1 = .ok package ∧
      InStep cache d (generateAt grammar cache root alone).2 (generateAt grammar cache root left).2 := by
  have hsame : prepareAt grammar root alone = prepareAt grammar root left :=
    (hapart.prepareAt_eq h.aside).trans (hapart.prepareAt_eq h.beside).symm
  rcases generateAt_cases hroot grammar root left with
    ⟨_, _, hrun⟩ | ⟨found, docs, hprepare, hstores, hdone | ⟨trouble, _, hfailed⟩⟩
  · rw [hrun] at hok
    cases hok
  · have hrefusal : cache.refusal? alone found = none := (h.fuller.refusal?_eq found).symm.trans hdone.1
    rw [hprepare] at hsame
    rcases generateAt_cases hroot grammar root alone with
      ⟨_, hprepare', _⟩ | ⟨found', docs', hprepare', hstores', hdone' | ⟨trouble, hrefused, _⟩⟩
    · rw [hprepare'] at hsame
      cases hsame
    · rw [hprepare'] at hsame
      cases hsame
      refine ⟨hdone'.2.trans (hdone.2.symm.trans hok), h.aside.stores hstores', h.beside.stores hstores, ?_⟩
      exact h.fuller.stores hstores' hstores
    · rw [hprepare'] at hsame
      cases hsame
      rw [hrefusal] at hrefused
      cases hrefused
  · rw [hok] at hfailed
    cases hfailed

-- A package that was documented is held with its functions, and all others are held as they were.

theorem holds_generateAt {package : Package} (hok : (generateAt grammar cache root left).1 = .ok package) :
    ∃ docs, prepareAt grammar root left = .ok (package, docs) ∧
      cache.Holds (generateAt grammar cache root left).2 package docs := by
  rw [generateAt] at hok ⊢
  cases hprepare : prepareAt grammar root left with
  | error failure =>
      rw [hprepare] at hok
      cases hok
  | ok prepared =>
      obtain ⟨found, docs⟩ := prepared
      rw [hprepare] at hok
      dsimp only at hok ⊢
      rcases hdone : left.replaceFileBelow (cache.fileFor found) (FunctionDoc.toBytes docs) with ⟨trouble | ⟨⟩, next⟩
      · rw [hdone] at hok
        cases hok
      · rw [hdone] at hok
        cases hok
        exact ⟨docs, rfl, (Cache.replaceFileBelow_fileFor hroot (prepareAt_eq_ok hprepare).1 hdone).2⟩

theorem holds_generateAt_iff {package : Package} (hother : (generateAt grammar cache root left).1 ≠ .ok package)
    (docs : List FunctionDoc) :
    cache.Holds (generateAt grammar cache root left).2 package docs ↔ cache.Holds left package docs := by
  rcases generateAt_cases hroot grammar root left with ⟨_, _, hrun⟩ | ⟨found, _, _, hstores, hdone⟩
  · rw [hrun]
  · refine hstores.holds_iff hroot fun hrefusal hpackage => ?_
    rcases hdone with ⟨_, hok⟩ | ⟨trouble, hrefused, _⟩
    · rw [hpackage] at hother
      exact hother hok
    · rw [hrefusal] at hrefused
      cases hrefused

end step

theorem worldAfter_append (roots more : List Path) (w : World) :
    worldAfter grammar cache (roots ++ more) w = worldAfter grammar cache more (worldAfter grammar cache roots w) :=
  List.foldl_append

section run

variable (hroot : cache.root.Plain)

include hroot

theorem beside_worldAfter {d : Disk} (roots : List Path) {w : World} (h : cache.Beside d w.disk) :
    cache.Beside d (worldAfter grammar cache roots w).disk := by
  induction roots generalizing w with
  | nil => exact h
  | cons root roots ih =>
      refine ih ?_
      rw [disk_leftBy]
      exact beside_generateAt hroot h

-- The run over the roots that succeed gives the same packages.
theorem runIn_mapM_generate {d : Disk} {roots : List Path} (hapart : ∀ root ∈ roots, Apart grammar cache d root)
    {w v : World} (h : InStep cache d v.disk w.disk) :
    ∃ alone, ((succeeded (results grammar cache roots w)).mapM (generate grammar cache)).runIn v =
        (.ok (Report.ofResults (results grammar cache roots w)).generated, alone) ∧
      InStep cache d alone.disk (worldAfter grammar cache roots w).disk ∧
      (succeeded (results grammar cache roots w) = [] ∨ alone.disk.hasEntry cache.root ≠ .ok false) := by
  induction roots generalizing w v with
  | nil => exact ⟨v, rfl, h, Or.inl rfl⟩
  | cons root roots ih =>
      rw [List.forall_mem_cons] at hapart
      have hleft : (leftBy grammar cache root w).disk = (generateAt grammar cache root w.disk).2 := disk_leftBy root w
      rw [results_cons, result_eq]
      cases hresult : (generateAt grammar cache root w.disk).1 with
      | error failure =>
          have hstep : InStep cache d v.disk (generateAt grammar cache root w.disk).2 :=
            h.of_failed hroot (by simp [hresult])
          rw [← hleft] at hstep
          exact ih hapart.2 hstep
      | ok package =>
          obtain ⟨hok, hstep⟩ := h.of_ok hroot hapart.1 hresult
          obtain ⟨events, hrun⟩ := runIn_generate_eq grammar cache root v
          obtain ⟨docs, _, hholds⟩ := holds_generateAt hroot hok
          rw [← hleft] at hstep
          obtain ⟨alone, halone, hlast, hthere⟩ := ih (v := { v with
            disk := (generateAt grammar cache root v.disk).2
            events := events }) hapart.2 hstep
          refine ⟨alone, ?_, hlast, ?_⟩
          · have hroots : succeeded ((root, .ok package) :: results grammar cache roots (leftBy grammar cache root w)) =
                root :: succeeded (results grammar cache roots (leftBy grammar cache root w)) := rfl
            rw [hroots, List.mapM_cons, Work.runIn_bind, hrun, hok]
            dsimp only
            rw [Work.runIn_bind, halone]
            rfl
          · rcases hthere with hnone | hthere
            · rw [hnone, List.mapM_nil] at halone
              obtain rfl := (Prod.mk.inj halone).2
              exact Or.inr hholds.hasName.there
            · exact Or.inr hthere

theorem holds_worldAfter_iff {roots : List Path} {w : World} {package : Package}
    (h : ∀ r ∈ results grammar cache roots w, r.2 ≠ .ok package) (docs : List FunctionDoc) :
    cache.Holds (worldAfter grammar cache roots w).disk package docs ↔ cache.Holds w.disk package docs := by
  induction roots generalizing w with
  | nil => exact Iff.rfl
  | cons root roots ih =>
      rw [results_cons, List.forall_mem_cons, result_eq] at h
      have hrest := ih h.2
      rw [disk_leftBy, holds_generateAt_iff hroot h.1] at hrest
      exact hrest

-- The last root that succeeds for a package decides what is held for it.
theorem holds_worldAfter {before after : List Path} {root : Path} {w : World} (hapart : Apart grammar cache w.disk root)
    {package : Package} (hok : result grammar cache root (worldAfter grammar cache before w) = .ok package)
    (hafter : ∀ r ∈ results grammar cache after (worldAfter grammar cache (before ++ [root]) w), r.2 ≠ .ok package) :
    ∃ docs, documentAt grammar (entryFile root w.disk) package.name w.disk = .ok docs ∧
      cache.Holds (worldAfter grammar cache (before ++ root :: after) w).disk package docs := by
  rw [result_eq] at hok
  obtain ⟨docs, hprepare, hholds⟩ := holds_generateAt hroot hok
  rw [hapart.prepareAt_eq (beside_worldAfter hroot before (Cache.Beside.refl cache w.disk))] at hprepare
  refine ⟨docs, (prepareAt_eq_ok hprepare).2, ?_⟩
  have hworld : worldAfter grammar cache (before ++ [root]) w =
      leftBy grammar cache root (worldAfter grammar cache before w) := by
    rw [worldAfter_append]
    rfl
  rw [← List.singleton_append, ← List.append_assoc, worldAfter_append, holds_worldAfter_iff hroot hafter, hworld,
    disk_leftBy]
  exact hholds

end run

theorem originsOfLast_append (failures : List (Path × Fault)) (root : Path) (f : Fault) :
    originsOfLast (failures ++ [(root, f)]) = .fault f :: f.origins := by
  induction failures with
  | nil => rw [List.nil_append, originsOfLast]
  | cons first failures ih =>
      cases failures with
      | nil => exact ih
      | cons next rest => exact ih

theorem conclude_ofResults {roots : List Path} {w : World} (hcalm : ∀ r ∈ results grammar cache roots w, Calm r.2) :
    (Report.ofResults (results grammar cache roots w)).conclude =
      if roots ≠ [] ∧ succeeded (results grammar cache roots w) = [] then
        .error (.fault (.allFailed (Report.ofResults (results grammar cache roots w)).failures))
      else .ok (Report.ofResults (results grammar cache roots w)) := by
  have hattempted := Report.attempted_ofResults hcalm
  rw [Report.attempted, length_results] at hattempted
  rw [Report.conclude]
  refine if_congr ?_ rfl rfl
  rw [succeeded_eq_nil_iff, and_comm]
  refine and_congr_left fun hnone => ?_
  rw [hnone, List.length_nil, Nat.zero_add] at hattempted
  rw [Ne, Ne, ← List.length_eq_zero_iff, ← List.length_eq_zero_iff, hattempted]

-- A run over many packages accounts for every root. What is held in the end is what the packages that succeed leave
-- if they are documented alone, in the same order, and a package that comes up again has the functions of its last
-- root. If there is none, a root of the cache that was missing before must be one that can be asked about and listed.
theorem generateAll_accounts (hroot : cache.root.Plain) {roots : List Path} {w : World}
    (hcalm : ∀ r ∈ results grammar cache roots w, Calm r.2)
    (hapart : ∀ root ∈ roots, Apart grammar cache w.disk root) :
    ∃ report left alone, report = Report.ofResults (results grammar cache roots w) ∧
      (results grammar cache roots w).map (·.1) = roots ∧ report.attempted = roots.length ∧
      (generateAll grammar cache roots).runIn w =
        (if roots ≠ [] ∧ succeeded (results grammar cache roots w) = [] then .error (.fault (.allFailed report.failures))
        else .ok report, left) ∧
      (∀ before root f, report.failures = before ++ [(root, f)] →
        (Fault.allFailed report.failures).origins = .fault f :: f.origins) ∧
      ((succeeded (results grammar cache roots w)).mapM (generate grammar cache)).runIn w =
        (.ok report.generated, alone) ∧
      ((succeeded (results grammar cache roots w) = [] → w.disk.hasEntry cache.root = .ok false →
          (∀ part ∈ cache.root.parts, Utf8.size part ≤ Disk.nameLimit) ∧ cache.root.text ∉ w.disk.limits.unlistable) →
        (cache.getAll.runIn left).1 = (cache.getAll.runIn alone).1) ∧
      ∀ before root after package, roots = before ++ root :: after →
        result grammar cache root (worldAfter grammar cache before w) = .ok package →
        (∀ r ∈ results grammar cache after (worldAfter grammar cache (before ++ [root]) w), r.2 ≠ .ok package) →
        ∃ docs, ((documentEntry grammar (entryFile root w.disk) package.name).runIn w).1 = .ok docs ∧
          cache.Holds left.disk package docs := by
  have hstart : InStep cache w.disk w.disk w.disk :=
    ⟨.refl cache w.disk, .refl cache w.disk, .of_same rfl rfl rfl⟩
  obtain ⟨events, hrun⟩ := runIn_generateAll hcalm
  obtain ⟨alone, halone, hstep, hthere⟩ := runIn_mapM_generate hroot hapart hstart
  have hattempted := Report.attempted_ofResults hcalm
  rw [length_results] at hattempted
  rw [conclude_ofResults hcalm] at hrun
  refine ⟨_, _, alone, rfl, map_fst_results roots w, hattempted, hrun, ?_, halone, ?_, ?_⟩
  · intro before root f hlast
    rw [Fault.origins, hlast, originsOfLast_append]
  · intro hreach
    obtain ⟨_, hleft⟩ := Cache.reads_getAll cache { worldAfter grammar cache roots w with events := events }
    obtain ⟨_, hread⟩ := Cache.reads_getAll cache alone
    rw [hleft, hread]
    refine hstep.fuller.contents_eq hroot fun hmissing => ?_
    rcases hthere with hnone | hthere
    · rw [hnone, List.mapM_nil] at halone
      obtain rfl := (Prod.mk.inj halone).2
      exact hreach hnone hmissing
    · exact absurd hmissing hthere
  · rintro before root after package rfl hok hafter
    have hpackage := hapart root (List.mem_append_right _ List.mem_cons_self)
    obtain ⟨docs, hdocs, hholds⟩ := holds_worldAfter hroot hpackage hok hafter
    obtain ⟨_, hdocument⟩ := reads_documentEntry grammar (entryFile root w.disk) package.name w
    exact ⟨docs, by rw [hdocument, hdocs], hholds⟩

-- A package and another one of a given name.
def twoPackages (name : String) : World :=
  .ofDisk (.ofFolder
    (.folder "a" (.file "Cargo.toml" (Utf8.encode "[package]\nname = 'a'\nversion = '1'")
      (.folder "src" (.file "lib.rs" (Utf8.encode "fn run()\x7b\x7d") .empty) .empty))
    (.folder "c" (.file "Cargo.toml" (Utf8.encode ("[package]\nname = '" ++ name ++ "'\nversion = '1'"))
      (.folder "src" (.file "lib.rs" (Utf8.encode "fn sum()\x7b\x7d") .empty) .empty)) .empty)))

-- Their roots, and one between them that holds no package.
def threeRoots : List Path := [⟨.here, ["a"]⟩, ⟨.here, ["b"]⟩, ⟨.here, ["c"]⟩]

theorem apart_twins : ∀ root ∈ threeRoots, Apart sampleGrammar sampleCache (twoPackages "a").disk root := by
  intro root hmem
  refine @apart_of_clear _ _ _ _ [Crate.Target.entry (entryFile root (twoPackages "a").disk)] List.mem_cons_self ?_ ?_ ?_
  all_goals
    revert root
    decide +kernel

theorem generateAll_accounts_twins :
    ∃ report left docs, (generateAll sampleGrammar sampleCache threeRoots).runIn (twoPackages "a") = (.ok report, left) ∧
      report.generated = [⟨"a", "1"⟩, ⟨"a", "1"⟩] ∧ report.failures.map (·.1) = [⟨.here, ["b"]⟩] ∧
      sampleCache.Holds left.disk ⟨"a", "1"⟩ docs ∧ docs.map (·.path) = [["a", "sum"]] := by
  have hreport : (∀ r ∈ results sampleGrammar sampleCache threeRoots (twoPackages "a"), Calm r.2) ∧
      (Report.ofResults (results sampleGrammar sampleCache threeRoots (twoPackages "a"))).generated =
        [⟨"a", "1"⟩, ⟨"a", "1"⟩] ∧
      (Report.ofResults (results sampleGrammar sampleCache threeRoots (twoPackages "a"))).failures.map (·.1) =
        [⟨.here, ["b"]⟩] := by
    decide +kernel
  have hpackage : (result sampleGrammar sampleCache ⟨.here, ["c"]⟩
      (worldAfter sampleGrammar sampleCache [⟨.here, ["a"]⟩, ⟨.here, ["b"]⟩] (twoPackages "a"))).toOption =
        some ⟨"a", "1"⟩ := by
    decide +kernel
  have hpaths : ((documentEntry sampleGrammar (entryFile ⟨.here, ["c"]⟩ (twoPackages "a").disk) "a").runIn
      (twoPackages "a")).1.toOption.map (·.map (·.path)) = some [["a", "sum"]] := by
    decide +kernel
  obtain ⟨report, left, _, rfl, _, _, hrun, _, _, _, hlast⟩ :=
    generateAll_accounts (by decide) hreport.1 apart_twins
  have hsome : succeeded (results sampleGrammar sampleCache threeRoots (twoPackages "a")) ≠ [] := by
    simp [succeeded_eq_nil_iff, hreport.2.1]
  rw [if_neg fun h => hsome h.2] at hrun
  obtain ⟨docs, hdocs, hholds⟩ := hlast [⟨.here, ["a"]⟩, ⟨.here, ["b"]⟩] ⟨.here, ["c"]⟩ [] ⟨"a", "1"⟩ rfl
    (congrArg Prod.fst (Work.runIn_eq_ok hpackage)) (by simp [results, trials])
  rw [hdocs] at hpaths
  exact ⟨_, left, docs, hrun, hreport.2.1, hreport.2.2, hholds, Option.some.inj hpaths⟩

end CrateDocs.Generate
