import CrateDocs.Proofs.Generate.Effect

namespace CrateDocs

namespace Generate

-- Documenting a package as a question to the disk, with the disk that it leaves.
def generateAt (grammar : Crate.Grammar) (cache : Cache) (root : Path) (d : Disk) : Except Failure Package × Disk :=
  match prepareAt grammar root d with
  | .error failure => (.error failure, d)
  | .ok (package, docs) =>
    match d.replaceFileBelow (cache.fileFor package) (FunctionDoc.toBytes docs) with
    | (.ok (), left) => (.ok package, left)
    | (.error trouble, left) =>
      (.error (if trouble.error.fromSystem then .fault (.cacheNotWritten (cache.fileFor package) trouble)
        else .disk trouble.error), left)

theorem runIn_generate_eq (grammar : Crate.Grammar) (cache : Cache) (root : Path) (w : World) :
    ∃ events, (generate grammar cache root).runIn w =
      ((generateAt grammar cache root w.disk).1,
        { w with disk := (generateAt grammar cache root w.disk).2, events := events }) := by
  obtain ⟨events, hrun⟩ := runIn_generate grammar cache root w
  rw [hrun, generateAt]
  cases prepareAt grammar root w.disk with
  | error failure => exact ⟨events, rfl⟩
  | ok prepared =>
      obtain ⟨package, docs⟩ := prepared
      obtain ⟨events, hput⟩ := Cache.runIn_put cache package docs { w with events := events }
      refine ⟨events, ?_⟩
      dsimp only
      rw [Work.runIn_bind, hput]
      rcases w.disk.replaceFileBelow (cache.fileFor package) (FunctionDoc.toBytes docs) with ⟨trouble | ⟨⟩, left⟩ <;> rfl

section run

variable (grammar : Crate.Grammar) (cache : Cache)

-- What documenting a package comes to in a world, and the world that is left for the next package.

def result (root : Path) (w : World) : Except Failure Package :=
  ((generate grammar cache root).runIn w).1

def leftBy (root : Path) (w : World) : World :=
  ((attempt grammar cache root).runIn w).2

-- A run over many packages: every root with the world it is attempted in.
def trials : List Path → World → List (Path × World)
  | [], _ => []
  | root :: rest, w => (root, w) :: trials rest (leftBy grammar cache root w)

def worldAfter (roots : List Path) (w : World) : World :=
  roots.foldl (fun w root => leftBy grammar cache root w) w

def results (roots : List Path) (w : World) : List (Path × Except Failure Package) :=
  (trials grammar cache roots w).map fun (root, w) => (root, result grammar cache root w)

end run

-- A result that is a package or a fault of the program itself.
def Calm : Except Failure Package → Prop
  | .ok _ | .error (.fault _) => True
  | .error _ => False

instance (r : Except Failure Package) : Decidable (Calm r) :=
  match r with
  | .ok _ | .error (.fault _) => .isTrue trivial
  | .error (.disk _) | .error (.manifest _) | .error (.unknownTag _ _) | .error .homeUnknown | .error (.digits _)
  | .error (.schema _) | .error (.log _) | .error .notUtf8 | .error (.broken _) | .error .noPath
  | .error (.unencodable _) | .error (.unserializable _) | .error .tooDeep | .error (.otherNode _) => .isFalse id

def failureOf? : Path × Except Failure Package → Option (Path × Fault)
  | (root, .error (.fault f)) => some (root, f)
  | _ => none

-- What there is to report of some results.
def Report.ofResults (results : List (Path × Except Failure Package)) : Report where
  generated := results.filterMap (·.2.toOption)
  failures := results.filterMap failureOf?

theorem Report.attempted_ofResults {results : List (Path × Except Failure Package)}
    (h : ∀ r ∈ results, Calm r.2) : (Report.ofResults results).attempted = results.length := by
  rw [attempted, ofResults]
  induction results with
  | nil => rfl
  | cons first results ih =>
      rw [List.forall_mem_cons] at h
      have hrest := ih h.2
      obtain ⟨root, failure | package⟩ := first
      · cases failure with
        | fault f =>
            simp only [List.filterMap_cons, failureOf?, Except.toOption, List.length_cons] at hrest ⊢
            omega
        | _ => exact absurd h.1 (by simp [Calm])
      · simp only [List.filterMap_cons, failureOf?, Except.toOption, List.length_cons] at hrest ⊢
        omega

variable {grammar : Crate.Grammar} {cache : Cache}

theorem results_cons (root : Path) (roots : List Path) (w : World) :
    results grammar cache (root :: roots) w =
      (root, result grammar cache root w) :: results grammar cache roots (leftBy grammar cache root w) :=
  rfl

theorem map_fst_trials (roots : List Path) (w : World) : (trials grammar cache roots w).map (·.1) = roots := by
  induction roots generalizing w with
  | nil => rfl
  | cons root roots ih => rw [trials, List.map_cons, ih]

theorem map_fst_results (roots : List Path) (w : World) : (results grammar cache roots w).map (·.1) = roots := by
  rw [results, List.map_map]
  exact map_fst_trials roots w

theorem length_results (roots : List Path) (w : World) : (results grammar cache roots w).length = roots.length := by
  rw [← List.length_map, map_fst_results]

-- One attempt.

theorem runIn_attempt_ok {root : Path} {w left : World} {package : Package}
    (h : (generate grammar cache root).runIn w = (.ok package, left)) :
    (attempt grammar cache root).runIn w = (.ok (.ok package), left) := by
  rw [attempt, Work.runIn_tryCatch, Work.runIn_map, h]
  rfl

theorem runIn_attempt_fault {root : Path} {w left : World} {f : Fault}
    (h : (generate grammar cache root).runIn w = (.error (.fault f), left)) :
    ∃ events, (attempt grammar cache root).runIn w = (.ok (.error f), { left with events := events }) := by
  have hnote : Work.Reads (do
      Work.note (.packageFailed root (.fault f))
      return (.error f : Except Fault Package)) fun _ => .ok (.error f) :=
    Work.Reads.note_bind _ (Work.Reads.pure _)
  obtain ⟨events, hrun⟩ := hnote left
  rw [attempt, Work.runIn_tryCatch, Work.runIn_map, h]
  exact ⟨events, hrun⟩

theorem runIn_attempt_escape {root : Path} {w left : World} {failure : Failure}
    (h : (generate grammar cache root).runIn w = (.error failure, left)) (hfailure : ¬Calm (.error failure)) :
    (attempt grammar cache root).runIn w = (.error failure, left) := by
  rw [attempt, Work.runIn_tryCatch, Work.runIn_map, h]
  cases failure with
  | fault f => exact absurd trivial hfailure
  | _ => rfl

theorem result_eq (root : Path) (w : World) :
    result grammar cache root w = (generateAt grammar cache root w.disk).1 := by
  obtain ⟨events, hrun⟩ := runIn_generate_eq grammar cache root w
  rw [result, hrun]

-- An attempt adds to the log, and leaves the disk as documenting the package alone does.
theorem disk_leftBy (root : Path) (w : World) :
    (leftBy grammar cache root w).disk = (generateAt grammar cache root w.disk).2 := by
  have hleft : ((generate grammar cache root).runIn w).2.disk = (generateAt grammar cache root w.disk).2 := by
    obtain ⟨events, hrun⟩ := runIn_generate_eq grammar cache root w
    rw [hrun]
  rw [leftBy, ← hleft]
  rcases hrun : (generate grammar cache root).runIn w with ⟨failure | package, left⟩
  · by_cases hcalm : Calm (.error failure)
    · cases failure with
      | fault f =>
          obtain ⟨events, hattempt⟩ := runIn_attempt_fault hrun
          rw [hattempt]
      | _ => exact hcalm.elim
    · rw [runIn_attempt_escape hrun hcalm]
  · rw [runIn_attempt_ok hrun]

-- The whole run, as long as nothing but faults of the program comes up.
theorem runIn_generateEach {roots : List Path} {w : World} (h : ∀ r ∈ results grammar cache roots w, Calm r.2) :
    (generateEach grammar cache roots).runIn w =
      (.ok (Report.ofResults (results grammar cache roots w)), worldAfter grammar cache roots w) := by
  induction roots generalizing w with
  | nil => rfl
  | cons root roots ih =>
      rw [results_cons, List.forall_mem_cons, result] at h
      have hrest := ih h.2
      rw [leftBy] at hrest
      rw [generateEach, Work.runIn_bind, results_cons, worldAfter, List.foldl_cons, result, leftBy]
      rcases hrun : (generate grammar cache root).runIn w with ⟨failure | package, left⟩
      · rw [hrun] at h
        cases failure with
        | fault f =>
            obtain ⟨events, hattempt⟩ := runIn_attempt_fault hrun
            rw [hattempt] at hrest ⊢
            dsimp only at hrest ⊢
            rw [Work.runIn_bind, hrest]
            rfl
        | _ => exact h.1.elim
      · have hattempt := runIn_attempt_ok hrun
        rw [hattempt] at hrest ⊢
        dsimp only at hrest ⊢
        rw [Work.runIn_bind, hrest]
        rfl

-- Anything else ends the run at once.
theorem runIn_generateEach_stopped {before : List Path} (after : List Path) {root : Path} {w left : World}
    {failure : Failure}
    (hbefore : ∀ r ∈ results grammar cache before w, Calm r.2)
    (h : (generate grammar cache root).runIn (worldAfter grammar cache before w) = (.error failure, left))
    (hfailure : ¬Calm (.error failure)) :
    (generateEach grammar cache (before ++ root :: after)).runIn w = (.error failure, left) := by
  induction before generalizing w with
  | nil =>
      have hattempt : (attempt grammar cache root).runIn w = (.error failure, left) := runIn_attempt_escape h hfailure
      rw [List.nil_append, generateEach, Work.runIn_bind, hattempt]
  | cons first before ih =>
      rw [results_cons, List.forall_mem_cons, result] at hbefore
      have hrest := ih hbefore.2 h
      rw [leftBy] at hrest
      rw [List.cons_append, generateEach, Work.runIn_bind]
      rcases hrun : (generate grammar cache first).runIn w with ⟨other | package, next⟩
      · rw [hrun] at hbefore
        cases other with
        | fault f =>
            obtain ⟨events, hattempt⟩ := runIn_attempt_fault hrun
            rw [hattempt] at hrest ⊢
            dsimp only at hrest ⊢
            rw [Work.runIn_bind, hrest]
        | _ => exact hbefore.1.elim
      · have hattempt := runIn_attempt_ok hrun
        rw [hattempt] at hrest ⊢
        dsimp only at hrest ⊢
        rw [Work.runIn_bind, hrest]

-- What a run comes to in the end.
def Report.conclude (report : Report) : Except Failure Report :=
  if report.generated = [] ∧ report.failures ≠ [] then .error (.fault (.allFailed report.failures)) else .ok report

theorem runIn_generateAll {roots : List Path} {w : World} (h : ∀ r ∈ results grammar cache roots w, Calm r.2) :
    ∃ events, (generateAll grammar cache roots).runIn w =
      ((Report.ofResults (results grammar cache roots w)).conclude,
        { worldAfter grammar cache roots w with events := events }) := by
  rw [generateAll, Work.runIn_bind, runIn_generateEach h]
  generalize Report.ofResults (results grammar cache roots w) = report
  generalize worldAfter grammar cache roots w = left
  obtain ⟨generated, failures⟩ := report
  have hnote : ∀ event report, ∃ events, Work.runIn (do
      Work.note event
      return (report : Report)) left = (.ok report, { left with events := events }) := by
    intro event report
    have hreads : Work.Reads (do
        Work.note event
        return report) fun _ => .ok report := Work.Reads.note_bind event (Work.Reads.pure report)
    exact hreads left
  cases generated with
  | nil =>
      cases failures with
      | nil => exact hnote _ _
      | cons failure failures => exact ⟨left.events, rfl⟩
  | cons package generated => cases failures <;> exact hnote _ _

theorem runIn_generateAll_stopped {roots : List Path} {w left : World} {failure : Failure}
    (h : (generateEach grammar cache roots).runIn w = (.error failure, left)) :
    (generateAll grammar cache roots).runIn w = (.error failure, left) := by
  rw [generateAll, Work.runIn_bind, h]

end Generate

end CrateDocs
