import CrateDocs.Log.State
import CrateDocs.Proofs.Text.Split

namespace CrateDocs

namespace Log

-- The loggers of the program: the topmost one, and all below it.
def OfProgram (name : String) : Prop :=
  name = programName ∨ Text.startsWith (programName ++ ".") name = true

theorem split_of_startsWith {name : String} (h : Text.startsWith (programName ++ ".") name = true) :
    ∃ pieces, pieces ≠ [] ∧ Text.split "." name = programName :: pieces := by
  obtain ⟨rest, hname⟩ := (Text.startsWith_iff _ _).mp h
  have hdot : '.' ∉ programName.toList := by decide
  have hsplit := Text.splitFrom_append [] rest programName.toList [] hdot
  refine ⟨(Text.splitFrom ['.'] 0 [] rest).map String.ofList, ?_, ?_⟩
  · rw [Ne, List.map_eq_nil_iff]
    exact Text.splitFrom_ne_nil _ _ _ _
  · have hmark : ".".toList = ['.'] := rfl
    rw [String.toList_append, hmark] at hname
    rw [Text.split, hname, hmark, hsplit, List.map_cons, List.reverse_nil, List.nil_append, String.ofList_toList]

-- The names above one that is below the topmost logger are those of the program's loggers, up to the topmost.
theorem above_of_startsWith {name : String} (h : Text.startsWith (programName ++ ".") name = true) :
    programName ∈ above name ∧ ∀ outer ∈ above name, OfProgram outer := by
  obtain ⟨pieces, hne, hsplit⟩ := split_of_startsWith h
  have hmem : ∀ outer, outer ∈ above name ↔
      ∃ n < pieces.length, ".".intercalate (programName :: pieces.take n) = outer := by
    simp [above, hsplit]
  constructor
  · refine (hmem _).mpr ⟨0, List.length_pos_iff.mpr hne, ?_⟩
    rw [List.take_zero, String.intercalate_singleton]
  · intro outer houter
    obtain ⟨n, _, rfl⟩ := (hmem outer).mp houter
    cases pieces.take n with
    | nil => exact Or.inl String.intercalate_singleton
    | cons piece more =>
        refine Or.inr ((Text.startsWith_iff _ _).mpr ⟨(".".intercalate (piece :: more)).toList, ?_⟩)
        rw [String.intercalate_cons_cons, String.toList_append]

-- What an operation on the log does to the levels of loggers.

theorem lookup_map_values {f : String → Logger → Logger} (loggers : List (String × Logger)) (name : String) :
    (loggers.map fun entry => (entry.1, f entry.1 entry.2)).lookup name = (loggers.lookup name).map (f name) := by
  induction loggers with
  | nil => rfl
  | cons entry loggers ih =>
      rw [List.map_cons, List.lookup_cons, List.lookup_cons]
      by_cases hname : name = entry.1
      · subst hname
        simp
      · simp only [beq_false_of_ne hname, ih]

variable {log : Log}

theorem ownLevel_touch (log : Log) (name other : String) : (log.touch name).ownLevel other = log.ownLevel other := by
  rw [touch]
  split
  · rfl
  · rw [ownLevel, ownLevel, logger?, logger?, List.lookup_append, List.lookup_cons, List.lookup_nil]
    cases log.loggers.lookup other with
    | some logger => rfl
    | none => cases other == name <;> rfl

theorem isSome_logger?_touch (log : Log) (name : String) : ((log.touch name).logger? name).isSome = true := by
  rw [touch]
  split
  · assumption
  · simp [logger?, List.lookup_append]

theorem logger?_change (log : Log) (name : String) (f : Logger → Logger) (other : String) :
    (log.change name f).logger? other =
      ((log.touch name).logger? other).map fun logger => if other = name then f logger else logger := by
  have hentries : (log.change name f).loggers = (log.touch name).loggers.map fun entry =>
      (entry.1, if entry.1 = name then f entry.2 else entry.2) := by
    rw [change]
    refine List.map_congr_left fun entry _ => ?_
    by_cases hname : entry.1 = name
    · simp [hname]
    · simp [hname]
  rw [logger?, hentries, lookup_map_values (f := fun entry logger => if entry = name then f logger else logger)]
  rfl

theorem ownLevel_setLevel (log : Log) (name : String) (level : Level) (other : String) :
    (log.setLevel name level).ownLevel other = if other = name then level else log.ownLevel other := by
  rw [ownLevel, setLevel, logger?_change, Option.map_map]
  by_cases hother : other = name
  · subst hother
    obtain ⟨logger, hlogger⟩ := Option.isSome_iff_exists.mp (log.isSome_logger?_touch other)
    simp [hlogger]
  · simp only [hother, if_false, ← log.ownLevel_touch name other]
    rfl

-- A change that leaves levels alone.
theorem ownLevel_change {f : Logger → Logger} (h : ∀ logger, (f logger).level = logger.level) (log : Log)
    (name other : String) : (log.change name f).ownLevel other = log.ownLevel other := by
  have hlevel : ((·.level) ∘ fun logger => if other = name then f logger else logger) = (·.level) := by
    funext logger
    by_cases hother : other = name <;> simp [hother, h]
  rw [ownLevel, logger?_change, Option.map_map, hlevel, ← log.ownLevel_touch name other]
  rfl

theorem ownLevel_foldl_setLevel (names : List String) (level : Level) (log : Log) (name : String) :
    (names.foldl (fun log logger => log.setLevel logger level) log).ownLevel name =
      if name ∈ names then level else log.ownLevel name := by
  induction names generalizing log with
  | nil => rfl
  | cons first names ih =>
      rw [List.foldl_cons, ih, ownLevel_setLevel]
      by_cases hnames : name ∈ names
      · simp [hnames]
      · simp [hnames]

-- A name that is not known has no level.
theorem ownLevel_of_notMem {name : String} (h : name ∉ log.knownNames) : log.ownLevel name = Level.unset := by
  have hnone : log.loggers.lookup name = none := by
    rw [List.lookup_eq_none_iff]
    intro entry hentry
    rw [bne_iff_ne]
    rintro rfl
    exact h (List.mem_flatMap.mpr ⟨entry, hentry, List.mem_cons_self⟩)
  rw [ownLevel, logger?, hnone]
  rfl

theorem mem_knownNames_of_ownLevel {name : String} (h : log.ownLevel name ≠ Level.unset) :
    ∀ outer ∈ above name, outer ∈ log.knownNames := by
  intro outer houter
  cases hlogger : log.loggers.lookup name with
  | none => exact absurd (by rw [ownLevel, logger?, hlogger]; rfl) h
  | some logger =>
      obtain ⟨before, after, hloggers, _⟩ := List.lookup_eq_some_iff.mp hlogger
      have hmem : (name, logger) ∈ log.loggers := by simp [hloggers]
      exact List.mem_flatMap.mpr ⟨_, hmem, List.mem_cons_of_mem _ houter⟩

-- Which level decides.

theorem effectiveLevel_of_own {name : String} (h : log.ownLevel name ≠ Level.unset) :
    log.effectiveLevel name = log.ownLevel name := by
  have hfind : (((name :: above name).map log.ownLevel).find? (· != Level.unset)) = some (log.ownLevel name) := by
    rw [List.map_cons, List.find?_cons_of_pos (by simpa using h)]
  rw [effectiveLevel, hfind]
  rfl

theorem effectiveLevel_of_chain {name : String} {level : Level} (hlevel : level ≠ Level.unset)
    (hsome : ∃ outer ∈ name :: above name, log.ownLevel outer = level)
    (hall : ∀ outer ∈ name :: above name, log.ownLevel outer = Level.unset ∨ log.ownLevel outer = level) :
    log.effectiveLevel name = level := by
  rw [effectiveLevel]
  cases hfind : ((name :: above name).map log.ownLevel).find? (· != Level.unset) with
  | none =>
      obtain ⟨outer, houter, hown⟩ := hsome
      have hunset := List.find?_eq_none.mp hfind _ (List.mem_map_of_mem houter)
      rw [hown] at hunset
      exact absurd (by simpa using hunset) hlevel
  | some found =>
      obtain ⟨outer, houter, rfl⟩ := List.mem_map.mp (List.mem_of_find?_eq_some hfind)
      have hset := List.find?_some hfind
      exact (hall outer houter).resolve_left (by simpa using hset)

-- With a level on the topmost logger, all loggers of the program come to it exactly if none of them has another.
theorem effectiveLevels_iff {level : Level} (hlevel : level ≠ Level.unset) (htop : log.ownLevel programName = level) :
    (∀ name, OfProgram name → log.effectiveLevel name = level) ↔
      ∀ name, OfProgram name → log.ownLevel name = Level.unset ∨ log.ownLevel name = level := by
  constructor
  · intro h name hname
    by_cases hown : log.ownLevel name = Level.unset
    · exact Or.inl hown
    · exact Or.inr ((effectiveLevel_of_own hown).symm.trans (h name hname))
  · rintro h name (rfl | hbelow)
    · rw [effectiveLevel_of_own (htop.trans_ne hlevel), htop]
    · obtain ⟨hmem, hprogram⟩ := above_of_startsWith hbelow
      refine effectiveLevel_of_chain hlevel ⟨programName, List.mem_cons_of_mem _ hmem, htop⟩ fun outer houter => ?_
      rcases List.mem_cons.mp houter with rfl | houter
      · exact h _ (Or.inr hbelow)
      · exact h outer (hprogram outer houter)

end Log

end CrateDocs
