import CrateDocs.Log.Setup
import CrateDocs.Proofs.Log.Applied
import CrateDocs.Proofs.Text.Utf8

namespace CrateDocs

namespace Work

variable {α β : Type}

-- Work that does not look at the log and leaves everything as it was.
def Unlogged (work : Work α) : Prop :=
  ∀ w : World, ∃ result, ∀ log, work.runIn { w with log := log } = (result, { w with log := log })

theorem Unlogged.pure (a : α) : Unlogged (pure a) :=
  fun _ => ⟨.ok a, fun _ => rfl⟩

theorem Unlogged.throw (failure : Failure) : Unlogged (throw failure : Work α) :=
  fun _ => ⟨.error failure, fun _ => rfl⟩

theorem Unlogged.bind {work : Work α} {next : α → Work β} (h : Unlogged work) (hnext : ∀ a, Unlogged (next a)) :
    Unlogged (work >>= next) := by
  intro w
  obtain ⟨result, hrun⟩ := h w
  cases result with
  | error failure => exact ⟨.error failure, fun log => by rw [runIn_bind, hrun log]⟩
  | ok a =>
      obtain ⟨last, hlast⟩ := hnext a w
      refine ⟨last, fun log => ?_⟩
      rw [runIn_bind, hrun log]
      exact hlast log

theorem Unlogged.valueOf? (name : String) : Unlogged (valueOf? name) :=
  fun w => ⟨.ok (w.environment.lookup name), fun _ => rfl⟩

theorem Unlogged.ask (question : Disk → Except DiskError α) : Unlogged (ask question) := by
  intro w
  refine ⟨(question w.disk).mapError .disk, fun log => ?_⟩
  rw [Work.ask, runIn_get_bind]
  cases question w.disk <;> rfl

end Work

namespace Log

open Work (Unlogged)

theorem unlogged_configPath? (given : Option Path) : Unlogged (configPath? given) := by
  cases given with
  | some path => exact Unlogged.pure _
  | none => exact (Unlogged.valueOf? _).bind fun _ => Unlogged.pure _

section means

variable {Config : Type} {means : Means Config}

theorem unlogged_loadConfig (means : Means Config) (path? : Option Path) : Unlogged (loadConfig means path?) := by
  refine (Unlogged.valueOf? _).bind fun value => ?_
  cases path? with
  | none => exact Unlogged.pure _
  | some path =>
      refine (Unlogged.ask _).bind fun there => ?_
      cases there with
      | false => exact Unlogged.pure _
      | true =>
          refine (Unlogged.ask _).bind fun bytes => ?_
          split
          · exact Unlogged.throw _
          · split
            · exact Unlogged.throw _
            · exact Unlogged.pure _

theorem runIn_loadConfig_file {w : World} {path : Path} {text : String} {config : Config}
    (hthere : w.disk.hasEntry path = .ok true) (hread : w.disk.read path = .ok (Utf8.encode text))
    (hparse : means.read text = .ok config) (htelling : means.tells config = true) :
    (loadConfig means (some path)).runIn w = (.ok config, w) := by
  have hvalue : (Work.valueOf? levelVariable).runIn w = (.ok (w.environment.lookup levelVariable), w) := rfl
  rw [loadConfig, Work.runIn_bind_of_ok hvalue]
  simp only [Work.runIn_ask_bind, hthere, hread, Utf8.decode?_encode, hparse, htelling, if_true]
  rfl

theorem runIn_changeLog {change : Log → Outcome} {w : World} {log : Log} (h : change w.log = (.ok (), log)) :
    (changeLog change).runIn w = (.ok (), { w with log := log }) := by
  rw [changeLog, Work.runIn_get_bind, h]
  rfl

variable {given : Option Path} {w : World} {config : Config} {applied : Log} {name : String} {level : Level}

-- The configuration is applied first, and then the level is set.
theorem runIn_setup (hload : ((configPath? given >>= loadConfig means).runIn w).1 = .ok config)
    (haccept : means.apply config { w.log with configured := true } = (.ok (), applied))
    (hlevel : Level.ofName? name = some level) :
    (setup means given (some name)).runIn w =
      (.ok (), { w with log := leveledLoggers.foldl (fun log logger => log.setLevel logger level) applied }) := by
  let chosen : Log := { w.log with configured := true }
  obtain ⟨found, hfound⟩ := unlogged_configPath? given w
  rw [Work.runIn_bind, hfound w.log] at hload
  cases found with
  | error failure => cases hload
  | ok path? =>
      obtain ⟨loaded, hloaded⟩ := unlogged_loadConfig means path? w
      obtain rfl : loaded = .ok config := (congrArg Prod.fst (hloaded w.log)).symm.trans hload
      have hmodify : Work.runIn (modify fun w => { w with log := { w.log with configured := true } }) w =
          (.ok (), { w with log := chosen }) := rfl
      have hlevels : ∀ log : Log, setLevels name log =
          (.ok (), leveledLoggers.foldl (fun log logger => log.setLevel logger level) log) := by
        intro log
        rw [setLevels, hlevel]
      have hname : (some name).filter (· != "") = some name := by
        have hne : name ≠ "" := by
          rintro rfl
          cases hlevel
        simp [hne]
      rw [setup, Work.runIn_bind_of_ok (hfound w.log), Work.runIn_bind_of_ok hmodify,
        Work.runIn_bind_of_ok (hloaded chosen), Work.runIn_bind_of_ok (runIn_changeLog haccept), hname]
      exact runIn_changeLog (hlevels _)

-- The default configuration leaves no level below the topmost logger: one that a logger had is taken away, since the
-- topmost was known together with it.
theorem levelAfter_defaultConfig (text : String) (before : Log) {logger : String}
    (h : Text.startsWith (programName ++ ".") logger = true) :
    levelAfter (defaultConfig text) before logger = Level.unset := by
  have hne : logger ∉ (loggerEntries (defaultConfig text)).map (·.1) := by
    have hnames : (loggerEntries (defaultConfig text)).map (·.1) = [programName] := rfl
    rw [hnames, List.mem_singleton]
    rintro rfl
    exact absurd h (by decide)
  have hnot : isIncremental (defaultConfig text) = false := rfl
  rw [levelAfter, levelGiven?_of_notMem hne, Option.getD_none, hnot, Bool.not_false, Bool.true_and]
  by_cases hown : before.ownLevel logger = Level.unset
  · rw [hown, ite_self]
  · have hknown := mem_knownNames_of_ownLevel hown programName (above_of_startsWith h).1
    refine if_pos ?_
    rw [isCleared, Bool.and_eq_true, Bool.not_eq_true', List.any_eq_true]
    refine ⟨by simpa using hne, programName, List.mem_singleton.mpr rfl, ?_⟩
    rw [List.contains_iff_mem.mpr hknown, h]
    rfl

-- An explicit level is the one that decides for the loggers it is set on, however a configuration is read and applied.
-- For all loggers of the program it decides exactly if none of the others has a level of its own after the
-- configuration that is another one. With a table of sections that is a level which the table gives, or one from
-- before that it leaves. The default configuration neither gives nor leaves any.
theorem setup_explicit_level (hload : ((configPath? given >>= loadConfig means).runIn w).1 = .ok config)
    (haccept : means.apply config { w.log with configured := true } = (.ok (), applied))
    (hlevel : Level.ofName? name = some level) (hset : level ≠ Level.unset) :
    ∃ log, (setup means given (some name)).runIn w = (.ok (), { w with log := log }) ∧
      (∀ logger ∈ leveledLoggers, log.effectiveLevel logger = level) ∧
      ((∀ logger, OfProgram logger → log.effectiveLevel logger = level) ↔
        ∀ logger, OfProgram logger → logger ∉ leveledLoggers →
          applied.ownLevel logger = Level.unset ∨ applied.ownLevel logger = level) ∧
      (∀ kit table, means.apply config = applyConfig kit table →
        ∀ logger, applied.ownLevel logger = levelAfter table w.log logger) ∧
      ∀ kit text, means.apply config = applyConfig kit (defaultConfig text) →
        ∀ logger, OfProgram logger → log.effectiveLevel logger = level := by
  have hrun := runIn_setup hload haccept hlevel
  have hown := ownLevel_foldl_setLevel leveledLoggers level applied
  generalize leveledLoggers.foldl (fun log logger => log.setLevel logger level) applied = log at hown hrun
  have hleveled : ∀ logger ∈ leveledLoggers, log.ownLevel logger = level := by
    intro logger hlogger
    rw [hown, if_pos hlogger]
  have htop := hleveled programName List.mem_cons_self
  have hall : (∀ logger, OfProgram logger → log.effectiveLevel logger = level) ↔
      ∀ logger, OfProgram logger → logger ∉ leveledLoggers →
        applied.ownLevel logger = Level.unset ∨ applied.ownLevel logger = level := by
    rw [effectiveLevels_iff hset htop]
    refine forall₂_congr fun logger hlogger => ?_
    rw [hown]
    by_cases hmem : logger ∈ leveledLoggers
    · simp [hmem]
    · simp [hmem]
  have htable : ∀ kit table, means.apply config = applyConfig kit table →
      ∀ logger, applied.ownLevel logger = levelAfter table w.log logger := by
    intro kit table hmeans logger
    rw [hmeans] at haccept
    have hafter := ownLevel_applyConfig (congrArg Prod.fst haccept) logger
    rwa [haccept] at hafter
  refine ⟨log, hrun, ?_, hall, htable, ?_⟩
  · intro logger hlogger
    rw [effectiveLevel_of_own ((hleveled logger hlogger).trans_ne hset), hleveled logger hlogger]
  · intro kit text hmeans
    refine hall.mpr fun logger hlogger hnot => Or.inl ?_
    rcases hlogger with rfl | hbelow
    · exact absurd List.mem_cons_self hnot
    · rw [htable kit (defaultConfig text) hmeans]
      exact levelAfter_defaultConfig text w.log hbelow

end means

-- A file with a configuration that gives a level to a logger below the topmost.
def extractorText : String :=
  "version: 1\ndisable_existing_loggers: false\nloggers:\n  oxidoc.extractor:\n    level: DEBUG\n"

def extractorFile : Path := ⟨.here, ["log.yml"]⟩

def extractorWorld : World :=
  { World.ofDisk (.ofFolder (.file "log.yml" (Utf8.encode extractorText) .empty)) with log := initial Level.debug }

-- What is needed of the configuration, all from reading it once.
theorem read_extractorText :
    ∃ config applied, plainMeans.read extractorText = .ok config ∧ plainMeans.tells config = true ∧
      plainMeans.apply config { extractorWorld.log with configured := true } = (.ok (), applied) ∧
      applied.ownLevel "oxidoc.extractor" = Level.debug := by
  have hall : ((plainMeans.read extractorText).toOption.any fun config =>
      plainMeans.tells config &&
        (plainMeans.apply config { extractorWorld.log with configured := true }).1.isOk &&
        (plainMeans.apply config { extractorWorld.log with configured := true }).2.ownLevel "oxidoc.extractor" ==
          Level.debug) = true := by
    decide +kernel
  cases hread : plainMeans.read extractorText with
  | error flaw =>
      rw [hread] at hall
      cases hall
  | ok config =>
      rw [hread] at hall
      simp only [Except.toOption, Option.any_some, Bool.and_eq_true, beq_iff_eq] at hall
      obtain ⟨⟨htelling, hok⟩, hlevel⟩ := hall
      rcases happly : plainMeans.apply config { extractorWorld.log with configured := true } with ⟨_ | ⟨⟩, applied⟩
      · rw [happly] at hok
        cases hok
      · rw [happly] at hlevel
        exact ⟨config, applied, rfl, htelling, happly, hlevel⟩

theorem setup_explicit_level_extractor :
    ∃ config applied log,
      ((configPath? (some extractorFile) >>= loadConfig plainMeans).runIn extractorWorld).1 = .ok config ∧
      plainMeans.apply config { extractorWorld.log with configured := true } = (.ok (), applied) ∧
      Level.ofName? "WARNING" = some Level.warning ∧ Level.warning ≠ Level.unset ∧
      (setup plainMeans (some extractorFile) (some "WARNING")).runIn extractorWorld =
        (.ok (), { extractorWorld with log := log }) ∧
      log.effectiveLevel "oxidoc.driver" = Level.warning ∧
      ¬∀ logger, OfProgram logger → log.effectiveLevel logger = Level.warning := by
  obtain ⟨config, applied, hread, htelling, haccept, hlevel⟩ := read_extractorText
  have hload : ((configPath? (some extractorFile) >>= loadConfig plainMeans).runIn extractorWorld).1 = .ok config := by
    have hpath : (configPath? (some extractorFile)).runIn extractorWorld =
        (.ok (some extractorFile), extractorWorld) := rfl
    rw [Work.runIn_bind_of_ok hpath, runIn_loadConfig_file (by decide) rfl hread htelling]
  have hname : Level.ofName? "WARNING" = some Level.warning := by decide
  have hset : Level.warning ≠ Level.unset := by decide
  obtain ⟨log, hrun, hleveled, hall, _⟩ := setup_explicit_level hload haccept hname hset
  refine ⟨config, applied, log, hload, haccept, hname, hset, hrun, hleveled _ (by decide), fun heach => ?_⟩
  have hkept := hall.mp heach "oxidoc.extractor" (Or.inr (by decide)) (by decide)
  rw [hlevel] at hkept
  exact absurd hkept (by decide)

end Log

end CrateDocs
