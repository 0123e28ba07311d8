import CrateDocs.Log.Kit
import CrateDocs.World
import CrateDocs.Yaml.Document

namespace CrateDocs.Log

-- The variables that name a configuration file and the level of the default configuration.
def configVariable : String := "OXIDOC_LOGGING_CONFIG"
def levelVariable : String := "OXIDOC_LOG_LEVEL"

-- The loggers that an explicit level is set on.
def leveledLoggers : List String :=
  ["oxidoc", "oxidoc.generator", "oxidoc.store", "oxidoc.driver"]

-- The configuration file in use: the given one, or the one that the environment names.
def configPath? (given : Option Path) : Work (Option Path) := do
  match given with
  | some path => return some path
  | none => return ((← Work.valueOf? configVariable).filter (· != "")).map Path.ofText

-- What a configuration is read and applied with: the reader of a file's text, whether what was read says anything,
-- the default configuration of a level, and how a configuration is applied.
structure Means (Config : Type) where
  read : String → Except Failure Config
  tells : Config → Bool
  fallback : String → Config
  apply : Config → Log → Outcome

-- The means of the program.
def plainMeans : Means Json where
  read text := (Yaml.parse text).mapError fun flaw => .log (.notYaml flaw)
  tells := isTelling
  fallback := defaultConfig
  apply := applyConfig plainKit

variable {Config : Type}

-- The configuration in a file. A file that is not there or says nothing means the default one.
def loadConfig (means : Means Config) (path? : Option Path) : Work Config := do
  let fallback := means.fallback ((← Work.valueOf? levelVariable).getD "INFO")
  match path? with
  | none => return fallback
  | some path =>
    if ← Work.ask fun d => d.hasEntry path then
      let bytes ← Work.ask fun d => d.read path
      match Utf8.decode? bytes with
      | none => throw .notUtf8
      | some text =>
        match means.read text with
        | .error failure => throw failure
        | .ok config => return if means.tells config then config else fallback
    else return fallback

-- Changes the log, which may fail half-way.
def changeLog (change : Log → Outcome) : Work Unit := do
  let w ← get
  let (result, log) := change w.log
  set { w with log := log }
  match result with
  | .ok () => return
  | .error flaw => throw (.log flaw)

-- Sets the level of some loggers by its name.
def setLevels (name : String) (log : Log) : Outcome :=
  match Level.ofName? name with
  | some level => (.ok (), leveledLoggers.foldl (fun log logger => log.setLevel logger level) log)
  | none => (.error (.unknownLevel name), log.touch programName)

-- Sets the log up from a configuration, and then to an explicit level if one is given.
def setup (means : Means Config) (given : Option Path) (level : Option String) : Work Unit := do
  let path? ← configPath? given
  modify fun w => { w with log := { w.log with configured := true } }
  let config ← loadConfig means path?
  changeLog (means.apply config)
  match level.filter (· != "") with
  | some name => changeLog (setLevels name)
  | none => return

-- Makes sure that there is a logger, and that the log was set up before.
def require (means : Means Config) (name : String) : Work Unit := do
  if !(← get).log.configured then setup means none none
  modify fun w => { w with log := w.log.touch name }

end CrateDocs.Log
