import CrateDocs.Log.Level
import CrateDocs.Text.Pieces

namespace CrateDocs

-- The name of the program, which its loggers and variables start with.
def programName : String := "oxidoc"

-- One source of messages.
structure Logger where
  level : Level
  disabled : Bool
deriving DecidableEq, Repr

-- The state of the log: the loggers there are, by name, the level of all that have none of their own,
-- and whether a configuration was chosen.
structure Log where
  loggers : List (String × Logger)
  rootLevel : Level
  configured : Bool
deriving DecidableEq, Repr

namespace Log

-- The names above a dotted name, the nearest first.
def above (name : String) : List String :=
  let parts := Text.split "." name
  ((List.range (parts.length - 1)).map fun n => ".".intercalate (parts.take (n + 1))).reverse

-- The names of the loggers, and those above them.
def knownNames (log : Log) : List String :=
  log.loggers.flatMap fun entry => entry.1 :: above entry.1

def logger? (log : Log) (name : String) : Option Logger :=
  log.loggers.lookup name

-- A logger's own level.
def ownLevel (log : Log) (name : String) : Level :=
  ((log.logger? name).map (·.level)).getD Level.unset

-- The level that decides for a logger: its own, or that of the nearest above it that has one.
def effectiveLevel (log : Log) (name : String) : Level :=
  (((name :: above name).map log.ownLevel).find? (· != Level.unset)).getD log.rootLevel

-- Whether a logger lets a message through.
def lets (log : Log) (name : String) (level : Level) : Bool :=
  !((log.logger? name).any (·.disabled)) && 0 < level && log.effectiveLevel name ≤ level

-- Makes sure that there is a logger of a name.
def touch (log : Log) (name : String) : Log :=
  if (log.logger? name).isSome then log
  else { log with loggers := log.loggers ++ [(name, ⟨Level.unset, false⟩)] }

-- Changes a logger, which is made first if there is none.
def change (log : Log) (name : String) (f : Logger → Logger) : Log :=
  let touched := log.touch name
  { touched with
    loggers := touched.loggers.map fun entry => if entry.1 == name then (name, f entry.2) else entry }

def setLevel (log : Log) (name : String) (level : Level) : Log :=
  log.change name fun logger => { logger with level := level }

-- The loggers of the program's parts.
def parts : List String :=
  ["oxidoc.cli", "oxidoc.driver", "oxidoc.extractor", "oxidoc.generator", "oxidoc.store", "oxidoc.syntax.rust"]

-- Every logger of the program, none of them with a level but the topmost.
def initial (level : Level) : Log where
  loggers := (programName, ⟨level, false⟩) :: parts.map fun name => (name, ⟨Level.unset, false⟩)
  rootLevel := Level.warning
  configured := true

end Log

end CrateDocs
