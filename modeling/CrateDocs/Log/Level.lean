namespace CrateDocs

-- How much a message matters. Zero stands for no level of one's own.
abbrev Level := Int

namespace Level

def unset : Level := 0
def debug : Level := 10
def info : Level := 20
def warning : Level := 30
def error : Level := 40
def critical : Level := 50

-- The names that levels go by; of two names for one level the first is used.
def names : List (String × Level) :=
  [("CRITICAL", critical), ("FATAL", critical), ("ERROR", error), ("WARNING", warning), ("WARN", warning),
    ("INFO", info), ("DEBUG", debug), ("NOTSET", unset)]

def ofName? (name : String) : Option Level :=
  names.lookup name

def name (level : Level) : String :=
  match names.find? fun entry => entry.2 == level with
  | some (name, _) => name
  | none => "Level " ++ toString level

end Level

end CrateDocs
