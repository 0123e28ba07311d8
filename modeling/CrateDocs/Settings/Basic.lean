import CrateDocs.Settings.EnvFile
import CrateDocs.World

namespace CrateDocs

-- What the user can set: where the caches and the registry are, and how queries are answered.
structure Settings where
  cacheRoot : Option Path
  cargoHome : Option Path
  matchPolicy : MatchPolicy
deriving DecidableEq, Repr

namespace Settings

-- The file that settings are read from, beside the environment.
def fileName : String := ".env"

-- What the names of the variables start with.
def variableStart : String := "oxidoc_"

def lowerCase (s : String) : String :=
  String.ofList (s.toList.map Char.toLower)

-- The last value of a variable, whatever the case of its name.
def valueOf? (entries : List (String × Option String)) (name : String) : Option String :=
  ((entries.reverse.find? fun entry => lowerCase entry.1 == variableStart ++ name).map (·.2)).join

-- The settings that an environment and the lines of a file give. The environment comes first.
def ofEntries (environment : List (String × String)) (file : List (String × Option String)) :
    Except (List FunctionDoc.Problem) Settings :=
  let entries := environment.map fun (name, value) => (name, some value)
  let value? := fun name => (valueOf? entries name).or (valueOf? file name)
  let policy? : Option MatchPolicy := match value? "match_policy" with
    | none => some .exactThenSubstring
    | some text => ofTag? text
  match policy? with
  | none => .error [⟨.notTag, [.key "match_policy"]⟩]
  | some policy => .ok {
      cacheRoot := (value? "cache_root").map Path.ofText
      cargoHome := (value? "cargo_home").map Path.ofText
      matchPolicy := policy }

-- Reads the settings.
def read : Work Settings := do
  let w ← get
  let path := Path.ofText fileName
  let file ←
    if ← Work.ask fun d => d.isFile path then
      let bytes ← Work.ask fun d => d.read path
      match Utf8.decode? bytes with
      | some text => pure (EnvFile.parse w.environment text)
      | none => throw .notUtf8
    else pure []
  match ofEntries w.environment.reverse file with
  | .ok settings => return settings
  | .error problems => throw (.schema problems)

end Settings

end CrateDocs
