import CrateDocs.Settings.Basic

namespace CrateDocs.Settings

-- The home directory of the user that a tilde names, or of the current one. Nobody can be asked about
-- under a name with a zero byte.
def homeOf? (user : String) : Work (Option String) := do
  let w ← get
  let found ←
    if user.isEmpty then pure ((w.environment.lookup "HOME").or w.ownHome)
    else if user.toList.contains '\x00' then throw (.disk ⟨.zeroByte, none⟩)
    else pure (w.users.lookup user)
  return found.map fun home =>
    let cut := Text.dropEndWhile (· == '/') home.toList
    if cut.isEmpty then "/" else String.ofList cut

-- A path with a tilde at its start replaced by a home directory.
def expandHome (path : Path) : Work Path := do
  match path.anchor, path.parts with
  | .here, first :: rest =>
    match first.toList with
    | '~' :: user =>
      match ← homeOf? (String.ofList user) with
      | none => throw .homeUnknown
      | some home =>
        if Text.startsWith "~" home then throw .homeUnknown
        else
          let start := Path.ofText home
          return ⟨start.anchor, start.parts ++ rest⟩
    | _ => return path
  | _, _ => return path

-- The home directory of the current user.
def home : Work Path :=
  try expandHome ⟨.here, ["~"]⟩
  catch
    | .homeUnknown => Work.fail .noHome
    | other => throw other

-- The folder of the caches.
def resolvedCacheRoot (settings : Settings) : Work Path := do
  match settings.cacheRoot with
  | some path => expandHome path
  | none => return (← home).child ".oxidoc"

-- The folder that holds the registry.
def resolvedCargoHome (settings : Settings) : Work Path := do
  match settings.cargoHome with
  | some path => expandHome path
  | none =>
    match (← Work.valueOf? "CARGO_HOME").filter (· != "") with
    | some path => return Path.ofText path
    | none => return (← home).child ".cargo"

end CrateDocs.Settings
