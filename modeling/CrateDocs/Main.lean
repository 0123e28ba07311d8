import CrateDocs.Command.Run
import CrateDocs.Rust.Parse

namespace CrateDocs.Main

-- The variables of the environment that the program looks at.
def watched : List String :=
  ["HOME", "CARGO_HOME", "OXIDOC_CACHE_ROOT", "OXIDOC_CARGO_HOME", "OXIDOC_MATCH_POLICY",
    Log.configVariable, Log.levelVariable]

def readEnvironment : IO (List (String × String)) := do
  let values ← watched.mapM fun name => (IO.getEnv name : IO (Option String))
  return (watched.zip values).filterMap fun (name, value) => value.map fun text => (name, text)

-- The result of some reading, or `fallback` if it is not possible.
def orElse {α : Type} (reading : IO α) (fallback : α) : IO α :=
  tryCatch reading fun _ => return fallback

-- The users there are: name, number and home directory.
def readAccounts : IO (List (String × String × String)) := do
  let lines := Text.split "\n" (← orElse (IO.FS.readFile "/etc/passwd") "")
  return lines.filterMap fun line =>
    match Text.split ":" line with
    | [name, _, number, _, _, home, _] => some (name, number, home)
    | _ => none

-- The number of the user that the program runs as.
def readOwnNumber : IO (Option String) := do
  let lines := Text.split "\n" (← orElse (IO.FS.readFile "/proc/self/status") "")
  return lines.findSome? fun line =>
    match Text.split "\t" line with
    | "Uid:" :: number :: _ => some number
    | _ => none

-- How deep folders are read.
def depthLimit : Nat := 64

-- The part of a folder's content with wanted names.
def readFolder (wanted : String → Bool) : Nat → String → IO Folder
  | 0, _ => return .empty
  | limit + 1, place => do
    let there ← IO.FS.realPath place
    let mut content := Folder.empty
    for entry in ← there.readDir do
      let name := entry.fileName
      if ← entry.path.isDir then
        content := content.insert name (.folder (← readFolder wanted limit (place ++ "/" ++ name)))
      else if wanted name then
        let bytes ← orElse (IO.FS.readBinFile entry.path) ByteArray.empty
        content := content.insert name (.file bytes.toList)
    return content

-- Puts what a path leads to on the disk of a world, if there is anything.
def load (wanted : String → Bool) (w : World) (p : Path) : IO World := do
  let entry ←
    orElse (do return some (Entry.folder (← readFolder wanted depthLimit p.text)))
      (← orElse (do return some (Entry.file (← IO.FS.readBinFile p.text).toList)) none)
  match entry with
  | none => return w
  | some found =>
    let disk := (w.disk.makeFolders p.parent).2
    return { w with disk := disk.put (disk.resolve p) found }

-- Whether a file of a name matters for the documentation of a package.
def isSource (name : String) : Bool :=
  name == Manifest.fileName || name.endsWith ".rs"

-- The folder of sources that a command line needs.
def sourcesOf (settings : Settings) (words : List String) (w : World) : Option Path :=
  match Command.Request.read words with
  | .ok (.request { generate := some [target], .. }) =>
    if target == Command.everyPackage then
      ((settings.resolvedCargoHome.runIn w).1.toOption).map fun home => home.child "registry/src"
    else some (Path.ofText target)
  | _ => none

-- Every file at or below an entry, with its path.
def filesBelow (p : Path) : Folder → List (Path × List UInt8)
  | .empty => []
  | .file name content rest => (p.child name, content) :: filesBelow p rest
  | .folder name inner rest => filesBelow (p.child name) inner ++ filesBelow p rest

-- Writes the files below a path that are not the same on both disks.
def store (before after : Disk) (p : Path) : IO Unit := do
  match after.entry p with
  | .ok (.folder inner) =>
    for (file, content) in filesBelow p inner do
      if (before.read file).toOption != some content then
        let fresh := file.text ++ ".tmp"
        IO.FS.createDirAll file.parent.text
        IO.FS.writeBinFile fresh ⟨content.toArray⟩
        IO.FS.rename fresh file.text
  | _ => return

def tell (events : List Event) : IO Unit :=
  events.forM fun event =>
    IO.eprintln s!"{event.level.name} | {event.logger} - {event.text Failure.message}"

-- Ends with the message of a failure that no step takes care of.
def fail (failure : Failure) : IO UInt32 := do
  IO.eprintln failure.message
  return 1

-- A call of the program with the given words.
def run (words : List String) : IO UInt32 := do
  let here := Path.ofText (← IO.currentDir).toString
  let accounts ← readAccounts
  let own ← readOwnNumber
  let start : World := { World.ofDisk ((Disk.emptyAt here.parts).makeFolders here).2 with
    environment := ← readEnvironment
    users := accounts.map fun (name, _, home) => (name, home)
    log := Log.initial Level.info
    ownHome := own.bind fun number => (accounts.find? fun account => account.2.1 == number).map (·.2.2) }
  let start ← load (fun _ => true) start (Path.ofText Settings.fileName)
  match (Settings.read.runIn start).1 with
  | .error failure => fail failure
  | .ok settings =>
    let cache? := (settings.resolvedCacheRoot.runIn start).1.toOption
    let config? := (((Log.configPath? none).runIn start).1.toOption).join
    let start ← (cache?.toList ++ config?.toList).foldlM (load fun _ => true) start
    let start ← (sourcesOf settings words start).toList.foldlM (load isSource) start
    let terminal ← (← IO.getStdout).isTty
    let (result, after) := (Command.run Log.plainMeans Rust.parse settings terminal words).runIn start
    cache?.toList.forM (store start.disk after.disk)
    tell after.events
    match result with
    | .error failure => fail failure
    | .ok result =>
      -- A pager would show the same text.
      IO.print result.output
      IO.eprint result.complaint
      return result.status.toUInt32

end CrateDocs.Main

def main (words : List String) : IO UInt32 :=
  CrateDocs.Main.run words
