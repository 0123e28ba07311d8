import CrateDocs.Disk.Error
import CrateDocs.Disk.Folder
import CrateDocs.Path

namespace CrateDocs

-- What a machine does not do: list some directories, by the text of the path they are listed under, and
-- nest calls deeper than some bound.
structure Limits where
  unlistable : List String
  depth : Nat
deriving DecidableEq, Repr

-- The limits of a machine that lists every directory.
def Limits.usual : Limits := ⟨[], 980⟩

-- A file system: everything below the root, the working directory, and the limits of the machine. The
-- working directory is known by proper names all the way.
structure Disk where
  root : Folder
  here : Location
  limits : Limits
  here_names : here.all isFileName = true
deriving DecidableEq, Repr

namespace Disk

-- A disk with some content, for work at its top.
def ofFolder (root : Folder) : Disk :=
  ⟨root, [], .usual, List.all_nil⟩

-- A disk with nothing on it, for work in a directory that is still to be made.
def emptyAt (here : Location) : Disk where
  root := .empty
  here := here.filter isFileName
  limits := .usual
  here_names := by simp

-- The greatest number of bytes in a name, and one more than the greatest in a path.
def nameLimit : Nat := 255
def pathLimit : Nat := 4096

-- Follows components from a location. Every location passed through must be a directory.
def walk (root : Folder) : Location → List String → Except Refusal Location
  | spot, [] => .ok spot
  | spot, part :: rest =>
    match root.find? spot with
    | none => .error .noEntry
    | some (.file _) => .error .notFolder
    | some (.folder _) =>
      if part = ".." then walk root spot.dropLast rest
      else if nameLimit < Utf8.size part then .error .nameTooLong
      else walk root (spot ++ [part]) rest

-- Where the components of a path start.
def start (d : Disk) (p : Path) : Location :=
  if p.anchor = .here then d.here else []

-- The location that a path leads to. There may be nothing at it.
def locate (d : Disk) (p : Path) : Except Refusal Location :=
  if p.text.toList.contains '\x00' then .error .zeroByte
  else if pathLimit ≤ Utf8.size p.text then .error .nameTooLong
  else walk d.root (d.start p) p.parts

-- The entry that a path leads to.
def entry (d : Disk) (p : Path) : Except Refusal Entry := do
  match d.root.find? (← d.locate p) with
  | some entry => pure entry
  | none => throw .noEntry

-- A refusal with the path it was about.
def refuse {α : Type} (p : Path) : Except Refusal α → Except DiskError α :=
  Except.mapError fun refusal => ⟨refusal, some p.text⟩

-- A test of what a path leads to; no entry satisfies none.
def test (d : Disk) (p : Path) (holds : Entry → Bool) : Except DiskError Bool :=
  match d.entry p with
  | .ok entry => .ok (holds entry)
  | .error refusal => if refusal.meansAbsent then .ok false else .error ⟨refusal, some p.text⟩

def hasEntry (d : Disk) (p : Path) : Except DiskError Bool :=
  d.test p fun _ => true

def isFile (d : Disk) (p : Path) : Except DiskError Bool :=
  d.test p fun | .file _ => true | .folder _ => false

def isFolder (d : Disk) (p : Path) : Except DiskError Bool :=
  d.test p fun | .file _ => false | .folder _ => true

-- The content of a file.
def read (d : Disk) (p : Path) : Except DiskError (List UInt8) :=
  refuse p do
    match ← d.entry p with
    | .file content => pure content
    | .folder _ => throw .isFolder

-- The paths of everything in a directory, in the order of its listing.
def list (d : Disk) (p : Path) : Except DiskError (List Path) :=
  refuse p do
    if d.limits.unlistable.contains p.text then throw .denied
    match ← d.entry p with
    | .file _ => throw .notFolder
    | .folder inner => pure (inner.names.map fun name => ⟨p.anchor, p.parts ++ [name]⟩)

-- The location of a path by its text alone: `..` takes the component before it away.
def resolve (d : Disk) (p : Path) : Location :=
  p.parts.foldl (fun spot part => if part = ".." then spot.dropLast else spot ++ [part]) (d.start p)

-- The text of a location: relative if it is below the working directory.
def textOf (d : Disk) (spot : Location) : String :=
  if d.here.isPrefixOf spot then "/".intercalate (spot.drop d.here.length)
  else "/" ++ "/".intercalate spot

-- The disk with a new entry at a location.
def put (d : Disk) (spot : Location) (entry : Entry) : Disk :=
  { d with root := d.root.change spot (some entry) }

-- The disk with nothing at a location.
def drop (d : Disk) (spot : Location) : Disk :=
  { d with root := d.root.change spot none }

-- Makes one directory.
def makeFolder (d : Disk) (p : Path) : Except DiskError Disk :=
  refuse p do
    let spot ← d.locate p
    match d.root.find? spot with
    | some _ => throw .taken
    | none => pure (d.put spot (.folder .empty))

-- Writes a file, new or in place of the one there.
def writeFile (d : Disk) (p : Path) (content : List UInt8) : Except DiskError Disk :=
  refuse p do
    let spot ← d.locate p
    match d.root.find? spot with
    | some (.folder _) => throw .isFolder
    | _ => pure (d.put spot (.file content))

-- Takes a directory away with all that is in it. Gives whether it is gone, and the disk that is left: what
-- is nested too deep stays, with what was still to come when it was met.
def removeFolder (d : Disk) (p : Path) : Except DiskError (Bool × Disk) :=
  refuse p do
    let spot ← d.locate p
    match d.root.find? spot with
    | some (.folder inner) =>
      match inner.uncleared d.limits.depth with
      | .empty => pure (true, d.drop spot)
      | left => pure (false, d.put spot (.folder left))
    | some (.file _) => throw .notFolder
    | none => throw .noEntry

-- Takes a file away.
def removeFile (d : Disk) (p : Path) : Except DiskError Disk :=
  refuse p do
    let spot ← d.locate p
    match d.root.find? spot with
    | some (.file _) => pure (d.drop spot)
    | some (.folder _) => throw .isFolder
    | none => throw .noEntry

-- Moves a file over another path.
def moveFile (d : Disk) (source target : Path) : Except Refusal Disk := do
  let origin ← d.locate source
  match d.root.find? origin with
  | some (.file content) =>
    let spot ← d.locate target
    match d.root.find? spot with
    | some (.folder _) => throw .isFolder
    | _ => pure ((d.drop origin).put spot (.file content))
  | some (.folder _) => throw .isFolder
  | none => throw .noEntry

-- Everything below a path, sorted, each under the path's text.
def contents (d : Disk) (p : Path) : List String :=
  match d.entry p with
  | .ok (.folder inner) => (inner.listing p.text).mergeSort fun a b => decide (a ≤ b)
  | _ => []

end Disk

end CrateDocs
