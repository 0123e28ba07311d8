import CrateDocs.Cache.Basic
import CrateDocs.Manifest

namespace CrateDocs.Generate

-- The first of some places below a package's root that is a file.
def firstFile (root : Path) : List String → Work Path
  | [] => Work.fail (.noEntryPoint root)
  | place :: rest => do
    let candidate := root.child place
    if ← Work.ask fun d => d.isFile candidate then return candidate else firstFile root rest

-- The first of the usual entry files that a package has.
def entryPoint (root : Path) : Work Path :=
  firstFile root Fault.entryPoints

-- Keeps the paths that satisfy a question to the disk.
def keep (question : Disk → Path → Except DiskError Bool) (d : Disk) : List Path → Except DiskError (List Path)
  | [] => .ok []
  | path :: rest => do
    let others := fun (_ : Unit) => keep question d rest
    if ← question d path then return path :: (← others ()) else others ()

-- The packages of one index: everything in it that has a manifest.
def packagesIn (d : Disk) (index : Path) : Except DiskError (List Path) := do
  keep (fun d path => d.isFile (path.child Manifest.fileName)) d (Cache.sortByName (← d.list index))

-- The packages of all indexes. An index that cannot be listed is only told of.
def packagesInAll : List Path → Work (List Path)
  | [] => return []
  | index :: rest => do
    match packagesIn (← get).disk index with
    | .error e =>
      Work.note (.indexSkipped index (.disk e))
      packagesInAll rest
    | .ok found => return found ++ (← packagesInAll rest)

-- The unpacked packages of the registry below `home`.
def discover (home : Path) : Work (List Path) := do
  let sources := (home.child "registry").child "src"
  if !(← Work.ask fun d => d.isFolder sources) then
    Work.note (.noRegistry sources)
    return []
  let d := (← get).disk
  match (d.list sources).bind (keep Disk.isFolder d) with
  | .error e => Work.fail (.registryNotListed sources e)
  | .ok indexes =>
    let roots ← packagesInAll (Cache.sortByName indexes)
    Work.note (.discovered roots.length sources)
    return roots

end CrateDocs.Generate
