import CrateDocs.Disk.Foreign
import CrateDocs.World

namespace CrateDocs

-- The caches of all packages, each in a folder of its own below one root.
structure Cache where
  root : Path
deriving DecidableEq, Repr

namespace Cache

-- The folder and the file of a package's cache.
def folderFor (cache : Cache) (package : Package) : Path :=
  cache.root.child package.key

def fileFor (cache : Cache) (package : Package) : Path :=
  (cache.folderFor package).child (package.key ++ ".json")

-- Replaces the cache of a package, and gives its file. A root that is no path at all is no fault of
-- the cache.
def put (cache : Cache) (package : Package) (docs : List FunctionDoc) : Work Path := do
  let file := cache.fileFor package
  let w ← get
  let (result, disk) := w.disk.replaceFileBelow file (FunctionDoc.toBytes docs)
  set { w with disk := disk }
  match result with
  | .error trouble =>
    if trouble.error.fromSystem then Work.fail (.cacheNotWritten file trouble)
    else throw (.disk trouble.error)
  | .ok () =>
    Work.note (.cacheWritten docs.length package file)
    return file

-- The functions in a cache file. One that cannot be read is only told of.
def readFile (file : Path) : Work (Option (List FunctionDoc)) := do
  match (← get).disk.read file with
  | .error e =>
    Work.note (.cacheUnreadable file (.disk e))
    return none
  | .ok bytes =>
    match FunctionDoc.ofBytes bytes with
    | .ok docs => return some docs
    | .error problems =>
      Work.note (.cacheUnreadable file (.schema problems))
      return none

-- The package in one entry of the root. Files are passed over, and so are folders that no package has
-- made.
def readEntry (entry : Path) : Work (Option (Package × List FunctionDoc)) := do
  if !(← Work.ask fun d => d.isFolder entry) then return none
  match Package.ofKey? entry.name with
  | none =>
    Work.note (.strayFolder entry)
    return none
  | some package =>
    return (← readFile (entry.child (entry.name ++ ".json"))).map fun docs => (package, docs)

-- An entry of the root whose name is no text is passed over like any other that no package has made, unless
-- it looks like a key.
def readForeign (root : Path) (f : Foreign) : Work (Option (Package × List FunctionDoc)) := do
  if f.isTooLong root then throw (.disk ⟨.nameTooLong, some (f.pathIn root).text⟩)
  if !f.isFolder then return none
  match Package.ofRawKey f.name with
  | .error e => throw (.unencodable e)
  | .ok _ =>
    Work.note (.strayFolder (f.pathIn root))
    return none

-- An entry of the root as it is listed: one with a path, or one whose name is no text.
inductive Listed
  | named (path : Path)
  | foreign (f : Foreign)

def Listed.name : Listed → RawText
  | named path => .ofText path.name
  | foreign f => f.name

def readListed (root : Path) : Listed → Work (Option (Package × List FunctionDoc))
  | .named path => readEntry path
  | .foreign f => readForeign root f

def sortListed (entries : List Listed) : List Listed :=
  entries.mergeSort fun a b => a.name.comesFirst b.name

def sortByName (paths : List Path) : List Path :=
  paths.mergeSort fun a b => decide (a.name ≤ b.name)

-- Every package whose cache can be read, in the order of the keys. The entries of the root whose names are no
-- texts are given apart from the disk.
def getAll (cache : Cache) (foreign : List Foreign := []) : Work (List (Package × List FunctionDoc)) := do
  if !(← Work.ask fun d => d.hasEntry cache.root) then
    Work.note (.noCache cache.root)
    return []
  match (← get).disk.list cache.root with
  | .error e => Work.fail (.cacheNotListed cache.root e)
  | .ok entries =>
    let listed := sortListed (entries.map .named ++ foreign.map .foreign)
    return (← listed.mapM (readListed cache.root)).filterMap id

-- Takes the cache of a package away. Gives whether there was one.
def remove (cache : Cache) (package : Package) : Work Bool := do
  let folder := cache.folderFor package
  if !(← Work.ask fun d => d.hasEntry folder) then return false
  let w ← get
  match w.disk.removeFolder folder with
  | .error e => Work.fail (.cacheNotRemoved folder e)
  | .ok (gone, disk) =>
    set { w with disk := disk }
    if !gone then throw .tooDeep
    Work.note (.cacheRemoved package)
    return true

end Cache

-- A package whose name and version need not be texts.
structure RawPackage where
  name : RawText
  version : RawText

namespace RawPackage

def ofPackage (p : Package) : RawPackage :=
  ⟨.ofText p.name, .ofText p.version⟩

def toPackage (p : RawPackage) : Except Unencodable Package := do
  return ⟨← p.name.toText, ← p.version.toText⟩

end RawPackage

-- The record of a function whose path and signature need not be texts.
structure RawDoc where
  path : List RawText
  signature : RawText
  unsafety : Unsafety
  constness : Constness
  visibility : Visibility
  abi : Abi

namespace RawDoc

def ofDoc (doc : FunctionDoc) : RawDoc :=
  ⟨doc.path.map .ofText, .ofText doc.signature, doc.unsafety, doc.constness, doc.visibility, doc.abi⟩

def toDoc (doc : RawDoc) : Except Unencodable FunctionDoc := do
  return ⟨← doc.path.mapM RawText.toText, ← doc.signature.toText, doc.unsafety, doc.constness, doc.visibility, doc.abi⟩

end RawDoc

namespace Cache

-- Replaces the cache of a package as a caller gives it. The key comes before the records, and both come before the
-- disk is touched, which ends with nothing made if too many directories are missing.
def putRaw (cache : Cache) (package : RawPackage) (docs : List RawDoc) : Work Path := do
  match package.toPackage with
  | .error e => throw (.unencodable e)
  | .ok package =>
    match docs.mapM RawDoc.toDoc with
    | .error e => throw (.unserializable e)
    | .ok docs =>
      let d := (← get).disk
      if d.limits.depth < d.callsToMake (cache.folderFor package) then throw .tooDeep
      cache.put package docs

-- Takes the cache of a package away as a caller gives it.
def removeRaw (cache : Cache) (package : RawPackage) : Work Bool := do
  match package.toPackage with
  | .error e => throw (.unencodable e)
  | .ok package => cache.remove package

end Cache

end CrateDocs
