import CrateDocs.Text.Utf8

namespace CrateDocs

-- The content of a directory: named files and named directories, in the order they are listed in.
-- Of several entries of one name the first counts.
inductive Folder
  | empty
  | file (name : String) (content : List UInt8) (rest : Folder)
  | folder (name : String) (inner rest : Folder)
deriving DecidableEq, Repr

-- What a name stands for.
inductive Entry
  | file (content : List UInt8)
  | folder (inner : Folder)
deriving DecidableEq, Repr

-- The names from the root down to an entry.
abbrev Location := List String

-- Whether a text can be the name of an entry.
def isFileName (s : String) : Bool :=
  s != "" && s != "." && s != ".." && s.toList.all fun c => c != '/' && c != '\x00'

namespace Folder

-- The entry of a name.
def get? : Folder → String → Option Entry
  | empty, _ => none
  | file n content rest, name => if n = name then some (.file content) else rest.get? name
  | folder n inner rest, name => if n = name then some (.folder inner) else rest.get? name

def allNames : Folder → List String
  | empty => []
  | file n _ rest => n :: rest.allNames
  | folder n _ rest => n :: rest.allNames

-- The names in a directory, each once.
def names (f : Folder) : List String :=
  f.allNames.eraseDups

-- The directory without a name.
def erase : Folder → String → Folder
  | empty, _ => empty
  | file n content rest, name =>
    if n = name then rest.erase name else .file n content (rest.erase name)
  | folder n inner rest, name =>
    if n = name then rest.erase name else .folder n inner (rest.erase name)

-- The directory with an entry under a name, in place of any entry it had.
def insert (f : Folder) (name : String) : Entry → Folder
  | .file content => .file name content (f.erase name)
  | .folder inner => .folder name inner (f.erase name)

-- The entry at a location below a directory.
def find? (f : Folder) : Location → Option Entry
  | [] => some (.folder f)
  | [name] => f.get? name
  | name :: rest =>
    match f.get? name with
    | some (.folder inner) => inner.find? rest
    | _ => none

-- The directory with the entry at a location changed: set, or taken away. A location below a name
-- that is no directory has no entry to change.
def change (f : Folder) : Location → Option Entry → Folder
  | [], _ => f
  | [name], some entry => f.insert name entry
  | [name], none => f.erase name
  | name :: rest, entry =>
    match f.get? name with
    | some (.folder inner) => f.insert name (.folder (inner.change rest entry))
    | _ => f

-- What is left of a directory's content once it was taken away in the order of the listing, each directory
-- after what is in it. A directory below more than `limit` others ends that.
def uncleared : Nat → Folder → Folder
  | _, empty => empty
  | limit, file _ _ rest => uncleared limit rest
  | 0, folder name inner rest => folder name inner rest
  | limit + 1, folder name inner rest =>
    match uncleared limit inner with
    | empty => uncleared (limit + 1) rest
    | left => folder name left rest

-- How many files there are at any depth.
def fileCount : Folder → Nat
  | empty => 0
  | file _ _ rest => rest.fileCount + 1
  | folder _ inner rest => inner.fileCount + rest.fileCount

-- Everything in a directory at any depth, each under the given text; directories end in a slash.
def listing (above : String) : Folder → List String
  | empty => []
  | file n _ rest => (above ++ "/" ++ n) :: listing above rest
  | folder n inner rest =>
    (above ++ "/" ++ n ++ "/") :: (listing (above ++ "/" ++ n) inner ++ listing above rest)

end Folder

end CrateDocs
