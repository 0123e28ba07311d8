import CrateDocs.Text.Pieces

namespace CrateDocs

-- Where a path starts: at the working directory, or at the root, whose text has one slash or two.
inductive Anchor
  | here
  | root
  | doubleRoot
deriving DecidableEq, Repr, Inhabited

-- A path of a POSIX file system: its anchor and its components. No component is empty or `.`;
-- `..` is kept.
structure Path where
  anchor : Anchor
  parts : List String
deriving DecidableEq, Repr, Inhabited

namespace Path

-- The components of a text, without the empty ones and the dots.
def partsOf (s : String) : List String :=
  (Text.split "/" s).filter fun part => part != "" && part != "."

def ofText (s : String) : Path :=
  let slashes := (s.toList.takeWhile (· == '/')).length
  let anchor := if slashes == 0 then .here else if slashes == 2 then .doubleRoot else .root
  ⟨anchor, partsOf s⟩

-- The text of a path; the empty relative path is a dot.
def text (p : Path) : String :=
  let names := "/".intercalate p.parts
  match p.anchor with
  | .here => if p.parts.isEmpty then "." else names
  | .root => "/" ++ names
  | .doubleRoot => "//" ++ names

-- A path below another; an absolute path replaces what is before it.
def join (p q : Path) : Path :=
  match q.anchor with
  | .here => ⟨p.anchor, p.parts ++ q.parts⟩
  | _ => q

-- The path that a text names below another path.
def child (p : Path) (s : String) : Path :=
  p.join (ofText s)

-- The path without its last component.
def parent (p : Path) : Path :=
  ⟨p.anchor, p.parts.dropLast⟩

-- The last component.
def name (p : Path) : String :=
  p.parts.getLast?.getD ""

-- The last component without its suffix. A dot at either end of the name starts no suffix.
def stem (p : Path) : String :=
  match Text.cutLast? '.' p.name.toList with
  | some (front, back) => if front.isEmpty || back.isEmpty then p.name else String.ofList front
  | none => p.name

end Path

end CrateDocs
