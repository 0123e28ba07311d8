import CrateDocs.Text.Percent
import CrateDocs.Text.Pieces
import CrateDocs.Text.Raw

namespace CrateDocs

-- What tells a package from others.
structure Package where
  name : String
  version : String
deriving DecidableEq, Repr

namespace Package

def text (p : Package) : String :=
  p.name ++ " " ++ p.version

-- The name that a package's cache is kept under. The version holds no raw `-`, so the last one
-- stands between the two parts.
def key (p : Package) : String :=
  Percent.encode p.name ++ "-" ++ Text.replaceChar '-' "%2D" (Percent.encode p.version)

-- The package that a key was made from.
def ofKey? (key : String) : Option Package :=
  match Text.cutLast? '-' key.toList with
  | none => none
  | some (name, version) =>
    if name.isEmpty || version.isEmpty then none
    else
      let package : Package :=
        ⟨Percent.decode (String.ofList name), Percent.decode (String.ofList version)⟩
      if package.key == key then some package else none

-- The package that a raw key was made from. Before it is given, its own key is written again and compared, and
-- what is no text has none.
def ofRawKey (key : RawText) : Except Unencodable (Option Package) :=
  match Text.cutLast? (RawUnit.char '-') key with
  | none => .ok none
  | some (name, version) =>
    if name.isEmpty || version.isEmpty then .ok none
    else key.toText.map ofKey?

-- The first segment of the paths of a package's functions.
def crateSegment (name : String) : String :=
  Text.replaceChar '-' "_" name

end Package

end CrateDocs
