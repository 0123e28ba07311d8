import CrateDocs.Disk.Basic
import CrateDocs.Text.Raw

namespace CrateDocs

-- An entry of a directory whose name is no text, though it is one that a file system takes.
structure Foreign where
  name : RawText
  isFolder : Bool
  notText : ∃ e, name.toText = .error e
  fits : name.size ≤ Disk.nameLimit

namespace Foreign

-- The path of such an entry as it is shown. It does not lead to the entry.
def pathIn (f : Foreign) (folder : Path) : Path :=
  ⟨folder.anchor, folder.parts ++ [f.name.shown]⟩

-- Whether the path that leads to the entry is too long to ask about.
def isTooLong (f : Foreign) (folder : Path) : Bool :=
  Disk.pathLimit ≤ Utf8.size (⟨folder.anchor, folder.parts ++ [""]⟩ : Path).text + f.name.size

end Foreign

end CrateDocs
