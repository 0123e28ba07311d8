import CrateDocs.Extract.Basic
import CrateDocs.World

namespace CrateDocs.Extract

-- The free functions of a crate; the log is told how many there are.
def documentTree (root : Syntax.Tree) (crate : Option String) : Work (List FunctionDoc) := do
  match functions root crate with
  | .ok found =>
    Work.note (.extracted found.docs.length found.others)
    return found.docs
  | .error fault => Work.fail fault

end CrateDocs.Extract
