import CrateDocs.Crate.Load
import CrateDocs.World

namespace CrateDocs

-- A crate that was parsed without problems, and the files it is made of.
structure Crate where
  root : Syntax.Tree
  files : List Location

namespace Crate

-- A node that a signature is asked of: one of a crate, or one that something else made, by its kind.
inductive AnyNode
  | own (t : Syntax.Tree)
  | other (kind : String)

def signatureOf : AnyNode → Except Failure String
  | .own t => .ok t.signature
  | .other kind => .error (.otherNode kind)

-- Parses a crate from its entry file. Every problem is told; there is no crate if there is one.
def parse (grammar : Grammar) (entry : Path) : Work Crate := do
  let (root?, progress) ← Work.ask fun d => load grammar d entry
  match root?, progress.diagnostics with
  | some root, [] =>
    Work.note (.parsed entry progress.files.length)
    return ⟨root, progress.files⟩
  | _, diagnostics =>
    diagnostics.forM fun diagnostic => Work.note (.diagnosed diagnostic)
    Work.fail (.unparsable entry diagnostics)

end Crate

end CrateDocs
