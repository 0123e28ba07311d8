import CrateDocs.Rust.Grammar

namespace CrateDocs.Rust

open Syntax (Node)
open Syntax.Pattern (Cursor skip run)
open Utf8 (glyphs)

-- A depth that no search goes beyond.
def depthFor (c : Cursor) : Nat :=
  1000 * (c.rest.length + 1)

-- The start of a file: a byte order mark belongs to no token.
def fileStart (bytes : List UInt8) : Cursor :=
  match glyphs bytes with
  | ⟨some '\uFEFF', width⟩ :: rest => ⟨rest, width⟩
  | all => ⟨all, 0⟩

def shebang : Pattern :=
  Grammar.maybe (.token ⟨Lexeme.shebang, "shebang", true⟩)

-- A file: statements, each of which is complete in itself.
def file : Pattern :=
  shebang >> Syntax.Pattern.many (.rule (.statement .semicolon))

-- The syntax tree of a file. Text that fits nowhere becomes an error node up to the end.
def parse (bytes : List UInt8) : Node :=
  let start := fileStart bytes
  let (last, nodes) := (run trivia Grammar.grammar (depthFor start) file start).getD (start, [])
  let (finish, comments) := skip trivia (last.rest.length + 1) last
  let rest : List Node :=
    if finish.rest.isEmpty then []
    else [.leaf Node.errorKind finish.offset bytes.length true]
  let children := nodes ++ comments ++ rest
  ⟨"source_file", (children.head?.map (·.start)).getD bytes.length, bytes.length, none, true, false, children⟩

end CrateDocs.Rust
