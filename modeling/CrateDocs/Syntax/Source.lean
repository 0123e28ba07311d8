import CrateDocs.Path
import CrateDocs.Syntax.Node
import CrateDocs.Text.Blank
import CrateDocs.Text.Quoted
import CrateDocs.Text.Utf8

namespace CrateDocs.Syntax

-- A source file as it was read.
structure Source where
  path : Path
  bytes : List UInt8

-- A place in a file. Lines and columns count from 1, columns in bytes.
structure Place where
  line : Nat
  column : Nat
deriving DecidableEq, Repr, Inhabited

-- The part of a file that a node covers.
structure Span where
  path : Path
  start : Place
  stop : Place
deriving DecidableEq, Repr, Inhabited

def Span.text (s : Span) : String :=
  s!"{s.path.text}:{s.start.line}:{s.start.column}"

-- A problem found in a source file.
structure Diagnostic where
  path : Path
  place : Place
  problem : String
deriving DecidableEq, Repr

def Diagnostic.text (d : Diagnostic) : String :=
  s!"{d.path.text}:{d.place.line}:{d.place.column}: {d.problem}"

-- The place that is `offset` bytes after another one.
def Place.after : Place → List UInt8 → Nat → Place
  | p, _, 0 => p
  | p, [], _ => p
  | p, b :: rest, offset + 1 =>
    if b == 10 then Place.after ⟨p.line + 1, 1⟩ rest offset
    else Place.after ⟨p.line, p.column + 1⟩ rest offset

namespace Source

def place (s : Source) (offset : Nat) : Place :=
  Place.after ⟨1, 1⟩ s.bytes offset

-- The text between two offsets.
def slice (s : Source) (start stop : Nat) : String :=
  Utf8.decodeLossy ((s.bytes.drop start).take (stop - start))

def text (s : Source) (n : Node) : String :=
  s.slice n.start n.stop

def span (s : Source) (n : Node) : Span :=
  ⟨s.path, s.place n.start, s.place n.stop⟩

-- The first line of a text, without blanks around the text and cut to 40 characters.
def snippet (text : String) : String :=
  String.ofList (((Text.trimBlanks text).toList.takeWhile fun c => !Text.isLineEnd c).take 40)

-- The diagnostic of a node that is an error.
def errorAt (s : Source) (n : Node) : Diagnostic :=
  ⟨s.path, s.place n.start,
    if n.kind == Node.errorKind then "syntax error near " ++ Text.quoted (snippet (s.text n))
    else s!"missing `{n.kind}`"⟩

-- Looks at nodes in order, each before those below it, and adds a diagnostic for every error to those found
-- so far. An error is not looked into, and another node only if there is an error below it.
def searchErrors (s : Source) (nodes : List Node) (found : List Diagnostic) : List Diagnostic :=
  match nodes with
  | [] => found
  | n :: rest =>
    if n.isError then searchErrors s rest (found ++ [s.errorAt n])
    else if n.hasError then searchErrors s (n.children ++ rest) found
    else searchErrors s rest found
termination_by Node.sizes nodes
decreasing_by
  · exact Node.sizes_tail n rest
  · exact Node.sizes_below n rest
  · exact Node.sizes_tail n rest

-- The diagnostics of a tree, one for every error that is not part of another.
def syntaxErrors (s : Source) (root : Node) : List Diagnostic :=
  if root.hasError then s.searchErrors [root] [] else []

end Source

end CrateDocs.Syntax
