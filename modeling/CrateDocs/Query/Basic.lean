import CrateDocs.FunctionDoc.Basic
import CrateDocs.Package.Basic
import CrateDocs.Package.Version
import CrateDocs.Text.Blank

namespace CrateDocs

-- Every cached package with its functions.
abbrev Installed := List (Package × List FunctionDoc)

-- A function that answers a query, and the package it is in.
structure Match where
  package : Package
  doc : FunctionDoc
deriving DecidableEq, Repr

namespace Match

def render (m : Match) : String :=
  m.doc.signature ++ "\n    " ++ m.doc.qualifiedName ++ " (" ++ m.package.text ++ ")"

-- The text of several answers, with a blank line between them.
def renderAll (ms : List Match) : String :=
  "\n\n".intercalate (ms.map render) ++ "\n"

end Match

namespace Query

-- The segments of a query term. Empty ones are left out.
def segments (term : String) : List String :=
  ((Text.split "::" term).map Text.trimBlanks).filter (· != "")

-- Whether a path ends in the segments of a query.
def isExact (path query : List String) : Bool :=
  !query.isEmpty && query.isSuffixOf path

-- Whether a path ends in the segments of a query, the last of which may be part of the path's last.
def isPartial (path query : List String) : Bool :=
  match path.getLast?, query.getLast? with
  | some segment, some part =>
    query.dropLast.isSuffixOf path.dropLast && Text.occursIn part.toList segment.toList
  | _, _ => false

-- The functions whose paths satisfy `p`, package by package.
def collect (installed : Installed) (p : List String → Bool) : List Match :=
  installed.flatMap fun (package, docs) =>
    (docs.filter fun doc => p doc.path).map fun doc => ⟨package, doc⟩

-- The answers to the segments of one term.
def answer (policy : MatchPolicy) (installed : Installed) (query : List String) : List Match :=
  let exact := collect installed (isExact · query)
  let substring := collect installed (isPartial · query)
  match policy with
  | .exact => exact
  | .substring => substring
  | .exactThenSubstring => if exact.isEmpty then substring else exact

-- Whether one package comes before another: by name, then by version.
def comesBefore (a b : Package × Version.Key) : Bool :=
  ((Ord.compare a.1.name b.1.name).then (a.2.compare b.2)).isLE

-- The packages in the order in which they answer.
def inOrder (installed : Installed) : Except Text.TooManyDigits Installed := do
  let keyed ← installed.mapM fun entry => do return (entry, ← Version.key entry.1.version)
  let sorted := keyed.mergeSort fun a b => comesBefore (a.1.1, a.2) (b.1.1, b.2)
  return sorted.map (·.1)

end Query

end CrateDocs
