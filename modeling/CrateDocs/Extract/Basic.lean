import CrateDocs.Extract.Kind
import CrateDocs.Extract.Modifiers
import CrateDocs.Package.Basic

namespace CrateDocs.Extract

open Syntax (Tree)

-- The name that a node declares, without the mark that makes it raw.
def declaredName? (t : Tree) : Option String :=
  (t.field? "name").map (Text.withoutStart "r#")

-- The record of a function.
def document (t : Tree) (path : List String) : Except Fault FunctionDoc := do
  let qualifiers ← qualifiersOf t
  let visibility ← visibilityOf t
  return {
    path := path
    signature := t.signature
    unsafety := qualifiers.unsafety
    constness := qualifiers.constness
    visibility := visibility
    abi := qualifiers.abi }

-- A node that is still to be looked at, with the names above it and the container it stands in.
structure Frame where
  tree : Tree
  scope : List String
  container : Container

-- What was found so far: the records, and how many other declarations look like functions.
structure Found where
  docs : List FunctionDoc
  others : Nat

-- Whether a name becomes part of the paths below the node.
def opensScope (kind : String) : Option DeclarationKind → Bool
  | some .closure => false
  | some _ => true
  | none => kind == "mod_item"

-- The frames of a node's children.
def Frame.below (f : Frame) : List Frame :=
  let declared := if opensScope f.tree.kind (classify f.tree.kind f.container) then declaredName? f.tree else none
  let scope := f.scope ++ declared.toList
  let container := (containerOf? f.tree.kind).getD f.container
  f.tree.children.map fun child => ⟨child, scope, container⟩

-- Takes in what a node declares.
def Found.add (found : Found) (f : Frame) : Except Fault Found :=
  match classify f.tree.kind f.container, declaredName? f.tree with
  | some .freeFunction, some name => do
    let doc ← document f.tree (f.scope ++ [name])
    return { found with docs := found.docs ++ [doc] }
  | some .freeFunction, none => .ok found
  | some _, _ => .ok { found with others := found.others + 1 }
  | none, _ => .ok found

-- The number of nodes in the trees of some frames.
def framesSize (frames : List Frame) : Nat :=
  Tree.sizes (frames.map (·.tree))

theorem framesSize_below (f : Frame) (rest : List Frame) :
    framesSize (f.below ++ rest) < framesSize (f :: rest) := by
  have below : f.below.map (·.tree) = f.tree.children := by
    simp [Frame.below, Function.comp_def]
  simp only [framesSize, List.map_append, below, Tree.sizes_append, List.map_cons, Tree.sizes, Tree.size_eq]
  omega

theorem framesSize_tail (f : Frame) (rest : List Frame) : framesSize rest < framesSize (f :: rest) := by
  simp only [framesSize, List.map_cons, Tree.sizes, Tree.size_eq]
  omega

-- Looks at frames in order, each before the frames below it.
def walk (frames : List Frame) (found : Found) : Except Fault Found :=
  match frames with
  | [] => .ok found
  | f :: rest =>
    if isSealed f.tree.kind then walk rest found
    else
      match found.add f with
      | .ok more => walk (f.below ++ rest) more
      | .error fault => .error fault
termination_by framesSize frames
decreasing_by
  · exact framesSize_tail f rest
  · exact framesSize_below f rest

-- The first segments of all paths: the crate's own, if it has a name.
def rootScope (crate : Option String) : List String :=
  ((crate.filter (· != "")).map Package.crateSegment).toList

-- The free functions of a crate, in the order they are written in.
def functions (root : Tree) (crate : Option String) : Except Fault Found :=
  walk [⟨root, rootScope crate, .module⟩] ⟨[], 0⟩

end CrateDocs.Extract
