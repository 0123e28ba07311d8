import CrateDocs.Syntax.Signature

namespace CrateDocs.Syntax

-- A node of the syntax tree of a crate, with all that is asked of it: the texts of its fields, its
-- own text, its signature, and where it stands.
structure Tree where
  kind : String
  fields : List (String × String)
  text : String
  signature : String
  span : Span
  children : List Tree
deriving Inhabited

namespace Tree

-- The text of the first child that fills a field.
def field? (t : Tree) (name : String) : Option String :=
  t.fields.lookup name

-- The number of nodes in a tree.
mutual
def size : Tree → Nat
  | ⟨_, _, _, _, _, children⟩ => sizes children + 1
def sizes : List Tree → Nat
  | [] => 0
  | t :: rest => t.size + sizes rest
end

theorem size_eq (t : Tree) : t.size = sizes t.children + 1 := by
  cases t
  rw [size]

theorem sizes_append (ts us : List Tree) : sizes (ts ++ us) = sizes ts + sizes us := by
  induction ts with
  | nil => rw [List.nil_append, sizes, Nat.zero_add]
  | cons t ts ih => rw [List.cons_append, sizes, sizes, ih, Nat.add_assoc]

-- A node as it is told of.
def told (t : Tree) : String :=
  "RustNode(" ++ Text.quoted t.kind ++ " at " ++ t.span.text ++ ")"

-- A tree's nodes, each before those below it, with the number of nodes above it added to `depth`.
mutual
def preorder (depth : Nat) : Tree → List (Nat × Tree)
  | ⟨kind, fields, text, signature, span, children⟩ =>
    (depth, ⟨kind, fields, text, signature, span, children⟩) :: preorders (depth + 1) children
def preorders (depth : Nat) : List Tree → List (Nat × Tree)
  | [] => []
  | t :: rest => t.preorder depth ++ preorders depth rest
end

-- The texts of the fields of a node, in the order of the children.
def fieldTexts (s : Source) (n : Node) : List (String × String) :=
  n.children.filterMap fun child => child.field.map fun name => (name, s.text child)

-- The tree of a file. Every module declaration that starts where a graft belongs gets it as its last
-- child; of several grafts for one place the last counts.
mutual
def ofNode (s : Source) (grafts : List (Nat × Tree)) : Node → Tree
  | ⟨kind, start, stop, field, named, missing, children⟩ =>
    let n : Node := ⟨kind, start, stop, field, named, missing, children⟩
    let graft := if kind == "mod_item" then (grafts.reverse.lookup start).toList else []
    { kind := kind
      fields := fieldTexts s n
      text := s.text n
      signature := Signature.ofNode s n
      span := s.span n
      children := ofNodes s grafts children ++ graft }
def ofNodes (s : Source) (grafts : List (Nat × Tree)) : List Node → List Tree
  | [] => []
  | n :: rest => ofNode s grafts n :: ofNodes s grafts rest
end

end Tree

end CrateDocs.Syntax
