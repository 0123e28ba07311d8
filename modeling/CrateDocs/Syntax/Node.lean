namespace CrateDocs.Syntax

-- A node of the syntax tree of one file: its kind, the bytes it covers, the field of its parent that
-- it fills, whether the grammar names its kind, and whether it stands for a token that is missing.
structure Node where
  kind : String
  start : Nat
  stop : Nat
  field : Option String
  named : Bool
  missing : Bool
  children : List Node
deriving Repr, Inhabited

namespace Node

-- The kind of the nodes that cover text which fits nowhere.
def errorKind : String := "ERROR"

-- A node with nothing below it that fills no field.
def leaf (kind : String) (start stop : Nat) (named : Bool) : Node :=
  ⟨kind, start, stop, none, named, false, []⟩

-- Whether a node is itself an error.
def isError (n : Node) : Bool :=
  n.kind == errorKind || n.missing

-- Whether there is an error in a tree.
mutual
def hasError : Node → Bool
  | ⟨kind, _, _, _, _, missing, children⟩ => kind == errorKind || missing || anyHasError children
def anyHasError : List Node → Bool
  | [] => false
  | n :: rest => n.hasError || anyHasError rest
end

-- The first child that fills a field.
def child? (n : Node) (field : String) : Option Node :=
  n.children.find? fun child => child.field == some field

-- The kinds of comments.
def isCommentKind (kind : String) : Bool :=
  kind == "line_comment" || kind == "block_comment"

def isComment (n : Node) : Bool :=
  isCommentKind n.kind

-- The number of nodes in a tree.
mutual
def size : Node → Nat
  | ⟨_, _, _, _, _, _, children⟩ => sizes children + 1
def sizes : List Node → Nat
  | [] => 0
  | n :: rest => n.size + sizes rest
end

theorem size_eq (n : Node) : n.size = sizes n.children + 1 := by
  cases n
  rw [size]

theorem sizes_append (ns ms : List Node) : sizes (ns ++ ms) = sizes ns + sizes ms := by
  induction ns with
  | nil => rw [List.nil_append, sizes, Nat.zero_add]
  | cons n ns ih => rw [List.cons_append, sizes, sizes, ih, Nat.add_assoc]

-- There is less to look at once a node is taken away, also if those below it take its place.

theorem sizes_tail (n : Node) (rest : List Node) : sizes rest < sizes (n :: rest) := by
  rw [sizes, size_eq]
  omega

theorem sizes_below (n : Node) (rest : List Node) : sizes (n.children ++ rest) < sizes (n :: rest) := by
  rw [sizes_append, sizes, size_eq]
  omega

end Node

end CrateDocs.Syntax
