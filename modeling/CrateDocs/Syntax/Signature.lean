import CrateDocs.Syntax.Source

namespace CrateDocs.Syntax

namespace Signature

def isCloser (c : Char) : Bool := c == ')' || c == ']' || c == '>'

-- Takes away every comma that only blanks keep from a closing bracket, and those blanks. The flag
-- says that such blanks are being passed over.
def dropLastCommas : Bool → List Char → List Char
  | _, [] => []
  | dropping, c :: rest =>
    if dropping && Text.isBlank c then dropLastCommas true rest
    else if c == ',' && rest.head?.any Text.isBlank && (rest.dropWhile Text.isBlank).head?.any isCloser then
      dropLastCommas true rest
    else c :: dropLastCommas false rest

-- Takes away the blanks after an opening bracket. The flag says that one was just passed.
def dropAfterOpening : Bool → List Char → List Char
  | _, [] => []
  | opened, c :: rest =>
    if opened && Text.isBlank c then dropAfterOpening true rest
    else c :: dropAfterOpening (c == '(' || c == '[') rest

-- Takes away the blanks before a closing bracket or a comma.
def dropBeforeClosing : List Char → List Char
  | [] => []
  | c :: rest =>
    if Text.isBlank c &&
        (rest.dropWhile Text.isBlank).head?.any (fun d => d == ')' || d == ']' || d == ',') then
      dropBeforeClosing rest
    else c :: dropBeforeClosing rest

-- Takes away what is only layout: blanks inside brackets, and commas and semicolons that end
-- something.
def tidy (raw : String) : String :=
  let inner := dropBeforeClosing (dropAfterOpening false (dropLastCommas false raw.toList))
  let trimmed := Text.trimWhile Text.isBlank inner
  let ended := Text.dropEndWhile (fun c => c == ',' || c == ';') trimmed
  String.ofList (Text.dropEndWhile Text.isBlank ended)

-- Kinds of nodes that are taken as they are written, whatever is inside them.
def isAtomic (kind : String) : Bool :=
  kind == "string_literal" || kind == "raw_string_literal" || kind == "char_literal"

-- Whether a node is a leaf: nothing is below it, or it is taken as it is written.
def isLeaf (n : Node) : Bool :=
  n.children.isEmpty || isAtomic n.kind

-- Looks at nodes in order, each before those below it, and adds the leaves to those found so far. Comments are
-- left out.
def searchLeaves (nodes : List Node) (found : List Node) : List Node :=
  match nodes with
  | [] => found
  | n :: rest =>
    if n.isComment then searchLeaves rest found
    else if isLeaf n then searchLeaves rest (found ++ [n])
    else searchLeaves (n.children ++ rest) found
termination_by Node.sizes nodes
decreasing_by
  · exact Node.sizes_tail n rest
  · exact Node.sizes_tail n rest
  · exact Node.sizes_below n rest

-- The leaves of a tree, comments left out, by the shape of the tree.
mutual
def leaves : Node → List Node
  | ⟨kind, start, stop, field, named, missing, children⟩ =>
    if Node.isCommentKind kind then []
    else if children.isEmpty || isAtomic kind then [⟨kind, start, stop, field, named, missing, children⟩]
    else leavesIn children
def leavesIn : List Node → List Node
  | [] => []
  | n :: rest => leaves n ++ leavesIn rest
end

theorem leaves_eq (n : Node) :
    leaves n = if n.isComment then [] else if isLeaf n then [n] else leavesIn n.children := by
  cases n
  rw [leaves]
  rfl

theorem leavesIn_append (ns ms : List Node) : leavesIn (ns ++ ms) = leavesIn ns ++ leavesIn ms := by
  induction ns with
  | nil => rfl
  | cons n ns ih => rw [List.cons_append, leavesIn, leavesIn, ih, List.append_assoc]

-- The search comes to the same leaves, in the same order.
theorem searchLeaves_eq (nodes found : List Node) : searchLeaves nodes found = found ++ leavesIn nodes := by
  fun_induction searchLeaves nodes found with
  | case1 found => rw [leavesIn, List.append_nil]
  | case2 found n rest hcomment ih => rw [ih, leavesIn, leaves_eq, if_pos hcomment, List.nil_append]
  | case3 found n rest hcomment hleaf ih =>
      rw [ih, leavesIn, leaves_eq, if_neg hcomment, if_pos hleaf, List.append_assoc]
  | case4 found n rest hcomment hleaf ih =>
      rw [ih, leavesIn, leaves_eq, if_neg hcomment, if_neg hleaf, leavesIn_append]

-- The children of a node without its body.
def withoutBody (children : List Node) : List Node :=
  children.eraseP fun child => child.field == some "body"

-- The leaves of a declaration outside its body.
def declarationLeaves (n : Node) : List Node :=
  if n.isComment then []
  else if isLeaf n then [n]
  else searchLeaves (withoutBody n.children) []

theorem declarationLeaves_eq (n : Node) :
    declarationLeaves n = if n.isComment then [] else if isLeaf n then [n] else leavesIn (withoutBody n.children) := by
  rw [declarationLeaves, searchLeaves_eq, List.nil_append]

-- The texts of leaves, with one blank wherever there is a gap after byte `last`.
def spaced (s : Source) : Option Nat → List Node → String
  | _, [] => ""
  | last, n :: rest =>
    (if last.any (· < n.start) then " " else "") ++ s.text n ++ spaced s (some n.stop) rest

-- A declaration on one line, without its body and comments.
def ofNode (s : Source) (n : Node) : String :=
  tidy (spaced s none (declarationLeaves n))

end Signature

end CrateDocs.Syntax
