import CrateDocs.FunctionDoc.Tags

namespace CrateDocs.Extract

-- The owner of the innermost list of items that a node stands in.
inductive Container
  | module
  | impl
  | trait
  | foreign
  | function
deriving DecidableEq, Repr

instance : Tagged Container where
  all := [.module, .impl, .trait, .foreign, .function]
  tag
    | .module => "module"
    | .impl => "impl"
    | .trait => "trait"
    | .foreign => "foreign"
    | .function => "function"

-- The declarations that look like functions.
inductive DeclarationKind
  | freeFunction
  | method
  | foreignFunction
  | closure
deriving DecidableEq, Repr

instance : Tagged DeclarationKind where
  all := [.freeFunction, .method, .foreignFunction, .closure]
  tag
    | .freeFunction => "free_function"
    | .method => "method"
    | .foreignFunction => "foreign_function"
    | .closure => "closure"

-- Kinds of nodes that nothing is looked for in.
def isSealed (kind : String) : Bool :=
  kind == "macro_invocation" || kind == "macro_definition"

-- The container that the children of a node stand in, if it is a new one. Initial values can hold
-- items of their own, also among the items of an implementation or a trait.
def containerOf? (kind : String) : Option Container :=
  [("source_file", Container.module), ("mod_item", .module), ("impl_item", .impl), ("trait_item", .trait),
    ("foreign_mod_item", .foreign), ("function_item", .function), ("function_signature_item", .function),
    ("closure_expression", .function), ("const_item", .function), ("static_item", .function),
    ("block", .function)].lookup kind

-- What a node of some kind declares in a container.
def classify (kind : String) (container : Container) : Option DeclarationKind :=
  if kind == "closure_expression" then some .closure
  else if kind == "function_item" || kind == "function_signature_item" then
    match container with
    | .impl | .trait => some .method
    | .foreign => some .foreignFunction
    | .module | .function => if kind == "function_item" then some .freeFunction else none
  else none

end CrateDocs.Extract
