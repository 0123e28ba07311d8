import CrateDocs.Fault
import CrateDocs.Syntax.Tree

namespace CrateDocs.Extract

open Syntax (Tree)

-- What the words before `fn` say.
structure Qualifiers where
  unsafety : Unsafety
  constness : Constness
  abi : Abi
deriving DecidableEq, Repr

def Qualifiers.initial : Qualifiers := ⟨.normal, .plain, .rust⟩

-- The name in a string literal: without the mark of a raw string, its hashes, and the quotation marks.
def literalName (text : String) : String :=
  let cs := match text.toList with
    | 'r' :: rest => Text.trimWhile (· == '#') rest
    | all => all
  String.ofList (Text.trimWhile (· == '"') cs)

-- The calling convention of an `extern`; without a name it is that of C.
def abiOf (modifier : Tree) : Except Fault Abi :=
  match modifier.children.find? fun c => c.kind == "string_literal" || c.kind == "raw_string_literal" with
  | none => .ok .c
  | some literal =>
    let name := literalName literal.text
    match ofTag? name with
    | some abi => .ok abi
    | none => .error (.unsupportedAbi name modifier.span)

-- Takes in one word before `fn`.
def qualify (q : Qualifiers) (modifier : Tree) : Except Fault Qualifiers :=
  if modifier.kind == "unsafe" then .ok { q with unsafety := .marked }
  else if modifier.kind == "const" then .ok { q with constness := .marked }
  else if modifier.kind == "extern_modifier" then (abiOf modifier).map fun abi => { q with abi := abi }
  else if modifier.kind == "async" || modifier.kind == "default" then .ok q
  else .error (.unsupportedQualifier modifier.text modifier.span)

-- The words before `fn`, in order.
def modifiersOf (t : Tree) : List Tree :=
  (t.children.filter fun c => c.kind == "function_modifiers").flatMap (·.children)

def qualifiersOf (t : Tree) : Except Fault Qualifiers :=
  (modifiersOf t).foldlM qualify Qualifiers.initial

-- The visibilities that are written without a path.
def visibilities : List (String × Visibility) :=
  [("pub", .exported), ("pub(crate)", .internal), ("pub(self)", .internal), ("pub(super)", .internal),
    ("crate", .internal)]

def visibilityOf (t : Tree) : Except Fault Visibility :=
  match t.children.find? fun c => c.kind == "visibility_modifier" with
  | none => .ok .internal
  | some modifier =>
    let text := Text.withoutBlanks modifier.text
    match visibilities.lookup text with
    | some visibility => .ok visibility
    | none =>
      if Text.startsWith "pub(in" text then .ok .internal
      else .error (.unsupportedVisibility modifier.text modifier.span)

end CrateDocs.Extract
