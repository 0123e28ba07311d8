import CrateDocs.FunctionDoc.Tags
import CrateDocs.Json.Basic

namespace CrateDocs

-- What is recorded of one free function. The path leads from the crate to the function's own name.
structure FunctionDoc where
  path : List String
  signature : String
  unsafety : Unsafety
  constness : Constness
  visibility : Visibility
  abi : Abi
deriving DecidableEq, Repr

namespace FunctionDoc

def name (doc : FunctionDoc) : String :=
  doc.path.getLast?.getD ""

def qualifiedName (doc : FunctionDoc) : String :=
  "::".intercalate doc.path

-- The record as it is kept in a cache file.
def toJson (doc : FunctionDoc) : Json :=
  .object [
    ("path", .array (doc.path.map .string)),
    ("signature", .string doc.signature),
    ("unsafety", .string (tag doc.unsafety)),
    ("constness", .string (tag doc.constness)),
    ("visibility", .string (tag doc.visibility)),
    ("abi", .string (tag doc.abi))]

end FunctionDoc

end CrateDocs
