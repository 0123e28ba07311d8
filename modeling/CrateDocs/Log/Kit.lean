import CrateDocs.Log.Config

namespace CrateDocs.Log

-- Whether a format has a place for a value: a percent sign, a name in parentheses, and a conversion.
def hasField : List Char → Bool
  | [] => false
  | '%' :: '(' :: rest =>
    let name := rest.takeWhile fun c => c.isAlphanum || c == '_'
    match rest.drop name.length with
    | ')' :: conversion =>
      let shape := conversion.dropWhile fun c => "#0+ -*.123456789".toList.contains c
      (!name.isEmpty && shape.head?.any fun c => "diouxefgcrsaDIOUXEFGCRSA%".toList.contains c) || hasField rest
    | _ => hasField rest
  | _ :: rest => hasField rest

-- Whether a format of a style has a place for a value. Of the styles other than the first only the mark that such
-- a place starts with is looked for.
def hasPlace (style : String) (format : String) : Bool :=
  match style with
  | "%" => hasField format.toList
  | "\x7b" => format.toList.contains '\x7b'
  | "$" => format.toList.contains '$'
  | _ => false

def isGoodFormatter : Json → Bool
  | .object fields =>
    let style := ((fields.lookup "style").map Json.string?).getD (some "%")
    (style.any ["%", "\x7b", "$"].contains) &&
      match fields.lookup "format" with
      | none => true
      | some (.string format) => format.isEmpty || style.any (hasPlace · format)
      | some value => !isTelling value
  | _ => false

-- A filter is made from any table.
def isGoodFilter : Json → Bool
  | .object _ => true
  | _ => false

-- The keys that a handler of some class has of its own.
def handlerKeys? : String → Option (List String)
  | "logging.StreamHandler" => some ["stream"]
  | "logging.NullHandler" => some []
  | _ => none

-- A stream is one that the program has, or any value that is no reference.
def isGoodStream : Json → Bool
  | .string s => ["ext://sys.stderr", "ext://sys.stdout"].contains s || !Text.startsWith "ext://" s
  | _ => true

def isGoodHandler (formatters filters : List (String × Json)) : Json → Bool
  | .object fields =>
    match ((fields.lookup "class").bind Json.string?).bind handlerKeys? with
    | none => false
    | some keys =>
      (match fields.lookup "formatter" with
        | none => true
        | some (.string formatter) => formatter.isEmpty || (formatters.lookup formatter).isSome
        | some value => !isTelling value) &&
      (match fields.lookup "level" with
        | none => true
        | some .null => true
        | some level => (levelOf? level).isSome) &&
      namesKnown "filters" filters fields &&
      (fields.lookup "stream").all isGoodStream &&
      fields.all fun field => (["class", "formatter", "level", "filters"] ++ keys).contains field.1
  | _ => false

-- The parts that the program makes without a library of handlers: formatters, filters by name, and handlers that
-- write to a stream or nowhere.
def plainKit : Kit where
  formatter := isGoodFormatter
  filter := isGoodFilter
  handler := isGoodHandler
  registered := fun _ => false

end CrateDocs.Log
