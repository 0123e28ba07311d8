import CrateDocs.Fault
import CrateDocs.Json.Basic
import CrateDocs.Log.State

namespace CrateDocs.Log

-- The configuration that is used if no other is given. Messages go to the error output, so that
-- answers stay apart from them.
def defaultConfig (level : String) : Json :=
  .object [
    ("version", .number "1"),
    ("disable_existing_loggers", .bool false),
    ("formatters", .object [
      ("standard", .object [
        ("format", .string "%(asctime)s.%(msecs)03d | %(levelname)-7s | %(name)s - %(message)s"),
        ("datefmt", .string "%H:%M:%S")]),
      ("detailed", .object [
        ("format", .string
          "%(asctime)s | %(levelname)-7s | %(name)s | %(funcName)s:%(lineno)d - %(message)s"),
        ("datefmt", .string "%Y-%m-%d %H:%M:%S")])]),
    ("handlers", .object [
      ("console", .object [
        ("class", .string "logging.StreamHandler"),
        ("formatter", .string "standard"),
        ("stream", .string "ext://sys.stderr")])]),
    ("loggers", .object [
      (programName, .object [
        ("level", .string level),
        ("handlers", .array [.string "console"]),
        ("propagate", .bool false)])]),
    ("root", .object [
      ("level", .string "WARNING"),
      ("handlers", .array [.string "console"])])]

-- Whether a value says anything at all.
def isTelling : Json → Bool
  | .null => false
  | .bool value => value
  | .number digits => digits.toList.any fun c => '1' ≤ c && c ≤ '9'
  | .string value => value != ""
  | .array items => !items.isEmpty
  | .object fields => !fields.isEmpty

-- A value as a message shows it.
mutual
def shown : Json → String
  | .null => "None"
  | .bool value => if value then "True" else "False"
  | .number digits => digits
  | .string value => Text.quoted value
  | .array items => "[" ++ shownItems items ++ "]"
  | .object fields => "\x7b" ++ shownFields fields ++ "\x7d"
def shownItems : List Json → String
  | [] => ""
  | [item] => shown item
  | item :: items => shown item ++ ", " ++ shownItems items
def shownFields : List (String × Json) → String
  | [] => ""
  | [(key, value)] => Text.quoted key ++ ": " ++ shown value
  | (key, value) :: fields => Text.quoted key ++ ": " ++ shown value ++ ", " ++ shownFields fields
end

-- A version as a message shows it: a text stands without quotation marks.
def shownVersion : Json → String
  | .string value => value
  | other => shown other

def isVersionOne : Json → Bool
  | .bool value => value
  | .number digits => digits == "1" || Text.startsWith "1.0" digits && (digits.toList.drop 2).all (· == '0')
  | _ => false

-- The kind of a value that has no parts.
def kindName : Json → String
  | .null => "NoneType"
  | .bool _ => "bool"
  | .number digits => if digits.toList.contains '.' then "float" else "int"
  | .string _ => "str"
  | .array _ => "list"
  | .object _ => "dict"

-- Why a value that is no table cannot be a configuration.
def noTable (config : Json) : LogFlaw :=
  match config with
  | .array (item :: _) =>
    match item with
    | .string s => .notPairs s.length
    | .array parts => .notPairs parts.length
    | .object fields => .notPairs fields.length
    | _ => .notSequence
  | .string s => if s.isEmpty then .noVersion else .notPairs 1
  | .array [] => .noVersion
  | other => .notIterable (kindName other)

-- The level that a value stands for.
def levelOf? : Json → Option Level
  | .number digits => digits.toInt?
  | .bool value => some (if value then 1 else 0)
  | .string name => Level.ofName? name
  | _ => none

-- What comes out of going through a value: the items of a sequence, the keys of a table, the characters of a text.
def iterated? : Json → Option (List Json)
  | .array items => some items
  | .object fields => some (fields.map fun field => .string field.1)
  | .string s => some (s.toList.map fun c => .string (String.singleton c))
  | .null | .bool _ | .number _ => none

-- The name that an item stands for among the entries of a section.
def itemName : Json → String
  | .string name => name
  | other => shown other

-- The entries of a section of the configuration; a section that is not there has none, and one that is no table
-- has names with nothing behind them.
def section? (config : Json) (name : String) : Except LogFlaw (List (String × Json)) :=
  match config.get? name with
  | none => .ok []
  | some (.object fields) => .ok fields
  | some other =>
    match iterated? other with
    | some items => .ok (items.map fun item => (itemName item, Json.null))
    | none => .error (.notIterable (kindName other))

-- What the parts of a configuration are made with: whether a formatter, a filter or a handler can be made from an
-- entry, the last beside the formatters and the filters that were made, and whether there is a handler of a name
-- already.
structure Kit where
  formatter : Json → Bool
  filter : Json → Bool
  handler : (formatters filters : List (String × Json)) → Json → Bool
  registered : String → Bool

-- Whether all that a field of an entry names is there.
def namesKnown (key : String) (known fields : List (String × Json)) : Bool :=
  match fields.lookup key with
  | none => true
  | some value =>
    !isTelling value ||
      (iterated? value).any fun items => items.all fun item => item.string?.any fun name => (known.lookup name).isSome

-- The level that the configuration of a logger sets, if it sets one; `none` if it is no level.
def levelSet? (fields : List (String × Json)) : Option (Option Level) :=
  match fields.lookup "level" with
  | none => some none
  | some .null => some none
  | some value => (levelOf? value).map some

-- The result of some steps, and the log they leave.
abbrev Outcome := Except LogFlaw Unit × Log

-- Configures one logger. Its level is set before the parts that its entry names are looked at, which is what
-- `named` does.
def configureLogger (named : List (String × Json) → Bool) (log : Log) (name : String) (config : Json) : Outcome :=
  let touched := log.touch name
  match config with
  | .object fields =>
    match levelSet? fields with
    | none => (.error (.badLogger name), touched)
    | some level =>
      let leveled := match level with
        | some l => touched.setLevel name l
        | none => touched
      if named fields then
        (.ok (), leveled.change name fun logger => { logger with disabled := false })
      else (.error (.badLogger name), leveled)
  | _ => (.error (.badLogger name), touched)

def configureLoggers (named : List (String × Json) → Bool) : List (String × Json) → Log → Outcome
  | [], log => (.ok (), log)
  | (name, config) :: rest, log =>
    match configureLogger named log name config with
    | (.ok (), next) => configureLoggers named rest next
    | failed => failed

-- Loggers that were there before and are not configured: those below a configured one lose their
-- level, the others are disabled or enabled.
def settleOthers (before configured : List String) (disable : Bool) (log : Log) : Log :=
  { log with
    loggers := log.loggers.map fun (name, logger) =>
      if !before.contains name || configured.contains name then (name, logger)
      else if configured.any fun outer => before.contains outer && Text.startsWith (outer ++ ".") name then
        (name, { logger with level := Level.unset })
      else (name, { logger with disabled := disable }) }

def configureRoot (named : List (String × Json) → Bool) (log : Log) : Option Json → Outcome
  | none => (.ok (), log)
  | some config =>
    if !isTelling config then (.ok (), log)
    else
      match config with
      | .object fields =>
        match levelSet? fields with
        | none => (.error .badRoot, log)
        | some level =>
          let leveled := { log with rootLevel := level.getD log.rootLevel }
          if named fields then (.ok (), leveled) else (.error .badRoot, leveled)
      | _ => (.error .badRoot, log)

-- The loggers of a configuration, and whether the parts that an entry names are there, if all of its formatters,
-- filters and handlers can be made.
def sections (kit : Kit) (config : Json) :
    Except LogFlaw ((List (String × Json) → Bool) × List (String × Json)) := do
  let formatters ← section? config "formatters"
  if let some bad := formatters.find? fun entry => !kit.formatter entry.2 then throw (.badFormatter bad.1)
  let filters ← section? config "filters"
  if let some bad := filters.find? fun entry => !kit.filter entry.2 then throw (.badFilter bad.1)
  let handlers ← section? config "handlers"
  let sorted := handlers.mergeSort fun a b => decide (a.1 ≤ b.1)
  if let some bad := sorted.find? fun entry => !kit.handler formatters filters entry.2 then throw (.badHandler bad.1)
  return (fun fields => namesKnown "handlers" handlers fields && namesKnown "filters" filters fields,
    ← section? config "loggers")

-- Applies all the sections of a configuration: formatters, filters, handlers, loggers, and the root.
def rebuild (kit : Kit) (config : Json) (log : Log) : Outcome :=
  let disable := ((config.get? "disable_existing_loggers").map isTelling).getD true
  match sections kit config with
  | .error flaw => (.error flaw, log)
  | .ok (named, loggers) =>
    match configureLoggers named loggers log with
    | (.error flaw, left) => (.error flaw, left)
    | (.ok (), left) =>
      let settled := settleOthers log.knownNames (loggers.map (·.1)) disable left
      configureRoot named settled (config.get? "root")

-- What is wrong with an entry that is to change a handler there is.
def handlerFlaw? (kit : Kit) (name : String) (config : Json) : Option LogFlaw :=
  if !kit.registered name then some (.noHandler name)
  else
    match config with
    | .object fields =>
      match fields.lookup "level" with
      | none => none
      | some level => if isTelling level && (levelOf? level).isNone then some (.badHandler name) else none
    | _ => some (.badHandler name)

-- The loggers of a configuration that changes the handlers there are.
def adjustments (kit : Kit) (config : Json) : Except LogFlaw (List (String × Json)) := do
  let handlers ← section? config "handlers"
  if let some flaw := handlers.findSome? fun entry => handlerFlaw? kit entry.1 entry.2 then throw flaw
  return ← section? config "loggers"

-- Applies a configuration that leaves all that it does not name as it is: only levels are set.
def adjust (kit : Kit) (config : Json) (log : Log) : Outcome :=
  match adjustments kit config with
  | .error flaw => (.error flaw, log)
  | .ok loggers =>
    match configureLoggers (fun _ => true) loggers log with
    | (.error flaw, left) => (.error flaw, left)
    | (.ok (), left) => configureRoot (fun _ => true) left (config.get? "root")

def isIncremental (config : Json) : Bool :=
  ((config.get? "incremental").map isTelling).getD false

def applySections (kit : Kit) (config : Json) (log : Log) : Outcome :=
  if isIncremental config then adjust kit config log else rebuild kit config log

-- Applies a configuration.
def applyConfig (kit : Kit) (config : Json) (log : Log) : Outcome :=
  match config with
  | .object fields =>
    match fields.lookup "version" with
    | none => (.error .noVersion, log)
    | some version =>
      if isVersionOne version then applySections kit config log
      else (.error (.unsupportedVersion (shownVersion version)), log)
  | other => (.error (noTable other), log)

end CrateDocs.Log
