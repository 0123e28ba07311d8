import CrateDocs.Command.Switch

namespace CrateDocs.Command

-- What a command line asks for. `generate` holds the values of the last switch of that name, and
-- `query` the operands once there were any.
structure Request where
  version : Bool
  verbose : Bool
  generate : Option (List String)
  query : Option (List String)
deriving DecidableEq, Repr

namespace Request

def empty : Request := ⟨false, false, none, none⟩

-- Takes a switch in. A value that is only the mark is dropped.
def withSwitch (r : Request) (s : Switch) (value : Option String) : Request :=
  match s with
  | .help => r
  | .version => { r with version := true }
  | .verbose => { r with verbose := true }
  | .generate => { r with generate := some (value.toList.erase "--") }

end Request

-- How a bundle of switches ends: the plain ones in it, the last one, and what is attached to that.
structure Bundle where
  plain : List Switch
  last : Switch
  attached : Option (List Char)

def Bundle.switches (b : Bundle) : List Switch :=
  b.plain ++ [b.last]

-- Takes apart a switch and what is attached to it. After a short switch without a value come others.
def Bundle.unpack (s : Switch) (short : Bool) : List Char → Except Misuse Bundle
  | [] => .error (.unwantedValue s "")
  | c :: rest =>
    if s.takesValue then .ok ⟨[], s, some (c :: rest)⟩
    else
      match short, Switch.spellings.lookup (String.ofList ['-', c]), rest with
      | true, some next, [] => .ok ⟨[s], next, none⟩
      | true, some next, _ => do
        let bundle ← unpack next true rest
        return { bundle with plain := s :: bundle.plain }
      | _, _, _ => .error (.unwantedValue s (String.ofList (c :: rest)))

def Bundle.of (s : Switch) (short : Bool) : Option (List Char) → Except Misuse Bundle
  | none => .ok ⟨[], s, none⟩
  | some [] => if s.takesValue then .ok ⟨[], s, some []⟩ else .error (.unwantedValue s "")
  | some attached => unpack s short attached

-- The outcome of reading a command line: help is asked for, or something is to be done.
inductive Reading
  | help
  | request (r : Request)
deriving DecidableEq, Repr

-- Where the reading of a command line stands: between words, in the query, or before the value of a
-- switch, which help may have been asked for beside.
inductive Standing
  | between
  | inQuery
  | before (s : Switch) (help : Bool)

namespace Request

-- The rest of a command line, whose extra words so far are `extra`. The first run of operands is the
-- query, later ones are extra.
def readWords : Request → Standing → List String → List Word → Except Misuse Reading
  | _, .before s _, _, [] => .error (.noValue s)
  | r, _, extra, [] => if extra.isEmpty then .ok (.request r) else .error (.unrecognized extra)
  | r, .before s help, extra, .operand value :: rest =>
    if help then .ok .help else readWords (r.withSwitch s (some value)) .between extra rest
  | _, .before s _, _, _ => .error (.noValue s)
  | r, _, extra, .unknown text :: rest => readWords r .between (extra ++ [text]) rest
  | r, .inQuery, extra, .operand text :: rest =>
    readWords { r with query := some (r.query.getD [] ++ [text]) } .inQuery extra rest
  | r, .inQuery, extra, .mark :: rest => readWords r .inQuery extra rest
  | r, .between, extra, .operand text :: rest =>
    if r.query.isSome then readWords r .between (extra ++ [text]) rest
    else readWords { r with query := some [text] } .inQuery extra rest
  | r, .between, extra, .mark :: rest =>
    if r.query.isSome then readWords r .between (extra ++ ["--"]) rest
    else readWords { r with query := some [] } .inQuery extra rest
  | r, _, extra, .switch s short attached :: rest =>
    match Bundle.of s short attached with
    | .error misuse => .error misuse
    | .ok bundle =>
      let plain := bundle.plain.foldl (fun r s => r.withSwitch s none) r
      if bundle.last.takesValue && bundle.attached.isNone then
        readWords plain (.before bundle.last (bundle.plain.contains .help)) extra rest
      else if bundle.switches.contains .help then .ok .help
      else readWords (plain.withSwitch bundle.last (bundle.attached.map String.ofList)) .between extra rest

-- What the words of a command line ask for.
def read (words : List String) : Except Misuse Reading := do
  readWords empty .between [] (← Word.ofTexts words)

end Request

end CrateDocs.Command
