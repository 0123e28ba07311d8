import CrateDocs.Text.Digit
import CrateDocs.Text.Pieces
import CrateDocs.Text.Quoted

namespace CrateDocs.Command

-- What can be switched on at the command line.
inductive Switch
  | help
  | version
  | generate
  | verbose
deriving DecidableEq, Repr

namespace Switch

-- Every spelling of a switch, in the order they are offered.
def spellings : List (String × Switch) :=
  [("-h", help), ("--help", help), ("-V", version), ("--version", version),
    ("-g", generate), ("--generate", generate), ("-v", verbose), ("--verbose", verbose)]

-- A switch as messages call it.
def label (s : Switch) : String :=
  "/".intercalate ((spellings.filter fun spelling => spelling.2 == s).map (·.1))

def takesValue : Switch → Bool
  | generate => true
  | help | version | verbose => false

end Switch

-- What is wrong with a command line.
inductive Misuse
  | ambiguous (word : String) (spellings : List String)
  | noValue (s : Switch)
  | unwantedValue (s : Switch) (value : String)
  | unrecognized (words : List String)
deriving DecidableEq, Repr

def Misuse.message : Misuse → String
  | ambiguous word spellings =>
    s!"ambiguous option: {word} could match " ++ ", ".intercalate spellings
  | noValue s => s!"argument {s.label}: expected one argument"
  | unwantedValue s value => s!"argument {s.label}: ignored explicit argument {Text.quoted value}"
  | unrecognized words => "unrecognized arguments: " ++ " ".intercalate words

-- What a word of the command line is: an operand, the mark after which all words are operands, a
-- switch with what is attached to it, or nothing known. A short switch may have others attached.
inductive Word
  | operand (text : String)
  | mark
  | switch (s : Switch) (short : Bool) (attached : Option (List Char))
  | unknown (text : String)
deriving DecidableEq, Repr

namespace Word

-- Whether a text after a minus sign makes a number: digits, or a fraction. A line break may follow.
def isNumber (cs : List Char) : Bool :=
  let written := if cs.getLast? == some '\n' then cs.dropLast else cs
  match written.dropWhile Text.isDigit with
  | [] => !written.isEmpty
  | '.' :: fraction => !fraction.isEmpty && fraction.all Text.isDigit
  | _ => false

-- A word that starts with a minus sign and is no spelling of a switch. One that starts with two of
-- them may be cut short, with a value after an equals sign.
def ofDashed (word : String) : Except Misuse Word :=
  let cs := word.toList
  let named := cs.takeWhile (· != '=')
  let value := if cs.contains '=' then some (cs.drop (named.length + 1)) else none
  match Switch.spellings.lookup (String.ofList named), value with
  | some s, some _ => .ok (.switch s (named.length == 2) value)
  | _, _ =>
    let found :=
      if ['-', '-'].isPrefixOf cs then
        (Switch.spellings.filter fun spelling => named.isPrefixOf spelling.1.toList).map fun spelling =>
          (spelling.1, Word.switch spelling.2 false value)
      else
        (Switch.spellings.filter fun spelling => spelling.1.toList == cs.take 2).map fun spelling =>
          (spelling.1, Word.switch spelling.2 true (some (cs.drop 2)))
    match found with
    | [(_, only)] => .ok only
    | _ :: _ :: _ => .error (.ambiguous word (found.map (·.1)))
    | [] => .ok (if isNumber (cs.drop 1) || cs.contains ' ' then .operand word else .unknown word)

-- What a word is, before the mark.
def ofText (word : String) : Except Misuse Word :=
  match word.toList with
  | '-' :: rest =>
    match Switch.spellings.lookup word with
    | some s => .ok (.switch s (rest.length == 1) none)
    | none => if rest.isEmpty then .ok (.operand word) else ofDashed word
  | _ => .ok (.operand word)

-- What the words of a command line are.
def ofTexts : List String → Except Misuse (List Word)
  | [] => .ok []
  | text :: rest =>
    if text == "--" then .ok (.mark :: rest.map .operand)
    else do return (← ofText text) :: (← ofTexts rest)

end Word

end CrateDocs.Command
