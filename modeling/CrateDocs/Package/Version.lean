import CrateDocs.Text.Digit
import CrateDocs.Text.Pieces

namespace CrateDocs

namespace Version

-- A component of a version: a number, or a text without digits.
inductive Part
  | number (value : Nat)
  | word (text : String)
deriving DecidableEq, Repr

-- What versions are ordered by. A version without a pre-release comes after those with one.
structure Key where
  release : List Part
  isRelease : Bool
  pre : List Part
deriving DecidableEq, Repr

-- The classes of characters that components are told apart by.
inductive CharClass
  | dot
  | digit
  | other
deriving DecidableEq

def classOf (c : Char) : CharClass :=
  if Text.isDigit c then .digit else if c == '.' then .dot else .other

-- The components as they are written: the longest runs of digits, and of neither digits nor dots.
def tokens (cs : List Char) : List (List Char) :=
  (cs.splitBy fun a b => classOf a == classOf b).filter fun run => run.head?.map classOf != some .dot

def part (token : List Char) : Except Text.TooManyDigits Part :=
  if token.all Text.isDigit then
    if Text.digitLimit < token.length then .error ⟨token.length⟩
    else .ok (.number (Text.decimalValue token))
  else .ok (.word (String.ofList token))

def parts (cs : List Char) : Except Text.TooManyDigits (List Part) :=
  (tokens cs).mapM part

-- The key of a version. What follows the first `+` does not count; the first `-` before it starts
-- the pre-release.
def key (version : String) : Except Text.TooManyDigits Key := do
  let (counted, _) := Text.cutFirst '+' version.toList
  let (release, pre) := Text.cutFirst '-' counted
  return { release := ← parts release, isRelease := pre.isEmpty, pre := ← parts pre }

-- Numbers come by value and before words, words by code points.
def Part.compare : Part → Part → Ordering
  | .number a, .number b => Ord.compare a b
  | .number _, .word _ => .lt
  | .word _, .number _ => .gt
  | .word a, .word b => Ord.compare a b

-- The first difference decides, and a list comes before what it is the start of.
def compareParts : List Part → List Part → Ordering
  | [], [] => .eq
  | [], _ :: _ => .lt
  | _ :: _, [] => .gt
  | a :: as, b :: bs => (a.compare b).then (compareParts as bs)

def Key.compare (a b : Key) : Ordering :=
  (compareParts a.release b.release).then
    ((Ord.compare a.isRelease b.isRelease).then (compareParts a.pre b.pre))

end Version

end CrateDocs
