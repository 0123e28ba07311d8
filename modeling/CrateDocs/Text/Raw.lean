import CrateDocs.Text.Utf8

namespace CrateDocs

-- A unit of a raw text: a character, or one half of a pair of surrogates, which is no character.
inductive RawUnit
  | char (c : Char)
  | half (n : Fin 2048)
deriving DecidableEq, Repr

-- A text as a caller or the system gives it. A byte of a name that encodes no character comes as a half.
abbrev RawText := List RawUnit

-- Why a raw text is no text, and so has no bytes: the first half in it.
structure Unencodable where
  half : Fin 2048
deriving DecidableEq, Repr

namespace RawUnit

def code : RawUnit → Nat
  | char c => c.toNat
  | half n => 0xD800 + n.val

-- The number of bytes that a unit stands for in a name.
def size : RawUnit → Nat
  | char c => (String.utf8EncodeChar c).length
  | half _ => 1

-- A half is shown by its code.
def shown : RawUnit → List Char
  | char c => [c]
  | half n => '\\' :: 'u' :: Nat.toDigits 16 (half n).code

def toChar : RawUnit → Except Unencodable Char
  | char c => .ok c
  | half n => .error ⟨n⟩

end RawUnit

namespace RawText

def ofText (s : String) : RawText :=
  s.toList.map .char

def toText (t : RawText) : Except Unencodable String :=
  (t.mapM RawUnit.toChar).map String.ofList

def size (t : RawText) : Nat :=
  t.foldr (fun unit n => unit.size + n) 0

def shown (t : RawText) : String :=
  String.ofList (t.flatMap RawUnit.shown)

-- Whether one text comes before another or is the same, by the codes of their units.
def comesFirst : RawText → RawText → Bool
  | [], _ => true
  | _ :: _, [] => false
  | a :: as, b :: bs => a.code < b.code || a.code == b.code && comesFirst as bs

end RawText

end CrateDocs
