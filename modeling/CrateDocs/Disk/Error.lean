import CrateDocs.Text.Quoted

namespace CrateDocs

-- Why an operation on the disk fails. All but the last are refusals of the system.
inductive Refusal
  | noEntry
  | denied
  | taken
  | notFolder
  | isFolder
  | nameTooLong
  | zeroByte
deriving DecidableEq, Repr

-- A failed operation on the disk, with the path it was given where the message tells it.
structure DiskError where
  refusal : Refusal
  path : Option String
deriving DecidableEq, Repr

namespace Refusal

-- The number and the words of a refusal.
def text : Refusal → String
  | noEntry => "[Errno 2] No such file or directory"
  | denied => "[Errno 13] Permission denied"
  | taken => "[Errno 17] File exists"
  | notFolder => "[Errno 20] Not a directory"
  | isFolder => "[Errno 21] Is a directory"
  | nameTooLong => "[Errno 36] File name too long"
  | zeroByte => "embedded null byte"

-- Whether a test for existence answers no, where it would fail otherwise.
def meansAbsent : Refusal → Bool
  | noEntry | notFolder | zeroByte => true
  | _ => false

end Refusal

namespace DiskError

def message (e : DiskError) : String :=
  match e.refusal, e.path with
  | .zeroByte, _ | _, none => e.refusal.text
  | _, some path => e.refusal.text ++ ": " ++ Text.quoted path

-- Whether the system itself refused, rather than the path being no path at all.
def fromSystem (e : DiskError) : Bool :=
  e.refusal != .zeroByte

end DiskError

-- A failed operation, and the failures that were being dealt with when it came, the latest first.
structure DiskTrouble where
  error : DiskError
  earlier : List DiskError
deriving DecidableEq, Repr

namespace DiskTrouble

def first (e : DiskError) : DiskTrouble :=
  ⟨e, []⟩

-- The trouble with one failure more before all of its own.
def during (t : DiskTrouble) (e : DiskError) : DiskTrouble :=
  ⟨t.error, t.earlier ++ [e]⟩

end DiskTrouble

end CrateDocs
