import CrateDocs.Disk.Replace
import CrateDocs.Event

namespace CrateDocs

-- What the program works on: the disk, the variables of its environment, the home directories of the
-- users there are, and the log with the events that it let through, in order. Of several values of a
-- variable the first counts. The home directory of the user that the program runs as is known apart
-- from the names of the users.
structure World where
  disk : Disk
  environment : List (String × String)
  users : List (String × String)
  log : Log
  events : List Event
  ownHome : Option String := none

-- A world with nothing but a disk, in which nothing was said about the log.
def World.ofDisk (disk : Disk) : World :=
  ⟨disk, [], [], ⟨[], Level.warning, false⟩, [], none⟩

-- What the program does: it ends with a result or a failure, and leaves a world in either case.
abbrev Work (α : Type) := ExceptT Failure (StateM World) α

namespace Work

-- The result of some work, and the world it leaves.
def runIn {α : Type} (work : Work α) (w : World) : Except Failure α × World :=
  StateT.run (ExceptT.run work) w

def fail {α : Type} (f : Fault) : Work α :=
  throw (.fault f)

-- Tells the log about an event.
def note (event : Event) : Work Unit :=
  modify fun w =>
    if w.log.lets event.logger event.level then { w with events := w.events ++ [event] } else w

-- Asks something of the disk.
def ask {α : Type} (question : Disk → Except DiskError α) : Work α := do
  match question (← get).disk with
  | .ok answer => pure answer
  | .error e => throw (.disk e)

-- The value of a variable of the environment.
def valueOf? (name : String) : Work (Option String) := do
  return (← get).environment.lookup name

end Work

end CrateDocs
