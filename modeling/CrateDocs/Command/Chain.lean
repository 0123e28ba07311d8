import CrateDocs.World

namespace CrateDocs.Command

-- A failure among others, with the places of the one it was raised from and of the one that was being
-- dealt with when it was raised.
structure Raised where
  failure : Failure
  cause : Option Nat
  context : Option Nat
deriving Repr

namespace Raised

-- The place of the failure behind this one: its cause, or else its context.
def behind? (r : Raised) : Option Nat :=
  r.cause <|> r.context

-- The places that following the links from `place` leads through, as long as they are unseen. Each
-- step takes a place out of `unseen`, so a ring of failures is told once.
def trail (raised : List Raised) (unseen : List Nat) (place : Nat) : List Nat :=
  if _found : place ∈ unseen then
    match (raised[place]?).bind behind? with
    | some next => place :: trail raised (unseen.erase place) next
    | none => [place]
  else []
termination_by unseen.length
decreasing_by
  have shorter := List.length_erase_of_mem _found
  have positive := List.length_pos_of_mem _found
  omega

-- The failures behind the one at `top`, itself first.
def chain (raised : List Raised) (top : Nat) : List Failure :=
  (trail raised (List.range raised.length) top).filterMap fun place => (raised[place]?).map failure

-- Some failures of which each was raised from the next one.
def ofList (failures : List Failure) : List Raised :=
  failures.zipIdx.map fun (failure, place) =>
    ⟨failure, if place + 1 < failures.length then some (place + 1) else none, none⟩

-- The events that tell of a chain of failures.
def events : List Failure → List Event
  | [] => []
  | top :: rest => .failed top :: rest.map .causedBy

end Raised

-- Tells the log about the failure at `top` and everything behind it.
def tellChain (raised : List Raised) (top : Nat) : Work Unit :=
  (Raised.events (Raised.chain raised top)).forM Work.note

-- Tells the log about a fault and what led to it.
def tellFault (f : Fault) : Work Unit :=
  tellChain (Raised.ofList (.fault f :: f.origins)) 0

end CrateDocs.Command
