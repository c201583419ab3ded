import ToxEvents.Event.CallFlags
import ToxEvents.Event.Scalar
set_option autoImplicit false

namespace ToxEvents

structure EventRecord where
  batch : Nat
  category : String
  friend : Option UInt32
  detail : String
deriving DecidableEq, Repr

def increment (name : String) : List (String × Nat) → List (String × Nat)
  | [] => [(name, 1)]
  | (other, n) :: rest =>
    if name = other then (other, n + 1) :: rest
    else if name < other then (name, 1) :: (other, n) :: rest
    else (other, n) :: increment name rest

def includeFriend (n : UInt32) : List UInt32 → List UInt32
  | [] => [n]
  | m :: rest =>
    if n = m then m :: rest else if n < m then n :: m :: rest else m :: includeFriend n rest

structure Tally where
  batch : Nat := 0
  /-- By name; a category that has not come is not there. -/
  counts : List (String × Nat) := []
  /-- Ascending, each once. -/
  friends : List UInt32 := []
  lastCallState : Option UInt32 := none
  events : Option (Array EventRecord) := none
deriving DecidableEq, Repr

namespace Tally

def start (keepEvents : Bool) : Tally := { events := if keepEvents then some #[] else none }

def nextBatch (t : Tally) : Tally := { t with batch := t.batch + 1 }

/-- Counts one event. Its detail is asked for only if events are kept. -/
def record (category : String) (friend : Option FriendNumber) (detail : Unit → String)
    (t : Tally) : Tally :=
  { t with
    counts := increment category t.counts
    friends := match friend with
      | none => t.friends
      | some f => includeFriend f.value t.friends
    events := t.events.map
      (·.push ⟨t.batch, category, friend.map Number.value, detail ()⟩) }

def withCallState (flags : CallFlags) (t : Tally) : Tally :=
  { t with lastCallState := some flags.mask }

def total (t : Tally) : Nat := (t.counts.map Prod.snd).foldr (· + ·) 0

end Tally

end ToxEvents
