import ToxEvents.Log
set_option autoImplicit false

/-!
# Slot tables

An ordered table of callbacks whose handles stay good. A callback is addressed by the index of its
slot; slots never shift. Removing one leaves an empty slot, and only empty slots at the end of the
table are given back.
-/
namespace ToxEvents

structure SlotTable (κ : Type) where
  slots : List (Option κ) := []
deriving DecidableEq, Repr

inductive Removal where
  | removed
  | vacant
  /-- The table has only `size` slots. -/
  | beyond (size : Nat)
deriving DecidableEq, Repr

def Removal.record (slot : Nat) : Removal → LogRecord
  | removed => ⟨.trace, .slots, s!"Removed callback in slot {slot}"⟩
  | vacant => ⟨.warn, .slots, s!"Callback slot {slot} was already removed"⟩
  | beyond size => ⟨.debug, .slots, s!"Ignoring removal of slot {slot} from a table of {size}"⟩

namespace SlotTable

variable {κ : Type}

def trim : List (Option κ) → List (Option κ)
  | [] => []
  | slot :: rest =>
    match slot, trim rest with
    | none, [] => []
    | slot, rest => slot :: rest

def add (k : κ) (t : SlotTable κ) : SlotTable κ × Nat := (⟨t.slots ++ [some k]⟩, t.slots.length)

def addedRecord (slot : Nat) : LogRecord :=
  ⟨.trace, .slots, s!"Registered callback in slot {slot}"⟩

def remove (slot : Nat) (t : SlotTable κ) : SlotTable κ × Removal :=
  match t.slots[slot]? with
  | none => (t, .beyond t.slots.length)
  | some none => (t, .vacant)
  | some (some _) => (⟨trim (t.slots.set slot none)⟩, .removed)

/-- Slots, empty ones included. -/
def size (t : SlotTable κ) : Nat := t.slots.length

def live (t : SlotTable κ) : List κ := t.slots.filterMap id

def isEmpty (t : SlotTable κ) : Bool := t.live.isEmpty

def runAll {s : Type} (run : κ → s → κ × s) : List (Option κ) → s → List (Option κ) × s
  | [], state => ([], state)
  | none :: rest, state =>
    let (rest, state) := runAll run rest state
    (none :: rest, state)
  | some k :: rest, state =>
    let (k, state) := run k state
    let (rest, state) := runAll run rest state
    (some k :: rest, state)

/-- Runs every callback once; a callback may change itself. -/
def invoke {s : Type} (run : κ → s → κ × s) (t : SlotTable κ) (state : s) : SlotTable κ × s :=
  let (slots, state) := runAll run t.slots state
  (⟨slots⟩, state)

def described (t : SlotTable κ) : String :=
  "CallbackRegistry \x7b slots: " ++ toString t.size ++ ", live: " ++ toString t.live.length
    ++ " \x7d"

def describedHandle (slot : Nat) : String := s!"CallbackId({slot})"

end SlotTable

end ToxEvents
