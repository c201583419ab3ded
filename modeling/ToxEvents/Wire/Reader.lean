import ToxEvents.Wire.Input
import ToxEvents.Wire.Fault
set_option autoImplicit false

namespace ToxEvents.Wire

abbrev Reader (α : Type) := StateT Input (Except Fault) α

namespace Reader

def fail {α : Type} (cause : Cause) : Reader α := throw { cause }

def bytes (n : Nat) : Reader Bytes := fun input =>
  match input.split? n with
  | some r => .ok r
  | none => .error { cause := .bufferUnderflow }

def skip (n : Nat) : Reader Unit := fun input =>
  if n ≤ input.size then .ok ((), input.drop n) else .error { cause := .bufferUnderflow }

/-- Faults found by `r` name `place` as the field being read. -/
def within {α : Type} (place : Place) (r : Reader α) : Reader α := fun input =>
  (r input).mapError (·.inside place)

/-- Reads items while more than `stop` bytes are left; `fuel` bounds their number and `acc` holds
those read before, last first. -/
def itemsFrom {α : Type} (item : Reader α) (stop : Nat) : Nat → List α → Reader (List α)
  | 0, acc, input => .ok (acc.reverse, input)
  | fuel + 1, acc, input =>
    if input.size ≤ stop then .ok (acc.reverse, input) else
    match item input with
    | .error fault => .error fault
    | .ok (x, rest) => itemsFrom item stop fuel (x :: acc) rest

def items {α : Type} (item : Reader α) (stop : Nat) : Reader (List α) := fun input =>
  itemsFrom item stop input.size [] input

/-- Reads items up to the end that lies `length` bytes ahead. The end is looked for after each item
only, so an item that runs past it is read whole before the section is refused. -/
def itemsWithin {α : Type} (item : Reader α) (length : Nat) : Reader (List α) := fun input =>
  if input.size < length then .error { cause := .bufferUnderflow } else
  match items item (input.size - length) input with
  | .error fault => .error fault
  | .ok (xs, rest) =>
    if rest.size = input.size - length then .ok (xs, rest)
    else .error { cause := .lengthExceeded }

end Reader

end ToxEvents.Wire
