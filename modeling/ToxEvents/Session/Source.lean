import ToxEvents.Event.Scalar
import ToxEvents.Log
set_option autoImplicit false

namespace ToxEvents
open Wire

class Source (β : Type) where
  /-- Runs one tick; there may be no batch. -/
  next : β → Option Bytes × β
  release : β → List LogRecord × β
  changeCall : FriendNumber → UInt32 → β → List LogRecord × β

structure Script where
  batches : List (Option Bytes) := []
deriving DecidableEq, Repr

namespace Script

def next (s : Script) : Option Bytes × Script := (s.batches.head?.join, ⟨s.batches.tail⟩)

instance : Source Script where
  next := next
  release s := ([], s)
  changeCall _ _ s := ([], s)

end Script

end ToxEvents
