import ToxEvents.Delivery.Pass
import ToxEvents.Event.Core
import ToxEvents.Event.Av
set_option autoImplicit false

namespace ToxEvents
open Wire

structure CoreListener (lam σ : Type) where
  onEvent : CoreEvent → σ → StateM lam σ

structure AvListener (lam σ : Type) where
  onEvent : AvEvent → σ → StateM lam σ
  /-- Buffers for a frame of this shape, asked for just before the frame is delivered. -/
  buffers : FrameShape → StateM lam (Option FrameBuffers)

variable {lam σ : Type}

namespace CoreListener

def restrict (chosen : CoreCategory → Bool) (listener : CoreListener lam σ) :
    CoreListener lam σ where
  onEvent event state :=
    if chosen event.category then listener.onEvent event state else pure state

def deliver (listener : CoreListener lam σ) (c : CoreCategory) (record : c.Rec) (state : σ) :
    Pass lam σ := do
  let event ← Pass.accept (CoreEvent.ofRecord c record)
  Pass.act (listener.onEvent event state)

/-- Delivers one batch; where there is none, nothing happens. -/
def receive (listener : CoreListener lam σ) (bytes : Option Bytes) (state : σ) : Pass lam σ :=
  match bytes with
  | none => pure state
  | some bytes =>
    match Batch.decode CoreCategory bytes with
    | .error fault => Pass.reject (.malformed fault)
    | .ok batch => do
      Pass.note .debug .coreBatch s!"Decoded protocol event batch with {batch.size} record(s)"
      deliverBatch (C := CoreCategory) listener.deliver batch state

end CoreListener

namespace AvListener

/-- Answers only events of the chosen categories, and offers buffers only if `offers`. -/
def restrict (chosen : AvCategory → Bool) (offers : Bool) (listener : AvListener lam σ) :
    AvListener lam σ where
  onEvent event state :=
    if chosen event.category then listener.onEvent event state else pure state
  buffers shape := if offers then listener.buffers shape else pure none

def deliver (listener : AvListener lam σ) (c : AvCategory) (record : c.Rec) (state : σ) :
    Pass lam σ := do
  let offered ←
    match AvEvent.wanted? c record with
    | some shape => Pass.act (listener.buffers shape)
    | none => pure none
  let event ← Pass.accept (AvEvent.ofRecord offered c record)
  Pass.act (listener.onEvent event state)

def receive (listener : AvListener lam σ) (bytes : Option Bytes) (state : σ) : Pass lam σ :=
  match bytes with
  | none => pure state
  | some bytes =>
    match Batch.decode AvCategory bytes with
    | .error fault => Pass.reject (.malformed fault)
    | .ok batch => do
      Pass.note .debug .avBatch s!"Decoded audio/video event batch with {batch.size} record(s)"
      deliverBatch (C := AvCategory) listener.deliver batch state

end AvListener

end ToxEvents
