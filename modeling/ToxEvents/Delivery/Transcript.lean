import ToxEvents.Delivery.Listener
set_option autoImplicit false

namespace ToxEvents

inductive TranscriptEntry where
  | core (event : CoreEvent) (state : UInt32)
  | av (event : AvEvent) (state : UInt32)
  | offer (shape : FrameShape) (offered : Option FrameBuffers)
deriving DecidableEq

structure Transcript where
  entries : Array TranscriptEntry := #[]
  queue : List (Option FrameBuffers) := []
  /-- Buffers of frames that were received join the queue. -/
  recycles : Bool := false

namespace Transcript

def mix (state : UInt32) (position : Nat) : UInt32 := state * 31 + UInt32.ofNat position

def write (entry : TranscriptEntry) : StateM Transcript Unit :=
  modify fun t => { t with entries := t.entries.push entry }

def take (t : Transcript) : Array TranscriptEntry × Transcript :=
  (t.entries, { t with entries := #[] })

def onCore (event : CoreEvent) (state : UInt32) : StateM Transcript UInt32 := do
  write (.core event state)
  return mix state (CoreCategory.all.idxOf event.category + 1)

def onAv (event : AvEvent) (state : UInt32) : StateM Transcript UInt32 := do
  write (.av event state)
  if let .videoFrame _ frame := event then
    modify fun t => if t.recycles then { t with queue := t.queue ++ [some frame.planes] } else t
  return mix state (AvCategory.all.idxOf event.category + 1)

def onShape (shape : FrameShape) : StateM Transcript (Option FrameBuffers) := do
  let t ← get
  let offered := t.queue.head?.join
  set { t with queue := t.queue.tail }
  write (.offer shape offered)
  return offered

def coreListener (chosen : CoreCategory → Bool) : CoreListener Transcript UInt32 :=
  CoreListener.restrict chosen { onEvent := onCore }

def avListener (chosen : AvCategory → Bool) (offers : Bool) : AvListener Transcript UInt32 :=
  AvListener.restrict chosen offers { onEvent := onAv, buffers := onShape }

end Transcript

end ToxEvents
