import ToxEvents.Delivery.Listener
import ToxEvents.Replay.Tally
set_option autoImplicit false

namespace ToxEvents

def FileKind.text (kind : FileKind) : String :=
  if kind = FileKind.data then "data"
  else if kind = FileKind.avatar then "avatar"
  else s!"kind {kind.value}"

def CoreEvent.detail : CoreEvent → String
  | selfConnectionStatus status => s!"connection {Enumeration.text status}"
  | friendName _ name => s!"name \"{name.text}\""
  | friendStatusMessage _ message => s!"status message \"{message.text}\""
  | friendStatus _ status => s!"status {Enumeration.text status}"
  | friendConnectionStatus _ status => s!"connection {Enumeration.text status}"
  | friendTyping _ typing => if typing then "typing" else "stopped typing"
  | friendReadReceipt _ message => s!"read message {message}"
  | friendRequest key age message => s!"request from {key.text} (+{age}ms): \"{message.text}\""
  | friendMessage _ kind age message =>
    s!"{Enumeration.text kind} message (+{age}ms): \"{message.text}\""
  | fileControl _ file control => s!"file {file.text} {Enumeration.text control}"
  | fileChunkRequest _ file position length =>
    s!"file {file.text} wants {length} bytes at {position}"
  | fileOffer _ file kind size name =>
    s!"file {file.text} \"{name.text}\" ({kind.text}, {size} bytes)"
  | fileChunk _ file position data =>
    s!"file {file.text} chunk of {data.length} bytes at {position}"
  | friendLossyPacket _ data => s!"lossy packet of {data.size} bytes"
  | friendLosslessPacket _ data => s!"lossless packet of {data.size} bytes"

def AvEvent.detail : AvEvent → String
  | call _ audio video => s!"incoming call (audio: {audio}, video: {video})"
  | callState _ state => s!"call state {state.described}"
  | audioBitRate _ rate => s!"audio bit rate {rate.text} kbit/s"
  | videoBitRate _ rate => s!"video bit rate {rate.text} kbit/s"
  | audioFrame _ samples channels rate =>
    s!"{samples.length} samples, {channels.text} channel(s) at {rate.text} Hz"
  | videoFrame _ frame => s!"{frame.width.text}x{frame.shape.height.text} frame"

structure Recorder where
  reuses : Bool
  spare : Option (FrameShape × FrameBuffers) := none
  /-- How many frames were given kept planes. -/
  reused : Nat := 0
deriving DecidableEq, Repr

namespace Recorder

def onCore (event : CoreEvent) (tally : Tally) : StateM Recorder Tally :=
  return tally.record event.category.name event.friend? fun _ => event.detail

def tallyAv (event : AvEvent) (tally : Tally) : Tally :=
  let tally := tally.record event.category.name (some event.friend) fun _ => event.detail
  match event with
  | .callState _ state => tally.withCallState state
  | _ => tally

def keep (frame : VideoFrame) (r : Recorder) : Recorder :=
  if r.reuses then { r with spare := some (frame.shape, frame.planes) } else r

def onAv (event : AvEvent) (tally : Tally) : StateM Recorder Tally := do
  if let .videoFrame _ frame := event then modify (keep frame)
  return tallyAv event tally

/-- Gives the spare planes away, if they are of this shape; those of another shape are lost. -/
def offer (shape : FrameShape) (r : Recorder) : Option FrameBuffers × Recorder :=
  if r.reuses then
    match r.spare with
    | some (spareShape, planes) =>
      if spareShape = shape then (some planes, { r with spare := none, reused := r.reused + 1 })
      else (none, { r with spare := none })
    | none => (none, r)
  else (none, r)

def coreListener : CoreListener Recorder Tally := { onEvent := onCore }

def avListener : AvListener Recorder Tally := { onEvent := onAv, buffers := offer }

end Recorder

end ToxEvents
