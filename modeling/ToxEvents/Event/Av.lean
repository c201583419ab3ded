import ToxEvents.Batch.Surfaces
import ToxEvents.Event.CallFlags
import ToxEvents.Event.Picture
set_option autoImplicit false

namespace ToxEvents

inductive AvEvent where
  | call (friend : FriendNumber) (audio video : Bool)
  | callState (friend : FriendNumber) (state : CallFlags)
  | audioBitRate (friend : FriendNumber) (rate : BitRate)
  | videoBitRate (friend : FriendNumber) (rate : BitRate)
  | audioFrame (friend : FriendNumber) (samples : List Int16) (channels : Channels)
      (rate : SamplingRate)
  | videoFrame (friend : FriendNumber) (frame : VideoFrame)
deriving DecidableEq

def Raw.VideoFrame.shape (r : Raw.VideoFrame) : FrameShape :=
  ⟨⟨r.height⟩, r.yStride, r.uStride, r.vStride⟩

namespace AvEvent

def category : AvEvent → AvCategory
  | call .. => .call
  | callState .. => .callState
  | audioBitRate .. => .audioBitRate
  | videoBitRate .. => .videoBitRate
  | audioFrame .. => .audioFrame
  | videoFrame .. => .videoFrame

def friend : AvEvent → FriendNumber
  | call f .. => f
  | callState f _ => f
  | audioBitRate f _ => f
  | videoBitRate f _ => f
  | audioFrame f .. => f
  | videoFrame f _ => f

/-- The shape for which a record asks buffers, before an event is made of it. -/
def wanted? : (c : AvCategory) → c.Rec → Option FrameShape
  | .videoFrame, r => some r.shape
  | _, _ => none

def ofRecord (offered : Option FrameBuffers) : (c : AvCategory) → c.Rec → Except Rejection AvEvent
  | .call, r => return .call ⟨r.friend⟩ r.audio r.video
  | .callState, r => do
    return .callState ⟨r.friend⟩ (← CallFlags.ofCodes r.states)
  | .audioBitRate, r => return .audioBitRate ⟨r.friend⟩ ⟨r.rate⟩
  | .videoBitRate, r => return .videoBitRate ⟨r.friend⟩ ⟨r.rate⟩
  | .audioFrame, r => do
    return .audioFrame ⟨r.friend⟩ (← Samples.ofBytes r.pcm) ⟨r.channels⟩ ⟨r.rate⟩
  | .videoFrame, r => do
    let planes ← FrameBuffers.fill offered ⟨r.y, r.u, r.v⟩
    return .videoFrame ⟨r.friend⟩ ⟨⟨r.width⟩, r.shape, planes⟩

end AvEvent

end ToxEvents
