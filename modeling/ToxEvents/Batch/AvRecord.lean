import ToxEvents.Wire.Record
set_option autoImplicit false

namespace ToxEvents.Raw
open Wire

structure Call where
  friend : UInt32 := 0
  audio : Bool := false
  video : Bool := false
deriving DecidableEq, Repr

def Call.schema : Schema Call where
  name := "Call"
  blank := {}
  fields := [
    ⟨"friend_number", .uint32, (·.friend), fun x r => { r with friend := x }⟩,
    ⟨"audio_enabled", .bool, (·.audio), fun x r => { r with audio := x }⟩,
    ⟨"video_enabled", .bool, (·.video), fun x r => { r with video := x }⟩]

structure CallState where
  friend : UInt32 := 0
  states : List Int32 := []
deriving DecidableEq, Repr

def CallState.schema : Schema CallState where
  name := "CallState"
  blank := {}
  fields := [
    ⟨"friend_number", .uint32, (·.friend), fun x r => { r with friend := x }⟩,
    ⟨"call_state", .int32s, (·.states), fun x r => { r with states := x }⟩]

structure AudioBitRate where
  friend : UInt32 := 0
  rate : UInt32 := 0
deriving DecidableEq, Repr

def AudioBitRate.schema : Schema AudioBitRate where
  name := "AudioBitRate"
  blank := {}
  fields := [
    ⟨"friend_number", .uint32, (·.friend), fun x r => { r with friend := x }⟩,
    ⟨"audio_bit_rate", .uint32, (·.rate), fun x r => { r with rate := x }⟩]

structure VideoBitRate where
  friend : UInt32 := 0
  rate : UInt32 := 0
deriving DecidableEq, Repr

def VideoBitRate.schema : Schema VideoBitRate where
  name := "VideoBitRate"
  blank := {}
  fields := [
    ⟨"friend_number", .uint32, (·.friend), fun x r => { r with friend := x }⟩,
    ⟨"video_bit_rate", .uint32, (·.rate), fun x r => { r with rate := x }⟩]

structure AudioFrame where
  friend : UInt32 := 0
  pcm : Bytes := []
  channels : UInt32 := 0
  rate : UInt32 := 0
deriving DecidableEq, Repr

def AudioFrame.schema : Schema AudioFrame where
  name := "AudioReceiveFrame"
  blank := {}
  fields := [
    ⟨"friend_number", .uint32, (·.friend), fun x r => { r with friend := x }⟩,
    ⟨"pcm", .bytes, (·.pcm), fun x r => { r with pcm := x }⟩,
    ⟨"channels", .uint32, (·.channels), fun x r => { r with channels := x }⟩,
    ⟨"sampling_rate", .uint32, (·.rate), fun x r => { r with rate := x }⟩]

structure VideoFrame where
  friend : UInt32 := 0
  width : UInt32 := 0
  height : UInt32 := 0
  y : Bytes := []
  u : Bytes := []
  v : Bytes := []
  yStride : Int32 := 0
  uStride : Int32 := 0
  vStride : Int32 := 0
deriving DecidableEq, Repr

def VideoFrame.schema : Schema VideoFrame where
  name := "VideoReceiveFrame"
  blank := {}
  fields := [
    ⟨"friend_number", .uint32, (·.friend), fun x r => { r with friend := x }⟩,
    ⟨"width", .uint32, (·.width), fun x r => { r with width := x }⟩,
    ⟨"height", .uint32, (·.height), fun x r => { r with height := x }⟩,
    ⟨"y", .bytes, (·.y), fun x r => { r with y := x }⟩,
    ⟨"u", .bytes, (·.u), fun x r => { r with u := x }⟩,
    ⟨"v", .bytes, (·.v), fun x r => { r with v := x }⟩,
    ⟨"y_stride", .int32, (·.yStride), fun x r => { r with yStride := x }⟩,
    ⟨"u_stride", .int32, (·.uStride), fun x r => { r with uStride := x }⟩,
    ⟨"v_stride", .int32, (·.vStride), fun x r => { r with vStride := x }⟩]

end ToxEvents.Raw
