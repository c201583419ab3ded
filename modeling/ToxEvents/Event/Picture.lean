import ToxEvents.Event.Scalar
import ToxEvents.Event.Rejection
set_option autoImplicit false

namespace ToxEvents
open Wire

/-- Height and strides: what a set of buffers is cut for. -/
structure FrameShape where
  height : Height
  yStride : Int32
  uStride : Int32
  vStride : Int32
deriving DecidableEq, Repr

structure FrameBuffers where
  y : Bytes := []
  u : Bytes := []
  v : Bytes := []
deriving DecidableEq, Repr

namespace FrameBuffers

/-- How far apart rows are; strides of frames stored bottom up are negative. -/
def magnitude (stride : Int32) : UInt32 := stride.abs.toUInt32

/-- The length of a plane. A row spans the pixels or the stride, whichever is longer. -/
def planeSize (row : UInt64) (stride : Int32) (rows : UInt64) : UInt64 :=
  max row (magnitude stride).toUInt64 * rows

def sizes (width : Width) (shape : FrameShape) : Nat × Nat × Nat :=
  let row := width.value.toUInt64
  let rows := shape.height.value.toUInt64
  ((planeSize row shape.yStride rows).toNat, (planeSize (row / 2) shape.uStride (rows / 2)).toNat,
    (planeSize (row / 2) shape.vStride (rows / 2)).toNat)

def maxSize : Nat := 0x7FFFFFFFFFFFFFFF

/-- Zeroed planes for a frame, unless one of them is too long to exist. -/
def forFrame? (width : Width) (shape : FrameShape) : Option FrameBuffers :=
  let (y, u, v) := sizes width shape
  if y ≤ maxSize ∧ u ≤ maxSize ∧ v ≤ maxSize then
    some ⟨List.replicate y 0, List.replicate u 0, List.replicate v 0⟩
  else none

/-- Puts `source` at the start of a buffer and keeps the buffer's own bytes after it. -/
def overwrite (plane : Plane) (source target : Bytes) : Except Rejection Bytes :=
  if target.length < source.length then
    .error (.planeTooSmall plane source.length target.length)
  else .ok (source ++ target.drop source.length)

/-- The planes to deliver: those from the wire, or the offered buffers filled with them. -/
def fill (offered : Option FrameBuffers) (wire : FrameBuffers) : Except Rejection FrameBuffers :=
  match offered with
  | none => .ok wire
  | some buffers => do
    let y ← overwrite .y wire.y buffers.y
    let u ← overwrite .u wire.u buffers.u
    let v ← overwrite .v wire.v buffers.v
    return ⟨y, u, v⟩

end FrameBuffers

structure VideoFrame where
  width : Width
  shape : FrameShape
  planes : FrameBuffers
deriving DecidableEq, Repr

namespace Samples

def ofPair (high low : UInt8) : Int16 := (high.toUInt16 * 256 + low.toUInt16).toInt16

/-- Whole pairs of bytes; a last single byte is left out. -/
def pairs : Bytes → List Int16
  | high :: low :: rest => ofPair high low :: pairs rest
  | _ => []

def ofBytes (bytes : Bytes) : Except Rejection (List Int16) :=
  if bytes.length % 2 = 0 then .ok (pairs bytes) else .error (.oddSamples bytes.length)

end Samples

end ToxEvents
