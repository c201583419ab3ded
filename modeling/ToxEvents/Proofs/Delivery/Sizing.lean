import Mathlib.Algebra.GroupWithZero.Nat
import ToxEvents.Proofs.Delivery.Planes
set_option autoImplicit false

namespace ToxEvents
open Wire

namespace FrameBuffers

theorem toNat_max (a b : UInt64) : (max a b).toNat = max a.toNat b.toNat := by
  change (if a ≤ b then b else a).toNat = _
  split
  case isTrue hle => exact (Nat.max_eq_right (UInt64.le_iff_toNat_le.mp hle)).symm
  case isFalse hlt =>
    rw [UInt64.le_iff_toNat_le] at hlt
    omega

/-- The least stride has a magnitude as well, though it is no signed number. -/
theorem toNat_magnitude (stride : Int32) : (magnitude stride).toNat = stride.toInt.natAbs := by
  change stride.toBitVec.abs.toNat = stride.toBitVec.toInt.natAbs
  have hlt := stride.toBitVec.isLt
  rw [BitVec.toNat_abs, BitVec.toInt_eq_msb_cond]
  split
  · omega
  · rfl

theorem natAbs_le (stride : Int32) : stride.toInt.natAbs ≤ 2 ^ 31 := by
  have hlow := stride.le_toInt
  have hhigh := stride.toInt_lt
  omega

theorem toNat_planeSize (row : UInt64) (stride : Int32) (rows : UInt64)
    (fits : max row.toNat stride.toInt.natAbs * rows.toNat < 2 ^ 64) :
    (planeSize row stride rows).toNat = max row.toNat stride.toInt.natAbs * rows.toNat := by
  rw [planeSize, UInt64.toNat_mul, toNat_max, UInt32.toNat_toUInt64, toNat_magnitude,
    Nat.mod_eq_of_lt fits]

def extents (width : Width) (shape : FrameShape) : Nat × Nat × Nat :=
  let row := width.value.toNat
  let rows := shape.height.value.toNat
  (max row shape.yStride.toInt.natAbs * rows, max (row / 2) shape.uStride.toInt.natAbs * (rows / 2),
    max (row / 2) shape.vStride.toInt.natAbs * (rows / 2))

variable {width : Width} {shape : FrameShape}

theorem luma_lt (row rows : UInt32) (stride : Int32) :
    max row.toNat stride.toInt.natAbs * rows.toNat < 2 ^ 64 := by
  have hrow : max row.toNat stride.toInt.natAbs < 2 ^ 32 :=
    Nat.max_lt.mpr ⟨row.toNat_lt, Nat.lt_of_le_of_lt (natAbs_le stride) (by decide)⟩
  calc
    max row.toNat stride.toInt.natAbs * rows.toNat < 2 ^ 32 * 2 ^ 32 :=
      Nat.mul_lt_mul'' hrow rows.toNat_lt
    _ = 2 ^ 64 := by decide

/-- Half the rows of half the columns stay below a quarter of what a word can hold. -/
theorem chroma_le (row rows : UInt32) (stride : Int32) :
    max (row.toNat / 2) stride.toInt.natAbs * (rows.toNat / 2) ≤ 2 ^ 62 := by
  have hrow := row.toNat_lt
  have hrows := rows.toNat_lt
  have hmax : max (row.toNat / 2) stride.toInt.natAbs ≤ 2 ^ 31 :=
    Nat.max_le.mpr ⟨by omega, natAbs_le stride⟩
  calc
    max (row.toNat / 2) stride.toInt.natAbs * (rows.toNat / 2) ≤ 2 ^ 31 * 2 ^ 31 :=
      Nat.mul_le_mul hmax (by omega)
    _ = 2 ^ 62 := by decide

theorem sizes_eq_extents (width : Width) (shape : FrameShape) :
    sizes width shape = extents width shape := by
  have hluma (stride : Int32) :=
    toNat_planeSize width.value.toUInt64 stride shape.height.value.toUInt64
  have hchroma (stride : Int32) :=
    toNat_planeSize (width.value.toUInt64 / 2) stride (shape.height.value.toUInt64 / 2)
  simp only [UInt64.toNat_div, UInt32.toNat_toUInt64] at hluma hchroma
  have hsmall (stride : Int32) :=
    Nat.lt_of_le_of_lt (chroma_le width.value shape.height.value stride)
      (by decide : (2 : Nat) ^ 62 < 2 ^ 64)
  simp only [sizes, extents, hluma _ (luma_lt width.value shape.height.value _)]
  exact congrArg _ (Prod.ext (hchroma _ (hsmall _)) (hchroma _ (hsmall _)))

theorem chroma_le_maxSize (width : Width) (shape : FrameShape) :
    (extents width shape).2.1 ≤ maxSize ∧ (extents width shape).2.2 ≤ maxSize :=
  have hbound : (2 : Nat) ^ 62 ≤ maxSize := by decide
  ⟨Nat.le_trans (chroma_le width.value shape.height.value shape.uStride) hbound,
    Nat.le_trans (chroma_le width.value shape.height.value shape.vStride) hbound⟩

theorem forFrame?_eq (width : Width) (shape : FrameShape) :
    forFrame? width shape =
      if (extents width shape).1 ≤ maxSize then
        some ⟨List.replicate (extents width shape).1 0, List.replicate (extents width shape).2.1 0,
          List.replicate (extents width shape).2.2 0⟩
      else none := by
  simp only [forFrame?, sizes_eq_extents, chroma_le_maxSize width shape, and_true]

theorem forFrame?_eq_none_iff :
    forFrame? width shape = none ↔ maxSize < (extents width shape).1 := by
  rw [forFrame?_eq]
  simp

theorem lengths_of_forFrame? {buffers : FrameBuffers}
    (granted : forFrame? width shape = some buffers) : buffers.lengths = extents width shape := by
  rw [forFrame?_eq] at granted
  split at granted
  · cases granted
    simp only [lengths, List.length_replicate]
  · cases granted

def Within (wire : FrameBuffers) (extents : Nat × Nat × Nat) : Prop :=
  wire.y.length ≤ extents.1 ∧ wire.u.length ≤ extents.2.1 ∧ wire.v.length ≤ extents.2.2

theorem fits_iff_within {wire buffers : FrameBuffers} :
    wire.Fits buffers ↔ wire.Within buffers.lengths := Iff.rfl

end FrameBuffers

section
variable {lam σ : Type} (listener : AvListener lam σ) {frame : Raw.VideoFrame}
  {buffers : FrameBuffers} {stage : Stage lam} {mid left : lam} {given : Option Bytes}
  {plane : Plane} {required available : Nat}

namespace AvListener

theorem outcome_deliver_of_fits (offered : listener.buffers frame.shape stage.listener =
      (some buffers, mid)) (fits : frame.planes.Fits buffers) (state : σ) :
    ∃ planes, FrameBuffers.Filled frame.planes (some buffers) planes ∧
      (listener.deliver .videoFrame frame state).outcome stage =
        let event := AvEvent.videoFrame ⟨frame.friend⟩ ⟨⟨frame.width⟩, frame.shape, planes⟩
        (.ok (listener.onEvent event state mid).1, (listener.onEvent event state mid).2) := by
  obtain ⟨planes, hfill, -⟩ := FrameBuffers.fill_of_fits fits
  refine ⟨planes, FrameBuffers.filled_of_fill hfill, ?_⟩
  have htranslate := listener.translate_videoFrame frame stage.listener
  rw [offered] at htranslate
  change _ = ((FrameBuffers.fill (some buffers) frame.planes).map _, mid) at htranslate
  rw [hfill] at htranslate
  rw [listener.does_deliver state .videoFrame frame stage]
  exact Handler.step_of_translated htranslate

/-- A frame is reached by a pass if the records before it have been delivered. -/
def Reaches (state : σ) (stage : Stage lam) (bytes : Bytes) (frame : Raw.VideoFrame) (mid : lam) :
    Prop :=
  ∃ batch k reached, Batch.decode AvCategory bytes = .ok batch ∧
    batch.toEntries[k]? = some ⟨.videoFrame, frame⟩ ∧
    ((batch.toEntries.take k).foldlM listener.handler.step state).run stage.listener =
      (.ok reached, mid)

theorem not_fits_of_planeTooSmall {entry : Entry AvCategory} {rejection : Rejection}
    (short : rejection.IsShort)
    (failed : (listener.handler.translate entry).run mid = (.error rejection, left)) :
    ∃ frame buffers, entry = ⟨.videoFrame, frame⟩ ∧
      (listener.buffers frame.shape mid).1 = some buffers ∧ ¬ frame.planes.Fits buffers := by
  obtain ⟨c, record⟩ := entry
  have hrecord : AvEvent.ofRecord (listener.offer ⟨c, record⟩ mid).1 c record =
      .error rejection := congrArg Prod.fst failed
  rcases AvEvent.ofRecord_error hrecord with own | ⟨hoffered, -⟩
  · exact absurd short own.not_isShort
  · cases c with
    | videoFrame =>
      obtain ⟨buffers, hbuffers⟩ := Option.ne_none_iff_exists'.mp hoffered
      refine ⟨record, buffers, rfl, hbuffers, fun fits => ?_⟩
      obtain ⟨planes, hfill, -⟩ := FrameBuffers.fill_of_fits fits
      have hfailed := return_eq_error hrecord
      rw [hbuffers] at hfailed
      cases hfailed.symm.trans hfill
    | _ => exact absurd rfl hoffered

theorem exists_of_planeTooSmall {state : σ} (ended : (listener.receive given state).outcome stage =
      (.error (.planeTooSmall plane required available), left)) :
    ∃ bytes frame mid buffers, given = some bytes ∧ listener.Reaches state stage bytes frame mid ∧
      (listener.buffers frame.shape mid).1 = some buffers ∧ ¬ frame.planes.Fits buffers := by
  cases given with
  | none => cases ended
  | some bytes =>
    cases decoded : Batch.decode AvCategory bytes with
    | error fault =>
      simp only [receive, decoded] at ended
      cases ended
    | ok batch =>
      rw [listener.does_receive decoded state] at ended
      obtain ⟨k, entry, reached, mid, hentry, hbefore, hfails⟩ := Handler.exists_failsAt ended
      obtain ⟨frame, buffers, rfl, hoffered, hroom⟩ := listener.not_fits_of_planeTooSmall
        ⟨plane, required, available, rfl⟩ (Handler.translate_of_step_error hfails)
      exact ⟨bytes, frame, mid, buffers, rfl, ⟨batch, k, reached, decoded, hentry, hbefore⟩,
        hoffered, hroom⟩

end AvListener

/-- What is to be said of new buffers for frames of one size. -/
structure FrameBuffers.Sized (width : Width) (shape : FrameShape) : Prop where
  /-- No product wraps, at whatever limit. -/
  exact : sizes width shape = extents width shape ∧ (extents width shape).1 < 2 ^ 64
  refused : forFrame? width shape = none ↔ 2 ^ 63 - 1 < (extents width shape).1
  /-- It is never for the other planes that buffers are refused. -/
  chroma : (extents width shape).2.1 ≤ 2 ^ 63 - 1 ∧ (extents width shape).2.2 ≤ 2 ^ 63 - 1
  granted : ∀ buffers, forFrame? width shape = some buffers →
    buffers.lengths = extents width shape ∧
    ∀ {lam σ : Type} (listener : AvListener lam σ) (frame : Raw.VideoFrame) (state : σ)
      (stage : Stage lam) (mid : lam),
      frame.planes.Within (extents width shape) →
      listener.buffers frame.shape stage.listener = (some buffers, mid) →
        ∃ planes, frame.y <+: planes.y ∧ frame.u <+: planes.u ∧ frame.v <+: planes.v ∧
          (listener.deliver .videoFrame frame state).outcome stage =
            let event := AvEvent.videoFrame ⟨frame.friend⟩ ⟨⟨frame.width⟩, frame.shape, planes⟩
            (.ok (listener.onEvent event state mid).1, (listener.onEvent event state mid).2)

/-- Buffers have the lengths that they should have at all limits, and a pass that ends for want of
room has come to a frame for which other buffers were offered, or longer ones needed. -/
theorem FrameBuffers.sizes_suffice :
    (∀ width shape, Sized width shape) ∧
    ∀ {lam σ : Type} (listener : AvListener lam σ) (given : Option Bytes) (state : σ)
      (stage : Stage lam) (plane : Plane) (required available : Nat) (left : lam),
      (listener.receive given state).outcome stage =
          (.error (.planeTooSmall plane required available), left) →
        ∃ bytes frame mid buffers, given = some bytes ∧
          listener.Reaches state stage bytes frame mid ∧
          (listener.buffers frame.shape mid).1 = some buffers ∧
          ∀ width shape, forFrame? width shape = some buffers →
            ¬ frame.planes.Within (extents width shape) := by
  constructor
  · intro width shape
    refine ⟨⟨sizes_eq_extents width shape, luma_lt _ _ _⟩, forFrame?_eq_none_iff,
      chroma_le_maxSize width shape, fun buffers granted => ?_⟩
    have hlengths := lengths_of_forFrame? granted
    refine ⟨hlengths, fun listener frame state stage mid within offered => ?_⟩
    have fits : frame.planes.Fits buffers := fits_iff_within.mpr (hlengths ▸ within)
    obtain ⟨planes, filled, houtcome⟩ := listener.outcome_deliver_of_fits offered fits state
    cases filled with
    | kept y u v => exact ⟨planes, y.front, u.front, v.front, houtcome⟩
  · intro lam σ listener given state stage plane required available left ended
    obtain ⟨bytes, frame, mid, buffers, hgiven, reaches, hoffered, hroom⟩ :=
      listener.exists_of_planeTooSmall ended
    refine ⟨bytes, frame, mid, buffers, hgiven, reaches, hoffered,
      fun width shape granted within => ?_⟩
    exact hroom (fits_iff_within.mpr (lengths_of_forFrame? granted ▸ within))

/-- The least strides, with as many rows as can be granted and with one row more; and a frame for
which a buffer is offered that is a byte too short. -/
theorem FrameBuffers.sizes_suffice_limits :
    let least := Int32.minValue
    let granted : FrameShape := ⟨⟨0x80000000⟩, least, least, least⟩
    let refused : FrameShape := ⟨⟨0x80000001⟩, least, least, least⟩
    let frame : Raw.VideoFrame := { height := 1, y := [1, 2], yStride := least }
    let batch : AvBatch := Batch.ofEntries [⟨.videoFrame, frame⟩]
    let listener : AvListener Unit Nat :=
      { onEvent := fun _ n => pure (n + 1), buffers := fun _ => pure (some ⟨[0], [], []⟩) }
    (extents ⟨0xFFFFFFFF⟩ granted = (0x7FFFFFFF80000000, 0x2000000000000000, 0x2000000000000000) ∧
      forFrame? ⟨0xFFFFFFFF⟩ granted ≠ none ∧ Sized ⟨0xFFFFFFFF⟩ granted) ∧
    (forFrame? ⟨0xFFFFFFFF⟩ refused = none ∧ Sized ⟨0xFFFFFFFF⟩ refused) ∧
    (listener.receive (some batch.encode) 0).outcome ⟨(), #[]⟩ =
      (.error (.planeTooSmall .y 2 1), ()) ∧
    ∃ bytes frame mid buffers, some batch.encode = some bytes ∧
      listener.Reaches 0 ⟨(), #[]⟩ bytes frame mid ∧
      (listener.buffers frame.shape mid).1 = some buffers ∧
      ∀ width shape, forFrame? width shape = some buffers →
        ¬ frame.planes.Within (extents width shape) := by
  intro least granted refused frame batch listener
  have ended : (listener.receive (some batch.encode) 0).outcome ⟨(), #[]⟩ =
      (.error (.planeTooSmall .y 2 1), ()) := by decide +kernel
  refine ⟨⟨by decide, mt forFrame?_eq_none_iff.mp (by decide), sizes_suffice.1 _ granted⟩,
    ⟨?_, sizes_suffice.1 _ refused⟩, ended, sizes_suffice.2 listener _ _ _ _ _ _ _ ended⟩
  exact forFrame?_eq_none_iff.mpr (by decide)

end

end ToxEvents
