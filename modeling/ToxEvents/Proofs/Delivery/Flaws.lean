import ToxEvents.Proofs.Delivery.SingleFold
set_option autoImplicit false

namespace ToxEvents
open Wire

def refusal? {α : Type} : Except Rejection α → Option Rejection
  | .ok _ => none
  | .error rejection => some rejection

section
variable {α β σ : Type}

/-- What comes after a success may fail too, but not for a reason that depends on what succeeded. -/
theorem refusal?_bind {first : Except Rejection α} {next : α → Except Rejection β}
    {other : Option Rejection} (later : ∀ a, refusal? (next a) = other) :
    refusal? (first >>= next) = (refusal? first).or other := by
  cases first with
  | error rejection => rfl
  | ok a => exact later a

theorem refusal?_return (first : Except Rejection α) (f : α → β) :
    refusal? (do return f (← first)) = refusal? first := by
  cases first <;> rfl

theorem findSome?_cons_eq_or (flaw? : α → Option β) (x : α) (xs : List α) :
    (x :: xs).findSome? flaw? = (flaw? x).or (xs.findSome? flaw?) := by
  rw [List.findSome?_cons]
  cases flaw? x <;> rfl

theorem refusal?_foldlM {step : σ → α → Except Rejection σ} {flaw? : α → Option Rejection}
    (one : ∀ state x, refusal? (step state x) = flaw? x) (xs : List α) (state : σ) :
    refusal? (xs.foldlM step state) = xs.findSome? flaw? := by
  induction xs generalizing state with
  | nil => rfl
  | cons x xs ih => rw [List.foldlM_cons, refusal?_bind ih, one, findSome?_cons_eq_or]

end

def outOfRange? (title : String) (count : Nat) (code : Int32) : Option Rejection :=
  if 0 ≤ code.toInt ∧ code.toInt < count then none else some (.unknownEnumerator title code)

def shortPlane? (plane : Plane) (source target : Bytes) : Option Rejection :=
  if source.length ≤ target.length then none
  else some (.planeTooSmall plane source.length target.length)

def CoreCategory.flaw? : (c : CoreCategory) → c.Rec → Option Rejection
  | .selfConnectionStatus, r => outOfRange? "Connection" 3 r.status
  | .friendName, _ => none
  | .friendStatusMessage, _ => none
  | .friendStatus, r => outOfRange? "UserStatus" 3 r.status
  | .friendConnectionStatus, r => outOfRange? "Connection" 3 r.status
  | .friendTyping, _ => none
  | .friendReadReceipt, _ => none
  | .friendRequest, r => if r.key.length = 32 then none else some (.keyLength 32 r.key.length)
  | .friendMessage, r => outOfRange? "MessageType" 2 r.kind
  | .fileControl, r => outOfRange? "FileControl" 3 r.control
  | .fileChunkRequest, _ => none
  | .fileOffer, _ => none
  | .fileChunk, _ => none
  | .friendLossyPacket, _ => none
  | .friendLosslessPacket, _ => none

/-- What is wrong with a record for which these buffers are offered. -/
def AvCategory.flaw? (offered : Option FrameBuffers) : (c : AvCategory) → c.Rec → Option Rejection
  | .call, _ => none
  | .callState, r => r.states.findSome? (outOfRange? "CallState.Kind" 6)
  | .audioBitRate, _ => none
  | .videoBitRate, _ => none
  | .audioFrame, r => if r.pcm.length % 2 = 0 then none else some (.oddSamples r.pcm.length)
  | .videoFrame, r => offered.bind fun buffers =>
      (shortPlane? .y r.y buffers.y).or
        ((shortPlane? .u r.u buffers.u).or (shortPlane? .v r.v buffers.v))

theorem Enumeration.refusal?_ofCode {ε : Type} [Enumeration ε] (code : Int32) :
    refusal? (ofCode code : Except Rejection ε) =
      outOfRange? (title ε) (all (ε := ε)).length code := by
  have hneg : code < 0 ↔ code.toInt < 0 := Int32.lt_iff_toInt_lt
  unfold ofCode ofCode? outOfRange?
  by_cases hcode : code < 0
  · have hsign : code.toInt < 0 := hneg.mp hcode
    have hrange : ¬ (0 ≤ code.toInt ∧ code.toInt < (all (ε := ε)).length) := by omega
    rw [if_pos hcode, if_neg hrange]
    rfl
  · have hsign : ¬ code.toInt < 0 := mt hneg.mpr hcode
    rw [if_neg hcode]
    by_cases hlt : code.toInt.toNat < (all (ε := ε)).length
    · have hrange : 0 ≤ code.toInt ∧ code.toInt < (all (ε := ε)).length := by omega
      rw [List.getElem?_eq_getElem hlt, if_pos hrange]
      rfl
    · have hrange : ¬ (0 ≤ code.toInt ∧ code.toInt < (all (ε := ε)).length) := by omega
      rw [List.getElem?_eq_none (Nat.not_lt.mp hlt), if_neg hrange]
      rfl

theorem CallFlags.refusal?_ofCodes (codes : List Int32) :
    refusal? (ofCodes codes) = codes.findSome? (outOfRange? "CallState.Kind" 6) := by
  apply refusal?_foldlM
  intro set code
  rw [refusal?_return]
  exact Enumeration.refusal?_ofCode code

theorem CoreEvent.refusal?_publicKey (bytes : Bytes) :
    refusal? (publicKey bytes) =
      if bytes.length = 32 then none else some (.keyLength 32 bytes.length) := by
  unfold publicKey PublicKey.ofBytes?
  by_cases hlength : bytes.length = publicKeySize
  · have hkey : bytes.length = 32 := hlength
    rw [dif_pos hlength, if_pos hkey]
    rfl
  · have hkey : ¬ bytes.length = 32 := hlength
    rw [dif_neg hlength, if_neg hkey]
    rfl

theorem Samples.refusal?_ofBytes (bytes : Bytes) :
    refusal? (ofBytes bytes) =
      if bytes.length % 2 = 0 then none else some (.oddSamples bytes.length) := by
  unfold ofBytes
  split <;> rfl

namespace FrameBuffers

theorem refusal?_overwrite (plane : Plane) (source target : Bytes) :
    refusal? (overwrite plane source target) = shortPlane? plane source target := by
  unfold overwrite shortPlane?
  by_cases hlt : target.length < source.length
  · rw [if_pos hlt, if_neg (by omega)]
    rfl
  · rw [if_neg hlt, if_pos (by omega)]
    rfl

theorem refusal?_fill (buffers wire : FrameBuffers) :
    refusal? (fill (some buffers) wire) = (shortPlane? .y wire.y buffers.y).or
      ((shortPlane? .u wire.u buffers.u).or (shortPlane? .v wire.v buffers.v)) := by
  unfold fill
  rw [← refusal?_overwrite, ← refusal?_overwrite, ← refusal?_overwrite]
  apply refusal?_bind
  intro y
  apply refusal?_bind
  intro u
  exact refusal?_return _ _

end FrameBuffers

theorem CoreEvent.refusal?_ofRecord (c : CoreCategory) (record : c.Rec) :
    refusal? (ofRecord c record) = c.flaw? record := by
  cases c
  case selfConnectionStatus | friendStatus | friendConnectionStatus | friendMessage |
      fileControl =>
    exact (refusal?_return _ _).trans (Enumeration.refusal?_ofCode _)
  case friendRequest => exact (refusal?_return _ _).trans (refusal?_publicKey _)
  all_goals rfl

theorem AvEvent.refusal?_ofRecord (offered : Option FrameBuffers) (c : AvCategory)
    (record : c.Rec) : refusal? (ofRecord offered c record) = c.flaw? offered record := by
  cases c
  case callState => exact (refusal?_return _ _).trans (CallFlags.refusal?_ofCodes _)
  case audioFrame => exact (refusal?_return _ _).trans (Samples.refusal?_ofBytes _)
  case videoFrame =>
    cases offered with
    | none => rfl
    | some buffers => exact (refusal?_return _ _).trans (FrameBuffers.refusal?_fill buffers _)
  all_goals rfl

end ToxEvents
