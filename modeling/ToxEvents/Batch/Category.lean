set_option autoImplicit false

/-!
# Event categories

Each surface sorts its events into categories. The order of `all` is the order of delivery, and a
category's position in it, from one, is its tag on the wire.
-/
namespace ToxEvents

inductive CoreCategory where
  | selfConnectionStatus
  | friendName
  | friendStatusMessage
  | friendStatus
  | friendConnectionStatus
  | friendTyping
  | friendReadReceipt
  | friendRequest
  | friendMessage
  | fileControl
  | fileChunkRequest
  | fileOffer
  | fileChunk
  | friendLossyPacket
  | friendLosslessPacket
deriving DecidableEq, Repr

inductive AvCategory where
  | call
  | callState
  | audioBitRate
  | videoBitRate
  | audioFrame
  | videoFrame
deriving DecidableEq, Repr

namespace CoreCategory

/-- Connection and identity come first, so that a friend is known before its messages and files. -/
def all : List CoreCategory :=
  [selfConnectionStatus, friendName, friendStatusMessage, friendStatus, friendConnectionStatus,
    friendTyping, friendReadReceipt, friendRequest, friendMessage, fileControl, fileChunkRequest,
    fileOffer, fileChunk, friendLossyPacket, friendLosslessPacket]

def name : CoreCategory → String
  | selfConnectionStatus => "self_connection_status"
  | friendName => "friend_name"
  | friendStatusMessage => "friend_status_message"
  | friendStatus => "friend_status"
  | friendConnectionStatus => "friend_connection_status"
  | friendTyping => "friend_typing"
  | friendReadReceipt => "friend_read_receipt"
  | friendRequest => "friend_request"
  | friendMessage => "friend_message"
  | fileControl => "file_recv_control"
  | fileChunkRequest => "file_chunk_request"
  | fileOffer => "file_recv"
  | fileChunk => "file_recv_chunk"
  | friendLossyPacket => "friend_lossy_packet"
  | friendLosslessPacket => "friend_lossless_packet"

/-- The field of a batch in which the category comes. -/
def tag : CoreCategory → Nat
  | selfConnectionStatus => 1
  | friendName => 2
  | friendStatusMessage => 3
  | friendStatus => 4
  | friendConnectionStatus => 5
  | friendTyping => 6
  | friendReadReceipt => 7
  | friendRequest => 8
  | friendMessage => 9
  | fileControl => 10
  | fileChunkRequest => 11
  | fileOffer => 12
  | fileChunk => 13
  | friendLossyPacket => 14
  | friendLosslessPacket => 15

def total (n : CoreCategory → Nat) : Nat :=
  n selfConnectionStatus + n friendName + n friendStatusMessage + n friendStatus
    + n friendConnectionStatus + n friendTyping + n friendReadReceipt + n friendRequest
    + n friendMessage + n fileControl + n fileChunkRequest + n fileOffer + n fileChunk
    + n friendLossyPacket + n friendLosslessPacket

/-- Visits the categories one after the other, each with the state that the one before it left. -/
def visit {m : Type → Type} [Monad m] {σ : Type} (act : CoreCategory → σ → m σ) (state : σ) :
    m σ := do
  let state ← act selfConnectionStatus state
  let state ← act friendName state
  let state ← act friendStatusMessage state
  let state ← act friendStatus state
  let state ← act friendConnectionStatus state
  let state ← act friendTyping state
  let state ← act friendReadReceipt state
  let state ← act friendRequest state
  let state ← act friendMessage state
  let state ← act fileControl state
  let state ← act fileChunkRequest state
  let state ← act fileOffer state
  let state ← act fileChunk state
  let state ← act friendLossyPacket state
  act friendLosslessPacket state

theorem mem_all (c : CoreCategory) : c ∈ all := by cases c <;> decide

theorem all_nodup : all.Nodup := by decide

theorem tags : all.map tag = List.range' 1 all.length := by decide

theorem total_eq (n : CoreCategory → Nat) : total n = (all.map n).foldr (· + ·) 0 := by
  simp [total, all, Nat.add_assoc]

theorem visit_eq {m : Type → Type} [Monad m] [LawfulMonad m] {σ : Type}
    (act : CoreCategory → σ → m σ) (state : σ) :
    visit act state = all.foldlM (fun state c => act c state) state := by
  simp [visit, all]

end CoreCategory

namespace AvCategory

def all : List AvCategory :=
  [call, callState, audioBitRate, videoBitRate, audioFrame, videoFrame]

def name : AvCategory → String
  | call => "call"
  | callState => "call_state"
  | audioBitRate => "audio_bit_rate"
  | videoBitRate => "video_bit_rate"
  | audioFrame => "audio_receive_frame"
  | videoFrame => "video_receive_frame"

def tag : AvCategory → Nat
  | call => 1
  | callState => 2
  | audioBitRate => 3
  | videoBitRate => 4
  | audioFrame => 5
  | videoFrame => 6

def total (n : AvCategory → Nat) : Nat :=
  n call + n callState + n audioBitRate + n videoBitRate + n audioFrame + n videoFrame

def visit {m : Type → Type} [Monad m] {σ : Type} (act : AvCategory → σ → m σ) (state : σ) :
    m σ := do
  let state ← act call state
  let state ← act callState state
  let state ← act audioBitRate state
  let state ← act videoBitRate state
  let state ← act audioFrame state
  act videoFrame state

theorem mem_all (c : AvCategory) : c ∈ all := by cases c <;> decide

theorem all_nodup : all.Nodup := by decide

theorem tags : all.map tag = List.range' 1 all.length := by decide

theorem total_eq (n : AvCategory → Nat) : total n = (all.map n).foldr (· + ·) 0 := by
  simp [total, all, Nat.add_assoc]

theorem visit_eq {m : Type → Type} [Monad m] [LawfulMonad m] {σ : Type}
    (act : AvCategory → σ → m σ) (state : σ) :
    visit act state = all.foldlM (fun state c => act c state) state := by
  simp [visit, all]

end AvCategory

end ToxEvents
