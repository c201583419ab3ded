import ToxEvents.Batch.Surfaces
import ToxEvents.Event.Scalar
import ToxEvents.Event.Rejection
set_option autoImplicit false

namespace ToxEvents
open Wire

inductive CoreEvent where
  | selfConnectionStatus (status : Connection)
  | friendName (friend : FriendNumber) (name : Payload .nickname)
  | friendStatusMessage (friend : FriendNumber) (message : Payload .statusMessage)
  | friendStatus (friend : FriendNumber) (status : UserStatus)
  | friendConnectionStatus (friend : FriendNumber) (status : Connection)
  | friendTyping (friend : FriendNumber) (typing : Bool)
  | friendReadReceipt (friend : FriendNumber) (message : UInt32)
  /-- The age of a request is in milliseconds. -/
  | friendRequest (key : PublicKey) (age : Int32) (message : Payload .requestMessage)
  | friendMessage (friend : FriendNumber) (kind : MessageType) (age : Int32)
      (message : Payload .friendMessage)
  | fileControl (friend : FriendNumber) (file : FileNumber) (control : FileControl)
  /-- The friend wants a part of a file that we send. -/
  | fileChunkRequest (friend : FriendNumber) (file : FileNumber) (position : UInt64)
      (length : UInt32)
  | fileOffer (friend : FriendNumber) (file : FileNumber) (kind : FileKind) (size : UInt64)
      (name : Payload .fileName)
  | fileChunk (friend : FriendNumber) (file : FileNumber) (position : UInt64) (data : Bytes)
  | friendLossyPacket (friend : FriendNumber) (data : Payload .lossyPacket)
  | friendLosslessPacket (friend : FriendNumber) (data : Payload .losslessPacket)
deriving DecidableEq

namespace CoreEvent

def category : CoreEvent → CoreCategory
  | selfConnectionStatus .. => .selfConnectionStatus
  | friendName .. => .friendName
  | friendStatusMessage .. => .friendStatusMessage
  | friendStatus .. => .friendStatus
  | friendConnectionStatus .. => .friendConnectionStatus
  | friendTyping .. => .friendTyping
  | friendReadReceipt .. => .friendReadReceipt
  | friendRequest .. => .friendRequest
  | friendMessage .. => .friendMessage
  | fileControl .. => .fileControl
  | fileChunkRequest .. => .fileChunkRequest
  | fileOffer .. => .fileOffer
  | fileChunk .. => .fileChunk
  | friendLossyPacket .. => .friendLossyPacket
  | friendLosslessPacket .. => .friendLosslessPacket

/-- The friend an event is about; none for our own connection and for requests from strangers. -/
def friend? : CoreEvent → Option FriendNumber
  | selfConnectionStatus _ => none
  | friendName f _ => some f
  | friendStatusMessage f _ => some f
  | friendStatus f _ => some f
  | friendConnectionStatus f _ => some f
  | friendTyping f _ => some f
  | friendReadReceipt f _ => some f
  | friendRequest .. => none
  | friendMessage f .. => some f
  | fileControl f .. => some f
  | fileChunkRequest f .. => some f
  | fileOffer f .. => some f
  | fileChunk f .. => some f
  | friendLossyPacket f _ => some f
  | friendLosslessPacket f _ => some f

def publicKey (bytes : Bytes) : Except Rejection PublicKey :=
  match PublicKey.ofBytes? bytes with
  | some key => .ok key
  | none => .error (.keyLength publicKeySize bytes.length)

def ofRecord : (c : CoreCategory) → c.Rec → Except Rejection CoreEvent
  | .selfConnectionStatus, r => do
    return .selfConnectionStatus (← Enumeration.ofCode r.status)
  | .friendName, r => return .friendName ⟨r.friend⟩ ⟨r.name⟩
  | .friendStatusMessage, r => return .friendStatusMessage ⟨r.friend⟩ ⟨r.message⟩
  | .friendStatus, r => do
    return .friendStatus ⟨r.friend⟩ (← Enumeration.ofCode r.status)
  | .friendConnectionStatus, r => do
    return .friendConnectionStatus ⟨r.friend⟩ (← Enumeration.ofCode r.status)
  | .friendTyping, r => return .friendTyping ⟨r.friend⟩ r.typing
  | .friendReadReceipt, r => return .friendReadReceipt ⟨r.friend⟩ r.message
  | .friendRequest, r => do
    return .friendRequest (← publicKey r.key) r.age ⟨r.message⟩
  | .friendMessage, r => do
    return .friendMessage ⟨r.friend⟩ (← Enumeration.ofCode r.kind) r.age ⟨r.message⟩
  | .fileControl, r => do
    return .fileControl ⟨r.friend⟩ ⟨r.file⟩ (← Enumeration.ofCode r.control)
  | .fileChunkRequest, r =>
    return .fileChunkRequest ⟨r.friend⟩ ⟨r.file⟩ r.position r.length
  | .fileOffer, r => return .fileOffer ⟨r.friend⟩ ⟨r.file⟩ ⟨r.kind⟩ r.size ⟨r.name⟩
  | .fileChunk, r => return .fileChunk ⟨r.friend⟩ ⟨r.file⟩ r.position r.data
  | .friendLossyPacket, r => return .friendLossyPacket ⟨r.friend⟩ ⟨r.data⟩
  | .friendLosslessPacket, r => return .friendLosslessPacket ⟨r.friend⟩ ⟨r.data⟩

end CoreEvent

end ToxEvents
