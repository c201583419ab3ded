import ToxEvents.Wire.Record
set_option autoImplicit false

namespace ToxEvents.Raw
open Wire

structure SelfConnectionStatus where
  status : Int32 := 0
deriving DecidableEq, Repr

def SelfConnectionStatus.schema : Schema SelfConnectionStatus where
  name := "SelfConnectionStatus"
  blank := {}
  fields := [
    ⟨"connection_status", .int32, (·.status), fun x r => { r with status := x }⟩]

structure FriendName where
  friend : UInt32 := 0
  name : Bytes := []
deriving DecidableEq, Repr

def FriendName.schema : Schema FriendName where
  name := "FriendName"
  blank := {}
  fields := [
    ⟨"friend_number", .uint32, (·.friend), fun x r => { r with friend := x }⟩,
    ⟨"name", .bytes, (·.name), fun x r => { r with name := x }⟩]

structure FriendStatusMessage where
  friend : UInt32 := 0
  message : Bytes := []
deriving DecidableEq, Repr

def FriendStatusMessage.schema : Schema FriendStatusMessage where
  name := "FriendStatusMessage"
  blank := {}
  fields := [
    ⟨"friend_number", .uint32, (·.friend), fun x r => { r with friend := x }⟩,
    ⟨"message", .bytes, (·.message), fun x r => { r with message := x }⟩]

structure FriendStatus where
  friend : UInt32 := 0
  status : Int32 := 0
deriving DecidableEq, Repr

def FriendStatus.schema : Schema FriendStatus where
  name := "FriendStatus"
  blank := {}
  fields := [
    ⟨"friend_number", .uint32, (·.friend), fun x r => { r with friend := x }⟩,
    ⟨"status", .int32, (·.status), fun x r => { r with status := x }⟩]

structure FriendConnectionStatus where
  friend : UInt32 := 0
  status : Int32 := 0
deriving DecidableEq, Repr

def FriendConnectionStatus.schema : Schema FriendConnectionStatus where
  name := "FriendConnectionStatus"
  blank := {}
  fields := [
    ⟨"friend_number", .uint32, (·.friend), fun x r => { r with friend := x }⟩,
    ⟨"connection_status", .int32, (·.status), fun x r => { r with status := x }⟩]

structure FriendTyping where
  friend : UInt32 := 0
  typing : Bool := false
deriving DecidableEq, Repr

def FriendTyping.schema : Schema FriendTyping where
  name := "FriendTyping"
  blank := {}
  fields := [
    ⟨"friend_number", .uint32, (·.friend), fun x r => { r with friend := x }⟩,
    ⟨"is_typing", .bool, (·.typing), fun x r => { r with typing := x }⟩]

structure FriendReadReceipt where
  friend : UInt32 := 0
  message : UInt32 := 0
deriving DecidableEq, Repr

def FriendReadReceipt.schema : Schema FriendReadReceipt where
  name := "FriendReadReceipt"
  blank := {}
  fields := [
    ⟨"friend_number", .uint32, (·.friend), fun x r => { r with friend := x }⟩,
    ⟨"message_id", .uint32, (·.message), fun x r => { r with message := x }⟩]

structure FriendRequest where
  key : Bytes := []
  age : Int32 := 0
  message : Bytes := []
deriving DecidableEq, Repr

def FriendRequest.schema : Schema FriendRequest where
  name := "FriendRequest"
  blank := {}
  fields := [
    ⟨"public_key", .bytes, (·.key), fun x r => { r with key := x }⟩,
    ⟨"time_delta", .int32, (·.age), fun x r => { r with age := x }⟩,
    ⟨"message", .bytes, (·.message), fun x r => { r with message := x }⟩]

structure FriendMessage where
  friend : UInt32 := 0
  kind : Int32 := 0
  age : Int32 := 0
  message : Bytes := []
deriving DecidableEq, Repr

def FriendMessage.schema : Schema FriendMessage where
  name := "FriendMessage"
  blank := {}
  fields := [
    ⟨"friend_number", .uint32, (·.friend), fun x r => { r with friend := x }⟩,
    ⟨"r#type", .int32, (·.kind), fun x r => { r with kind := x }⟩,
    ⟨"time_delta", .int32, (·.age), fun x r => { r with age := x }⟩,
    ⟨"message", .bytes, (·.message), fun x r => { r with message := x }⟩]

structure FileControl where
  friend : UInt32 := 0
  file : UInt32 := 0
  control : Int32 := 0
deriving DecidableEq, Repr

def FileControl.schema : Schema FileControl where
  name := "FileRecvControl"
  blank := {}
  fields := [
    ⟨"friend_number", .uint32, (·.friend), fun x r => { r with friend := x }⟩,
    ⟨"file_number", .uint32, (·.file), fun x r => { r with file := x }⟩,
    ⟨"control", .int32, (·.control), fun x r => { r with control := x }⟩]

structure FileChunkRequest where
  friend : UInt32 := 0
  file : UInt32 := 0
  position : UInt64 := 0
  length : UInt32 := 0
deriving DecidableEq, Repr

def FileChunkRequest.schema : Schema FileChunkRequest where
  name := "FileChunkRequest"
  blank := {}
  fields := [
    ⟨"friend_number", .uint32, (·.friend), fun x r => { r with friend := x }⟩,
    ⟨"file_number", .uint32, (·.file), fun x r => { r with file := x }⟩,
    ⟨"position", .uint64, (·.position), fun x r => { r with position := x }⟩,
    ⟨"length", .uint32, (·.length), fun x r => { r with length := x }⟩]

structure FileOffer where
  friend : UInt32 := 0
  file : UInt32 := 0
  kind : UInt32 := 0
  size : UInt64 := 0
  name : Bytes := []
deriving DecidableEq, Repr

def FileOffer.schema : Schema FileOffer where
  name := "FileRecv"
  blank := {}
  fields := [
    ⟨"friend_number", .uint32, (·.friend), fun x r => { r with friend := x }⟩,
    ⟨"file_number", .uint32, (·.file), fun x r => { r with file := x }⟩,
    ⟨"kind", .uint32, (·.kind), fun x r => { r with kind := x }⟩,
    ⟨"file_size", .uint64, (·.size), fun x r => { r with size := x }⟩,
    ⟨"filename", .bytes, (·.name), fun x r => { r with name := x }⟩]

structure FileChunk where
  friend : UInt32 := 0
  file : UInt32 := 0
  position : UInt64 := 0
  data : Bytes := []
deriving DecidableEq, Repr

def FileChunk.schema : Schema FileChunk where
  name := "FileRecvChunk"
  blank := {}
  fields := [
    ⟨"friend_number", .uint32, (·.friend), fun x r => { r with friend := x }⟩,
    ⟨"file_number", .uint32, (·.file), fun x r => { r with file := x }⟩,
    ⟨"position", .uint64, (·.position), fun x r => { r with position := x }⟩,
    ⟨"data", .bytes, (·.data), fun x r => { r with data := x }⟩]

structure FriendLossyPacket where
  friend : UInt32 := 0
  data : Bytes := []
deriving DecidableEq, Repr

def FriendLossyPacket.schema : Schema FriendLossyPacket where
  name := "FriendLossyPacket"
  blank := {}
  fields := [
    ⟨"friend_number", .uint32, (·.friend), fun x r => { r with friend := x }⟩,
    ⟨"data", .bytes, (·.data), fun x r => { r with data := x }⟩]

structure FriendLosslessPacket where
  friend : UInt32 := 0
  data : Bytes := []
deriving DecidableEq, Repr

def FriendLosslessPacket.schema : Schema FriendLosslessPacket where
  name := "FriendLosslessPacket"
  blank := {}
  fields := [
    ⟨"friend_number", .uint32, (·.friend), fun x r => { r with friend := x }⟩,
    ⟨"data", .bytes, (·.data), fun x r => { r with data := x }⟩]

end ToxEvents.Raw
