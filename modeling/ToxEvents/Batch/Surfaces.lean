import ToxEvents.Batch.Basic
import ToxEvents.Batch.Category
import ToxEvents.Batch.CoreRecord
import ToxEvents.Batch.AvRecord
set_option autoImplicit false

namespace ToxEvents
open Wire

@[reducible]
def CoreCategory.Rec : CoreCategory → Type
  | selfConnectionStatus => Raw.SelfConnectionStatus
  | friendName => Raw.FriendName
  | friendStatusMessage => Raw.FriendStatusMessage
  | friendStatus => Raw.FriendStatus
  | friendConnectionStatus => Raw.FriendConnectionStatus
  | friendTyping => Raw.FriendTyping
  | friendReadReceipt => Raw.FriendReadReceipt
  | friendRequest => Raw.FriendRequest
  | friendMessage => Raw.FriendMessage
  | fileControl => Raw.FileControl
  | fileChunkRequest => Raw.FileChunkRequest
  | fileOffer => Raw.FileOffer
  | fileChunk => Raw.FileChunk
  | friendLossyPacket => Raw.FriendLossyPacket
  | friendLosslessPacket => Raw.FriendLosslessPacket

@[reducible]
def AvCategory.Rec : AvCategory → Type
  | call => Raw.Call
  | callState => Raw.CallState
  | audioBitRate => Raw.AudioBitRate
  | videoBitRate => Raw.VideoBitRate
  | audioFrame => Raw.AudioFrame
  | videoFrame => Raw.VideoFrame

def CoreCategory.schema : (c : CoreCategory) → Schema c.Rec
  | .selfConnectionStatus => Raw.SelfConnectionStatus.schema
  | .friendName => Raw.FriendName.schema
  | .friendStatusMessage => Raw.FriendStatusMessage.schema
  | .friendStatus => Raw.FriendStatus.schema
  | .friendConnectionStatus => Raw.FriendConnectionStatus.schema
  | .friendTyping => Raw.FriendTyping.schema
  | .friendReadReceipt => Raw.FriendReadReceipt.schema
  | .friendRequest => Raw.FriendRequest.schema
  | .friendMessage => Raw.FriendMessage.schema
  | .fileControl => Raw.FileControl.schema
  | .fileChunkRequest => Raw.FileChunkRequest.schema
  | .fileOffer => Raw.FileOffer.schema
  | .fileChunk => Raw.FileChunk.schema
  | .friendLossyPacket => Raw.FriendLossyPacket.schema
  | .friendLosslessPacket => Raw.FriendLosslessPacket.schema

def AvCategory.schema : (c : AvCategory) → Schema c.Rec
  | .call => Raw.Call.schema
  | .callState => Raw.CallState.schema
  | .audioBitRate => Raw.AudioBitRate.schema
  | .videoBitRate => Raw.VideoBitRate.schema
  | .audioFrame => Raw.AudioFrame.schema
  | .videoFrame => Raw.VideoFrame.schema

instance : Surface CoreCategory where
  message := "CoreEvents"
  all := CoreCategory.all
  name := CoreCategory.name
  tag := CoreCategory.tag
  total := CoreCategory.total
  visit := CoreCategory.visit
  Rec := CoreCategory.Rec
  schema := CoreCategory.schema
  mem_all := CoreCategory.mem_all
  all_nodup := CoreCategory.all_nodup
  tags := CoreCategory.tags
  total_eq := CoreCategory.total_eq
  visit_eq := CoreCategory.visit_eq

instance : Surface AvCategory where
  message := "AvEvents"
  all := AvCategory.all
  name := AvCategory.name
  tag := AvCategory.tag
  total := AvCategory.total
  visit := AvCategory.visit
  Rec := AvCategory.Rec
  schema := AvCategory.schema
  mem_all := AvCategory.mem_all
  all_nodup := AvCategory.all_nodup
  tags := AvCategory.tags
  total_eq := AvCategory.total_eq
  visit_eq := AvCategory.visit_eq

abbrev CoreBatch := Batch CoreCategory

abbrev AvBatch := Batch AvCategory

end ToxEvents
