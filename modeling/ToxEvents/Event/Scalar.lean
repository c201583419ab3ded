import ToxEvents.Text.Utf8
import ToxEvents.Text.Numeral
import ToxEvents.Wire.Input
set_option autoImplicit false

namespace ToxEvents
open Wire

inductive NumberKind where
  | friend
  | file
  | bitRate
  | channels
  | samplingRate
  | width
  | height
  | fileKind
deriving DecidableEq, Repr

namespace NumberKind

def all : List NumberKind :=
  [friend, file, bitRate, channels, samplingRate, width, height, fileKind]

def name : NumberKind → String
  | friend => "FriendNumber"
  | file => "FileNumber"
  | bitRate => "BitRate"
  | channels => "AudioChannels"
  | samplingRate => "SamplingRate"
  | width => "Width"
  | height => "Height"
  | fileKind => "FileKind"

end NumberKind

structure Number (kind : NumberKind) where
  value : UInt32
deriving DecidableEq, Repr

namespace Number

variable {kind : NumberKind}

def text (n : Number kind) : String := toString n.value

def described (n : Number kind) : String := s!"{kind.name}({n.value})"

def order (a b : Number kind) : Ordering := compare a.value b.value

end Number

abbrev FriendNumber := Number .friend

abbrev FileNumber := Number .file

/-- In kbit/s. -/
abbrev BitRate := Number .bitRate

abbrev Channels := Number .channels

/-- In Hz. -/
abbrev SamplingRate := Number .samplingRate

abbrev Width := Number .width

abbrev Height := Number .height

/-- Kinds other than data and avatars are legal and passed on untouched. -/
abbrev FileKind := Number .fileKind

def FileKind.data : FileKind := ⟨0⟩

def FileKind.avatar : FileKind := ⟨1⟩

inductive PayloadKind where
  | nickname
  | statusMessage
  | requestMessage
  | friendMessage
  | fileName
  | lossyPacket
  | losslessPacket
deriving DecidableEq, Repr

namespace PayloadKind

def all : List PayloadKind :=
  [nickname, statusMessage, requestMessage, friendMessage, fileName, lossyPacket, losslessPacket]

def name : PayloadKind → String
  | nickname => "Nickname"
  | statusMessage => "StatusMessage"
  | requestMessage => "FriendRequestMessage"
  | friendMessage => "FriendMessage"
  | fileName => "FileName"
  | lossyPacket => "LossyPacket"
  | losslessPacket => "LosslessPacket"

end PayloadKind

/-- Bytes that are meant to be text but need not be. -/
structure Payload (kind : PayloadKind) where
  bytes : Bytes
deriving DecidableEq, Repr

namespace Payload

variable {kind : PayloadKind}

def size (p : Payload kind) : Nat := p.bytes.length

def isEmpty (p : Payload kind) : Bool := p.bytes.isEmpty

def display (p : Payload kind) : List Char := Utf8.decodeLossy p.bytes

def text (p : Payload kind) : String := String.ofList p.display

def described (p : Payload kind) : String :=
  s!"{kind.name}([" ++ ", ".intercalate (p.bytes.map fun b => toString b) ++ "])"

end Payload

def publicKeySize : Nat := 32

structure PublicKey where
  bytes : Bytes
  length_eq : bytes.length = publicKeySize
deriving DecidableEq

namespace PublicKey

def ofBytes? (bytes : Bytes) : Option PublicKey :=
  if h : bytes.length = publicKeySize then some ⟨bytes, h⟩ else none

def text (key : PublicKey) : String := String.ofList (key.bytes.flatMap Text.upperHexByte)

end PublicKey

end ToxEvents
