import ToxEvents.Event.CallFlags
import ToxEvents.Event.Scalar
import ToxEvents.Json.Document
set_option autoImplicit false

namespace ToxEvents
open Wire

def Json.bytes (bytes : Bytes) : Json := .array (bytes.map fun b => .ofNat b.toNat)

def Json.asNat (most : Nat) (json : Json) : Option Nat := json.document.asNat most

def Json.asByte (json : Json) : Option UInt8 := (json.asNat 0xFF).map UInt8.ofNat

def Json.asBytes (json : Json) : Option Bytes :=
  match json with
  | .array items => items.mapM Json.asByte
  | _ => none

namespace Number

variable {kind : NumberKind}

def json (n : Number kind) : Json := .ofNat n.value.toNat

def ofJson? (json : Json) : Option (Number kind) :=
  (json.asNat 0xFFFFFFFF).map fun n => ⟨UInt32.ofNat n⟩

end Number

namespace Payload

variable {kind : PayloadKind}

def json (p : Payload kind) : Json := .bytes p.bytes

def ofJson? (json : Json) : Option (Payload kind) := json.asBytes.map Payload.mk

end Payload

namespace PublicKey

def json (key : PublicKey) : Json := .bytes key.bytes

def ofJson? (json : Json) : Option PublicKey := json.asBytes.bind ofBytes?

end PublicKey

namespace Enumeration

variable {ε : Type} [Enumeration ε]

def json (e : ε) : Json := .string (label e)

/-- Reads a label, also one that is the only name in an object, with null beside it. -/
def ofJson? (json : Json) : Option ε := (json.document.choice Json.dialect).bind ofLabel?

end Enumeration

namespace CallFlags

def json (flags : CallFlags) : Json := .string flags.text

def ofJson? : Json → Option CallFlags
  | .string text => ofText? text.toList
  | _ => none

end CallFlags

end ToxEvents
