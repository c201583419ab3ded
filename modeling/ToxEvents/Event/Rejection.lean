import ToxEvents.Wire.Fault
import ToxEvents.Event.Enumeration
set_option autoImplicit false

namespace ToxEvents

inductive Plane where
  | y
  | u
  | v
deriving DecidableEq, Repr

def Plane.label : Plane → String
  | y => "Y"
  | u => "U"
  | v => "V"

inductive Rejection where
  | malformed (fault : Wire.Fault)
  | unknownEnumerator (title : String) (code : Int32)
  | keyLength (expected actual : Nat)
  | oddSamples (bytes : Nat)
  | planeTooSmall (plane : Plane) (required available : Nat)
  | sessionClosed
deriving DecidableEq, Repr

namespace Rejection

def message : Rejection → String
  | malformed fault => s!"Malformed event batch: {fault.message}"
  | unknownEnumerator title code => s!"Unrecognized {title} enumerator: {code}"
  | keyLength expected actual =>
    s!"Invalid public key length: expected {expected} bytes, got {actual}"
  | oddSamples bytes =>
    s!"Invalid data: PCM payload of {bytes} bytes is not a whole number of 16-bit samples"
  | planeTooSmall plane required available =>
    s!"Frame buffer for {plane.label} plane too small: need {required} bytes, have {available}"
  | sessionClosed => "Session is closed"

def chain : Rejection → List String
  | malformed fault => [message (malformed fault), fault.message]
  | rejection => [message rejection]

end Rejection

def Enumeration.ofCode {ε : Type} [Enumeration ε] (code : Int32) : Except Rejection ε :=
  match ofCode? code with
  | some e => .ok e
  | none => .error (.unknownEnumerator (title ε) code)

end ToxEvents
