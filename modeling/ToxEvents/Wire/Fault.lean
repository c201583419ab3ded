set_option autoImplicit false

namespace ToxEvents.Wire

inductive WireType where
  | varint
  | sixtyFourBit
  | lengthDelimited
  | startGroup
  | endGroup
  | thirtyTwoBit
deriving DecidableEq, Repr

namespace WireType

def all : List WireType :=
  [varint, sixtyFourBit, lengthDelimited, startGroup, endGroup, thirtyTwoBit]

def code : WireType → Nat
  | varint => 0
  | sixtyFourBit => 1
  | lengthDelimited => 2
  | startGroup => 3
  | endGroup => 4
  | thirtyTwoBit => 5

def ofCode? (n : Nat) : Option WireType := all[n]?

def label : WireType → String
  | varint => "Varint"
  | sixtyFourBit => "SixtyFourBit"
  | lengthDelimited => "LengthDelimited"
  | startGroup => "StartGroup"
  | endGroup => "EndGroup"
  | thirtyTwoBit => "ThirtyTwoBit"

@[simp]
theorem ofCode?_code (w : WireType) : ofCode? w.code = some w := by cases w <;> rfl

end WireType

inductive Cause where
  | invalidVarint
  | invalidKey (value : UInt64)
  | invalidWireType (code : Nat)
  | zeroTag
  | wireTypeMismatch (got wanted : WireType)
  | bufferUnderflow
  | lengthExceeded
  | recursionLimit
  | unexpectedGroupEnd
deriving DecidableEq, Repr

def Cause.message : Cause → String
  | invalidVarint => "invalid varint"
  | invalidKey value => s!"invalid key value: {value}"
  | invalidWireType code => s!"invalid wire type value: {code}"
  | zeroTag => "invalid tag value: 0"
  | wireTypeMismatch got wanted =>
    s!"invalid wire type: {got.label} (expected {wanted.label})"
  | bufferUnderflow => "buffer underflow"
  | lengthExceeded => "delimited length exceeded"
  | recursionLimit => "recursion limit reached"
  | unexpectedGroupEnd => "unexpected end group tag"

structure Place where
  message : String
  field : String
deriving DecidableEq, Repr

structure Fault where
  cause : Cause
  trail : List Place := []
deriving DecidableEq, Repr

namespace Fault

def inside (place : Place) (fault : Fault) : Fault :=
  { fault with trail := fault.trail ++ [place] }

/-- One link per place, innermost first, then the cause. -/
def message (fault : Fault) : String :=
  "failed to decode Protobuf message: "
    ++ String.join (fault.trail.map fun p => s!"{p.message}.{p.field}: ")
    ++ fault.cause.message

end Fault

end ToxEvents.Wire
