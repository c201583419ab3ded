import ToxEvents.Wire.Varint
set_option autoImplicit false

namespace ToxEvents.Wire

structure Key where
  tag : Nat
  wire : WireType
deriving DecidableEq, Repr

namespace Key

def encode (key : Key) : Bytes := Varint.encode (UInt64.ofNat (8 * key.tag + key.wire.code))

/-- Of several flaws the key's size is reported first, then its wire type, then its tag. -/
def ofVarint (n : UInt64) : Except Cause Key :=
  if 0xFFFFFFFF < n.toNat then .error (.invalidKey n) else
  match WireType.ofCode? (n.toNat % 8) with
  | none => .error (.invalidWireType (n.toNat % 8))
  | some wire => if n.toNat / 8 = 0 then .error .zeroTag else .ok ⟨n.toNat / 8, wire⟩

def read : Reader Key := do
  match ofVarint (← Varint.read) with
  | .ok key => return key
  | .error cause => Reader.fail cause

/-- How deep nested records and groups may go below the top level of a batch. -/
def depthLimit : Nat := 100

def skipGroup (skipField : Key → Reader Unit) (tag : Nat) : Nat → Reader Unit
  | 0, _ => .error { cause := .invalidVarint }
  | fuel + 1, input =>
    match read input with
    | .error fault => .error fault
    | .ok (key, rest) =>
      if key.wire = .endGroup then
        if key.tag = tag then .ok ((), rest) else .error { cause := .unexpectedGroupEnd }
      else
        match skipField key rest with
        | .error fault => .error fault
        | .ok (_, rest) => skipGroup skipField tag fuel rest

def skipValue : Nat → Key → Reader Unit
  | 0, _ => Reader.fail .recursionLimit
  | budget + 1, key =>
    match key.wire with
    | .varint => do discard Varint.read
    | .thirtyTwoBit => Reader.skip 4
    | .sixtyFourBit => Reader.skip 8
    | .lengthDelimited => do Reader.skip (← Varint.read).toNat
    | .startGroup => fun input => skipGroup (skipValue budget) key.tag (input.size + 1) input
    | .endGroup => Reader.fail .unexpectedGroupEnd

def expect (wanted got : WireType) : Reader Unit :=
  if got = wanted then pure () else Reader.fail (.wireTypeMismatch got wanted)

end Key

end ToxEvents.Wire
