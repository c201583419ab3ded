import ToxEvents.Wire.Reader
set_option autoImplicit false

namespace ToxEvents.Wire.Varint

def encodeWithin : Nat → Nat → Bytes
  | 0, n => [n.toUInt8]
  | more + 1, n =>
    if n < 128 then [n.toUInt8] else (n % 128 + 128).toUInt8 :: encodeWithin more (n / 128)

def encode (n : UInt64) : Bytes := encodeWithin 9 n.toNat

def readWithin : Nat → Reader Nat
  | 0, _ => .error { cause := .invalidVarint }
  | left + 1, input =>
    match input.next? with
    | none => .error { cause := .invalidVarint }
    | some (b, rest) =>
      if b < 128 then
        if left = 0 ∧ 1 < b then .error { cause := .invalidVarint } else .ok (b.toNat, rest)
      else
        match readWithin left rest with
        | .error fault => .error fault
        | .ok (high, rest) => .ok (b.toNat - 128 + 128 * high, rest)

def read : Reader UInt64 := do
  return UInt64.ofNat (← readWithin 10)

end ToxEvents.Wire.Varint
