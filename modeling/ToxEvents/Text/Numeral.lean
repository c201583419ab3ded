set_option autoImplicit false

namespace ToxEvents.Text

def padLeft (width : Nat) (fill : Char) (text : String) : String :=
  String.ofList (List.replicate (width - text.length) fill) ++ text

def padRight (width : Nat) (text : String) : String :=
  text ++ String.ofList (List.replicate (width - text.length) ' ')

def hex (n : Nat) : String := String.ofList (Nat.toDigits 16 n)

def upperHexDigit (n : Nat) : Char :=
  if n < 10 then Char.ofNat (48 + n) else Char.ofNat (55 + n)

def upperHexByte (b : UInt8) : List Char :=
  [upperHexDigit (b.toNat / 16), upperHexDigit (b.toNat % 16)]

def binary (digits n : Nat) : String :=
  "0b" ++ padLeft digits '0' (String.ofList (Nat.toDigits 2 n))

def hexDigit? (c : Char) : Option Nat :=
  if '0' ≤ c ∧ c ≤ '9' then some (c.toNat - 48)
  else if 'a' ≤ c ∧ c ≤ 'f' then some (c.toNat - 87)
  else if 'A' ≤ c ∧ c ≤ 'F' then some (c.toNat - 55)
  else none

def isHexDigit (c : Char) : Bool := (hexDigit? c).isSome

def ofDigits (base : Nat) (digits : List Char) : Nat :=
  digits.foldl (fun n c => base * n + (hexDigit? c).getD 0) 0

/-- The number that digits stand for, if it is at most `most`. Digits after the point where it has
grown larger are not looked at. -/
def ofDigitsUpTo? (most base : Nat) (digits : List Char) : Option Nat :=
  digits.foldlM (fun n c =>
    let n := base * n + (hexDigit? c).getD 0
    if n ≤ most then some n else none) 0

end ToxEvents.Text
