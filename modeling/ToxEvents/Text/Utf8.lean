set_option autoImplicit false

/-!
# UTF-8, strict and lenient

Text is a list of characters and its UTF-8 form a list of bytes. `scan` reads bytes one at a time
and yields a character, or `none` for each maximal run of bytes that starts a character and cannot
go on. Strict decoding refuses any such run, lenient decoding puts one U+FFFD in its place.
-/
namespace ToxEvents.Utf8

def encodeChar (c : Char) : List UInt8 :=
  let n := c.toNat
  if n < 0x80 then [n.toUInt8]
  else if n < 0x800 then [(0xC0 + n / 64).toUInt8, (0x80 + n % 64).toUInt8]
  else if n < 0x10000 then
    [(0xE0 + n / 4096).toUInt8, (0x80 + n / 64 % 64).toUInt8, (0x80 + n % 64).toUInt8]
  else
    [(0xF0 + n / 262144).toUInt8, (0x80 + n / 4096 % 64).toUInt8, (0x80 + n / 64 % 64).toUInt8,
      (0x80 + n % 64).toUInt8]

def encode (text : List Char) : List UInt8 := text.flatMap encodeChar

/-- A character that has begun: the bytes still owed after the next one, the range the next one
has to lie in, and the bits read so far. -/
structure Pending where
  owed : Nat
  low : UInt8
  high : UInt8
  bits : Nat
deriving DecidableEq, Repr

/-- What one byte can be where a character may begin. -/
inductive Lead where
  | whole (c : Char)
  | opens (p : Pending)
  | stray
deriving DecidableEq, Repr

/-- Overlong forms, surrogates and values above U+10FFFF are ruled out by the second byte's
range. -/
def lead (b : UInt8) : Lead :=
  if b < 0x80 then .whole (Char.ofNat b.toNat)
  else if b < 0xC2 then .stray
  else if b < 0xE0 then .opens ⟨0, 0x80, 0xBF, b.toNat - 0xC0⟩
  else if b < 0xF0 then
    .opens ⟨1, if b = 0xE0 then 0xA0 else 0x80, if b = 0xED then 0x9F else 0xBF, b.toNat - 0xE0⟩
  else if b < 0xF5 then
    .opens ⟨2, if b = 0xF0 then 0x90 else 0x80, if b = 0xF4 then 0x8F else 0xBF, b.toNat - 0xF0⟩
  else .stray

def scanFrom : Option Pending → List UInt8 → List (Option Char)
  | none, [] => []
  | some _, [] => [none]
  | none, b :: bs =>
    match lead b with
    | .whole c => some c :: scanFrom none bs
    | .opens p => scanFrom (some p) bs
    | .stray => none :: scanFrom none bs
  | some p, b :: bs =>
    if p.low ≤ b ∧ b ≤ p.high then
      let bits := p.bits * 64 + (b.toNat - 0x80)
      match p.owed with
      | 0 => some (Char.ofNat bits) :: scanFrom none bs
      | owed + 1 => scanFrom (some ⟨owed, 0x80, 0xBF, bits⟩) bs
    else
      match lead b with
      | .whole c => none :: some c :: scanFrom none bs
      | .opens q => none :: scanFrom (some q) bs
      | .stray => none :: none :: scanFrom none bs

/-- Each character, and `none` for each maximal ill-formed run. -/
def scan (bytes : List UInt8) : List (Option Char) := scanFrom none bytes

def replacement : Char := Char.ofNat 0xFFFD

def decodeLossy (bytes : List UInt8) : List Char := (scan bytes).map (·.getD replacement)

def decode? (bytes : List UInt8) : Option (List Char) := (scan bytes).mapM id

end ToxEvents.Utf8
