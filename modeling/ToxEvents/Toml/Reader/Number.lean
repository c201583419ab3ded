import ToxEvents.Toml.Basic
import ToxEvents.Text.Numeral
import ToxEvents.Text.Scanner
set_option autoImplicit false

namespace ToxEvents.Toml.Reader
open Scanner

def sign : Scanner Bool := do
  return (← optional (satisfy fun c => c = '+' || c = '-')) == some '-'

def digits (isDigit : Char → Bool) : Scanner (List Char) := do
  let first ← satisfy isDigit
  let others ← many (satisfy isDigit <|> (do char '_'; satisfy isDigit))
  return first :: others

def whole : Scanner (List Char) := do
  match ← optional (satisfy (· = '0')) with
  | some zero => return [zero]
  | none => digits Char.isDigit

def maxInt : Nat := 0x7FFFFFFFFFFFFFFF

def decimal : Scanner Int := do
  let negative ← sign
  let digits ← whole
  let most := if negative then maxInt + 1 else maxInt
  let n : Nat ← Text.ofDigitsUpTo? most 10 digits
  return if negative then -n else n

def based (letter : Char) (base : Nat) : Scanner Int := do
  word ['0', letter]
  let digits ← digits fun c => (Text.hexDigit? c).any (· < base)
  let n : Nat ← Text.ofDigitsUpTo? maxInt base digits
  return n

def integer : Scanner Toml := do
  return .int (← based 'x' 16 <|> based 'o' 8 <|> based 'b' 2 <|> decimal)

/-- No number from here on rounds to a finite float of 64 bits. -/
def floatLimit : Nat := Nat.pow 2 1024 - Nat.pow 2 970

/-- The number with these digits, times that power of ten, is too large for a float. Only close to
the limit it has to be worked out, and there its whole part, of `size` digits, is enough. -/
def isTooLarge (digits : List Char) (power : Int) : Bool :=
  let digits := digits.dropWhile (· = '0')
  let size := digits.length + power
  if digits.isEmpty || size < 300 then false
  else if 320 < size then true
  else
    let front := digits.take size.toNat
    floatLimit ≤ Text.ofDigits 10 front * Nat.pow 10 (size.toNat - front.length)

/-- From here on an exponent takes no more digits in. -/
def exponentLimit : Nat := 0x10000

/-- The number that the digits of an exponent stand for: further digits count for nothing once the
limit has been reached. -/
def ofExponentDigits (digits : List Char) : Nat :=
  digits.foldl (fun n c =>
    if n < exponentLimit then 10 * n + (Text.hexDigit? c).getD 0 else n) 0

def exponent : Scanner Int := do
  let _ ← satisfy fun c => c = 'e' || c = 'E'
  let negative ← sign
  let n := ofExponentDigits (← digits Char.isDigit)
  return if negative then -n else n

def fraction : Scanner (List Char) := do
  char '.'
  digits Char.isDigit

def finite : Scanner Toml := do
  let negative ← sign
  let whole ← whole
  let fraction ← optional fraction
  let exponent ← optional exponent
  if fraction.isNone && exponent.isNone then failure
  let places := fraction.getD []
  if !negative && isTooLarge (whole ++ places) (exponent.getD 0 - places.length) then failure
  return .float

def special : Scanner Toml := do
  let _ ← sign
  word ['i', 'n', 'f'] <|> word ['n', 'a', 'n']
  return .float

end ToxEvents.Toml.Reader
