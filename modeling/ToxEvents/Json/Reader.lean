import ToxEvents.Json.Basic
import ToxEvents.Text.Scanner
set_option autoImplicit false

/-!
# Reading JSON

Strings are read as numbers of characters first, in which halves of surrogate pairs may stand;
halves that meet are put together, and a string in which one is left over is broken. An object
with a broken name is broken as a whole.
-/
namespace ToxEvents.Json
open Scanner

/-- An object, unless a name is missing. -/
def ofMembers (members : List (Option String × Json)) : Json :=
  match members.mapM fun (name, value) => name.map (·, value) with
  | some members => object members
  | none => broken

namespace Reader

def isSpace (c : Char) : Bool := c = ' ' || c = '\t' || c = '\n' || c = '\r'

def space : Scanner Unit := skip isSpace

def whole : Scanner (List Char) := do
  match ← span1 Char.isDigit with
  | '0' :: _ :: _ => failure
  | digits => return digits

def fraction : Scanner (List Char) := do
  char '.'
  return '.' :: (← span1 Char.isDigit)

def exponent : Scanner (List Char) := do
  let e ← satisfy fun c => c = 'e' || c = 'E'
  let sign ← optional (satisfy fun c => c = '+' || c = '-')
  return e :: sign.toList ++ (← span1 Char.isDigit)

def number : Scanner Json := do
  let sign ← optional (char '-')
  let digits ← whole
  let fraction ← optional fraction
  let exponent ← optional exponent
  let n := Text.ofDigits 10 digits
  if fraction.isNone && exponent.isNone && !(sign.isSome && n = 0) then
    return int (if sign.isSome then -n else n)
  else
    return real (String.ofList ((if sign.isSome then ['-'] else []) ++ digits
      ++ fraction.getD [] ++ exponent.getD []))

def codeUnit : Scanner Nat := do
  return Text.ofDigits 16 (← exactly 4 Text.isHexDigit)

def escape : Scanner Nat := do
  match ← any with
  | '"' => return 34
  | '\\' => return 92
  | '/' => return 47
  | 'b' => return 8
  | 'f' => return 12
  | 'n' => return 10
  | 'r' => return 13
  | 't' => return 9
  | 'u' => codeUnit
  | _ => failure

def unit : Scanner Nat := do
  let c ← any
  if c = '\\' then escape
  else if c = '"' ∨ c.toNat < 32 then failure
  else return c.toNat

def isHighHalf (n : Nat) : Bool := 0xD800 ≤ n && n ≤ 0xDBFF

def isLowHalf (n : Nat) : Bool := 0xDC00 ≤ n && n ≤ 0xDFFF

/-- The text that numbers of characters stand for, if no half of a pair is alone. -/
def joined? : List Nat → Option (List Char)
  | [] => some []
  | n :: rest =>
    if isLowHalf n then none
    else if isHighHalf n then
      match rest with
      | m :: rest =>
        if isLowHalf m then
          (joined? rest).map (Char.ofNat (0x10000 + (n - 0xD800) * 1024 + (m - 0xDC00)) :: ·)
        else none
      | [] => none
    else (joined? rest).map (Char.ofNat n :: ·)

/-- A string between quotes; none inside if it is broken. -/
def text : Scanner (Option String) := do
  char '"'
  let units ← many unit
  char '"'
  return (joined? units).map String.ofList

def keyword (name : String) (value : Json) : Scanner Json := do
  word name.toList
  return value

/-- Items with commas between, and `close` after them; blanks may stand everywhere. -/
def items {α : Type} (item : Scanner α) (close : Char) : Scanner (List α) := do
  space
  let found ← optional (commas (do space; let a ← item; space; return a))
  char close
  return found.getD []

def member (value : Scanner Json) : Scanner (Option String × Json) := do
  let name ← text
  space
  char ':'
  space
  return (name, ← value)

def value : Nat → Scanner Json
  | 0 => failure
  | depth + 1 =>
    keyword "null" null <|> keyword "true" (bool true) <|> keyword "false" (bool false)
      <|> number
      <|> (return (← text).elim broken string)
      <|> (do char '['; return array (← items (value depth) ']'))
      <|> (do char '{'; return ofMembers (← items (member (value depth)) '}'))

/-- A value with nothing but blanks around it. No value lies deeper than its text is long. -/
def alone (text : List Char) : Scanner Json := do
  space
  let json ← value (text.length + 1)
  space
  return json

end Reader

def read? (text : List Char) : Option Json := (Reader.alone text).all text

end ToxEvents.Json
