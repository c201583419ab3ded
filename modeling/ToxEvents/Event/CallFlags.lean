import ToxEvents.Event.Rejection
import ToxEvents.Text.Blank
import ToxEvents.Text.Numeral
set_option autoImplicit false

/-!
# Sets of call flags

A set of flags is a 32-bit mask, flag `k` being bit `k`. Six bits are known; a set may be made to
hold others, which the set operations keep and listing gathers into one last value.
-/
namespace ToxEvents

namespace CallFlag

def all : List CallFlag := Enumeration.all

def bit : CallFlag → Nat
  | error => 0
  | finished => 1
  | sendingAudio => 2
  | sendingVideo => 3
  | acceptingAudio => 4
  | acceptingVideo => 5

def mask (flag : CallFlag) : UInt32 := 1 <<< UInt32.ofNat flag.bit

def name : CallFlag → String
  | error => "ERROR"
  | finished => "FINISHED"
  | sendingAudio => "SENDING_AUDIO"
  | sendingVideo => "SENDING_VIDEO"
  | acceptingAudio => "ACCEPTING_AUDIO"
  | acceptingVideo => "ACCEPTING_VIDEO"

end CallFlag

structure CallFlags where
  mask : UInt32 := 0
deriving DecidableEq, Repr

namespace CallFlags

def empty : CallFlags := {}

def ofFlag (flag : CallFlag) : CallFlags := ⟨flag.mask⟩

def full : CallFlags := ⟨0x3F⟩

def ofMask (mask : UInt32) : CallFlags := ⟨mask &&& full.mask⟩

def ofMask? (mask : UInt32) : Option CallFlags :=
  if mask &&& full.mask = mask then some ⟨mask⟩ else none

def ofName? (name : String) : Option CallFlags :=
  (CallFlag.all.find? fun flag => flag.name == name).map ofFlag

def union (a b : CallFlags) : CallFlags := ⟨a.mask ||| b.mask⟩

def inter (a b : CallFlags) : CallFlags := ⟨a.mask &&& b.mask⟩

def diff (a b : CallFlags) : CallFlags := ⟨a.mask &&& ~~~b.mask⟩

def symmDiff (a b : CallFlags) : CallFlags := ⟨a.mask ^^^ b.mask⟩

def complement (a : CallFlags) : CallFlags := ofMask (~~~a.mask)

def contains (a b : CallFlags) : Bool := a.mask &&& b.mask == b.mask

def intersects (a b : CallFlags) : Bool := a.mask &&& b.mask != 0

def isEmpty (a : CallFlags) : Bool := a.mask == 0

def isFull (a : CallFlags) : Bool := full.mask ||| a.mask == a.mask

def flags (a : CallFlags) : List CallFlag :=
  CallFlag.all.filter fun flag => a.contains (ofFlag flag)

def rest (a : CallFlags) : UInt32 := a.mask &&& ~~~full.mask

/-- The set as a list of numbers on the wire. Unknown bits together count as the last flag. -/
def codes (a : CallFlags) : List Int32 :=
  a.flags.map (fun flag => Int32.ofNat flag.bit) ++ if a.rest = 0 then [] else [5]

/-- The set that a list of numbers stands for. The empty list is valid. -/
def ofCodes (codes : List Int32) : Except Rejection CallFlags :=
  codes.foldlM (fun set code => do
    let flag : CallFlag ← Enumeration.ofCode code
    return set.union (ofFlag flag)) empty

/-- The names of the flags, unknown bits in hexadecimal, with bars between. -/
def text (a : CallFlags) : String :=
  " | ".intercalate
    (a.flags.map CallFlag.name ++ if a.rest = 0 then [] else ["0x" ++ Text.hex a.rest.toNat])

/-- The text behind the name of the type; the empty set is written as a number. -/
def described (a : CallFlags) : String :=
  "CallStateFlags(" ++ (if a.isEmpty then "0x0" else a.text) ++ ")"

def hexMask? (digits : List Char) : Option UInt32 :=
  let n := Text.ofDigits 16 digits
  if !digits.isEmpty ∧ digits.all Text.isHexDigit ∧ n ≤ 0xFFFFFFFF then some (UInt32.ofNat n)
  else none

/-- One part of a text: a name, or bits in hexadecimal, which may have a plus sign. -/
def ofPart? (part : List Char) : Option CallFlags :=
  match part with
  | '0' :: 'x' :: '+' :: digits => (hexMask? digits).map CallFlags.mk
  | '0' :: 'x' :: digits => (hexMask? digits).map CallFlags.mk
  | _ => ofName? (String.ofList part)

def ofText? (text : List Char) : Option CallFlags :=
  if (Text.trim text).isEmpty then some empty else
  (Text.splitAt '|' text).foldlM (fun set part => (ofPart? (Text.trim part)).map set.union) empty

end CallFlags

end ToxEvents
