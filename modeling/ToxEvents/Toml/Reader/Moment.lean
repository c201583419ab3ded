import ToxEvents.Calendar
import ToxEvents.Toml.Basic
import ToxEvents.Text.Scanner
set_option autoImplicit false

namespace ToxEvents.Toml.Reader
open Scanner

def digitField (size least most : Nat) : Scanner Nat := do
  let n := Text.ofDigits 10 (← exactly size Char.isDigit)
  if least ≤ n ∧ n ≤ most then return n else failure

def date : Scanner Unit := do
  let year ← digitField 4 0 9999
  char '-'
  let month ← digitField 2 1 12
  char '-'
  let _ ← digitField 2 1 (Calendar.daysIn year month)

/-- A second may be a leap second. -/
def time : Scanner Unit := do
  let _ ← digitField 2 0 23
  char ':'
  let _ ← digitField 2 0 59
  char ':'
  let _ ← digitField 2 0 60
  let _ ← optional (do char '.'; span1 Char.isDigit)

def offset : Scanner Unit :=
  (do let _ ← satisfy fun c => c = 'Z' || c = 'z')
  <|> (do
    let _ ← satisfy fun c => c = '+' || c = '-'
    let _ ← digitField 2 0 23
    char ':'
    let _ ← digitField 2 0 59)

def timeAfterDate : Scanner Unit := do
  let _ ← satisfy fun c => c = 'T' || c = 't' || c = ' '
  time
  let _ ← optional offset

def moment : Scanner Toml := do
  (do date; let _ ← optional timeAfterDate) <|> time
  return .moment

end ToxEvents.Toml.Reader
