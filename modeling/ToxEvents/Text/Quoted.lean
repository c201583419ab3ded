import ToxEvents.Text.Numeral
import ToxEvents.Text.Unprintable
set_option autoImplicit false

namespace ToxEvents.Text

def quotedChar (c : Char) : List Char :=
  if c.toNat = 0 then ['\\', '0']
  else if c.toNat = 9 then ['\\', 't']
  else if c.toNat = 10 then ['\\', 'n']
  else if c.toNat = 13 then ['\\', 'r']
  else if c.toNat = 34 ∨ c.toNat = 92 then ['\\', c]
  else if isUnprintable c then ['\\', 'u', '{'] ++ Nat.toDigits 16 c.toNat ++ ['}']
  else [c]

def quoted (path : String) : String :=
  String.ofList ('"' :: path.toList.flatMap quotedChar ++ ['"'])

end ToxEvents.Text
