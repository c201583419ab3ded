import ToxEvents.Text.Numeral
import ToxEvents.Text.Scanner
set_option autoImplicit false

namespace ToxEvents.Toml.Reader
open Scanner

def isSpace (c : Char) : Bool := c = ' ' || c = '\t'

def space : Scanner Unit := skip isSpace

def newline : Scanner Unit := char '\n' <|> word ['\r', '\n']

def isPlain (c : Char) : Bool := c = '\t' || (32 ≤ c.toNat && c.toNat ≠ 127)

def comment : Scanner Unit := do
  char '#'
  skip isPlain

def isBasic (c : Char) : Bool := isPlain c && c ≠ '"' && c ≠ '\\'

def isLiteral (c : Char) : Bool := isPlain c && c ≠ '\''

def numbered (size : Nat) : Scanner Char := do
  let n := Text.ofDigits 16 (← exactly size Text.isHexDigit)
  if n.isValidChar then return Char.ofNat n else failure

def escape : Scanner Char := do
  char '\\'
  match ← any with
  | 'b' => return Char.ofNat 8
  | 't' => return '\t'
  | 'n' => return '\n'
  | 'f' => return Char.ofNat 12
  | 'r' => return '\r'
  | '"' => return '"'
  | '\\' => return '\\'
  | 'u' => numbered 4
  | 'U' => numbered 8
  | _ => failure

def escaped : Scanner (List Char) := do return [← escape]

def basic : Scanner (List Char) := do
  char '"'
  let parts ← many (span1 isBasic <|> escaped)
  char '"'
  return parts.flatten

def literal : Scanner (List Char) := do
  char '\''
  let text ← span isLiteral
  char '\''
  return text

/-- A backslash at the end of a line, which takes away all space up to the next character. -/
def joint : Scanner (List Char) := do
  char '\\'
  space
  newline
  let _ ← many (newline <|> (do let _ ← satisfy isSpace))
  return []

def lineEnd : Scanner (List Char) := do
  newline
  return ['\n']

def innerMarks (mark : Char) : Scanner (List Char) := do
  let marks ← span1 (· = mark)
  if marks.length < 3 then return marks else failure

/-- Three marks, and before them at most two that belong to the text. -/
def lastMarks (mark : Char) : Scanner (List Char) := do
  let marks ← span1 (· = mark)
  if 3 ≤ marks.length ∧ marks.length ≤ 5 then return marks.drop 3 else failure

/-- A text between three marks. A line end right after the first three is dropped. -/
def long (mark : Char) (part : Scanner (List Char)) : Scanner (List Char) := do
  word [mark, mark, mark]
  let _ ← optional newline
  let parts ← many (part <|> lineEnd <|> innerMarks mark)
  return parts.flatten ++ (← lastMarks mark)

def string : Scanner String := do
  let text ← long '"' (span1 isBasic <|> joint <|> escaped) <|> long '\'' (span1 isLiteral)
    <|> basic <|> literal
  return String.ofList text

def isBare (c : Char) : Bool := c.isAlphanum || c = '_' || c = '-'

def simpleKey : Scanner String := do
  let text ← span1 isBare <|> basic <|> literal
  return String.ofList text

def spacedKey : Scanner String := do
  space
  let key ← simpleKey
  space
  return key

/-- A key has fewer parts than this, and values lie less deep. -/
def depthLimit : Nat := 80

def key : Scanner (List String × String) := do
  let first ← spacedKey
  let others ← many (do char '.'; spacedKey)
  let names := first :: others
  if names.length < depthLimit then return (names.dropLast, names.getLastD first) else failure

end ToxEvents.Toml.Reader
