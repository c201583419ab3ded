import ToxEvents.Toml.Reader.Moment
import ToxEvents.Toml.Reader.Number
import ToxEvents.Toml.Reader.Text
set_option autoImplicit false

namespace ToxEvents.Toml
open Scanner

namespace Reader

def filler : Scanner Unit := do
  let _ ← many ((do let _ ← satisfy isSpace) <|> newline <|> (do comment; newline))

def boolean : Scanner Toml :=
  (do word "true".toList; return .bool true) <|> (do word "false".toList; return .bool false)

def scalar : Scanner Toml :=
  (return .string (← string)) <|> moment <|> finite <|> special <|> integer <|> boolean

def item (value : Scanner Toml) : Scanner Toml := do
  filler
  let item ← value
  filler
  return item

/-- A list of values; a comma may follow the last one. -/
def list (value : Scanner Toml) : Scanner Toml := do
  char '['
  let items ← optional (do
    let items ← commas (item value)
    let _ ← optional (char ',')
    return items)
  filler
  char ']'
  return .array (items.getD [])

structure Pair where
  path : List String
  name : String
  value : Toml

def pair (value : Scanner Toml) : Scanner Pair := do
  let (path, name) ← key
  char '='
  space
  let value ← value
  space
  return ⟨path, name, value⟩

def inline (value : Scanner Toml) : Scanner Toml := do
  char '{'
  let pairs ← optional (commas (pair value))
  space
  char '}'
  let built := (pairs.getD []).foldlM
    (fun t p => add .inlineDotted p.path p.name p.value t) (table .inline [])
  match built with
  | some t => return t
  | none => failure

def value : Nat → Scanner Toml
  | 0 => scalar
  | depth + 1 => scalar <|> list (value depth) <|> inline (value depth)

def heading : Scanner Statement :=
  (do
    word ['[', '[']
    let (path, name) ← key
    word [']', ']']
    return .entry path name)
  <|> (do
    char '['
    let (path, name) ← key
    char ']'
    return .header path name)

def assignment : Scanner Statement := do
  let p ← pair (value (depthLimit - 1))
  return .assign p.path p.name p.value

def line : Scanner (Option Statement) := do
  space
  let statement ← optional (heading <|> assignment)
  space
  let _ ← optional comment
  return statement

def lines : Scanner (List Statement) := do
  let first ← line
  let others ← many (do newline; line)
  return (first :: others).filterMap id

def byteOrderMark : Char := Char.ofNat 0xFEFF

end Reader

def read? (text : List Char) : Option Toml :=
  let text := if text.head? = some Reader.byteOrderMark then text.tail else text
  (Reader.lines.all text).bind ofStatements?

end ToxEvents.Toml
