import ToxEvents.Text.Numeral
set_option autoImplicit false

namespace ToxEvents

inductive Json where
  | null
  | bool (b : Bool)
  | int (n : Int)
  /-- A number with a fraction or an exponent, or minus zero. -/
  | real (text : String)
  | string (text : String)
  /-- A string with half a surrogate pair, which stands for no text, or an object with such a
  name. -/
  | broken
  | array (items : List Json)
  | object (members : List (String × Json))

namespace Json

def ofNat (n : Nat) : Json := int n

def ofOption {α : Type} (write : α → Json) : Option α → Json
  | none => null
  | some a => write a

/-- Quotes, backslashes and control characters are escaped, the latter by a letter if they have
one. -/
def escapeChar (c : Char) : List Char :=
  if c = '"' then ['\\', '"']
  else if c = '\\' then ['\\', '\\']
  else if c.toNat = 8 then ['\\', 'b']
  else if c.toNat = 9 then ['\\', 't']
  else if c.toNat = 10 then ['\\', 'n']
  else if c.toNat = 12 then ['\\', 'f']
  else if c.toNat = 13 then ['\\', 'r']
  else if c.toNat < 32 then
    ['\\', 'u', '0', '0', Nat.digitChar (c.toNat / 16), Nat.digitChar (c.toNat % 16)]
  else [c]

def quote (text : String) : List Char := '"' :: text.toList.flatMap escapeChar ++ ['"']

def separated (texts : List (List Char)) : List Char := List.intercalate [','] texts

def newline (level : Nat) : List Char := '\n' :: List.replicate (2 * level) ' '

mutual

def compact : Json → List Char
  | null => "null".toList
  | bool b => (if b then "true" else "false").toList
  | int n => (toString n).toList
  | real text => text.toList
  | string text => quote text
  | broken => "null".toList
  | array items => '[' :: separated (compactItems items) ++ [']']
  | object members => '{' :: separated (compactMembers members) ++ ['}']

def compactItems : List Json → List (List Char)
  | [] => []
  | item :: rest => compact item :: compactItems rest

def compactMembers : List (String × Json) → List (List Char)
  | [] => []
  | (name, value) :: rest => (quote name ++ ':' :: compact value) :: compactMembers rest

end

mutual

/-- The text with each item and member on a line of its own; empty ones stay on one line. -/
def pretty (level : Nat) : Json → List Char
  | null => "null".toList
  | bool b => (if b then "true" else "false").toList
  | int n => (toString n).toList
  | real text => text.toList
  | string text => quote text
  | broken => "null".toList
  | array items =>
    match items with
    | [] => ['[', ']']
    | item :: rest =>
      '[' :: separated (prettyItems (level + 1) (item :: rest)) ++ newline level ++ [']']
  | object members =>
    match members with
    | [] => ['{', '}']
    | member :: rest =>
      '{' :: separated (prettyMembers (level + 1) (member :: rest)) ++ newline level ++ ['}']

def prettyItems (level : Nat) : List Json → List (List Char)
  | [] => []
  | item :: rest => (newline level ++ pretty level item) :: prettyItems level rest

def prettyMembers (level : Nat) : List (String × Json) → List (List Char)
  | [] => []
  | (name, value) :: rest =>
    (newline level ++ quote name ++ ':' :: ' ' :: pretty level value) :: prettyMembers level rest

end

def render (json : Json) : String := String.ofList (pretty 0 json)

end Json

end ToxEvents
