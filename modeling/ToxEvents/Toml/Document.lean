import ToxEvents.Document
import ToxEvents.Settings.Reader
import ToxEvents.Toml.Reader
set_option autoImplicit false

namespace ToxEvents

namespace Toml

mutual

def document : Toml → Document
  | string text => .text text
  | int n => .int n
  | float => .other
  | bool b => .bool b
  | moment => .moment
  | array items => .list (documents items)
  | tables items => .list (documents items).reverse
  | table _ members => .table (namedDocuments members)

def documents : List Toml → List Document
  | [] => []
  | item :: rest => item.document :: documents rest

def namedDocuments : List (String × Toml) → List (String × Document)
  | [] => []
  | (name, item) :: rest => (name, item.document) :: namedDocuments rest

end

def dialect : Dialect where
  allowsSurplus := true
  isNothing
    | .list [] => true
    | .table [] => true
    | _ => false

end Toml

def Settings.ofToml? (text : List Char) : Option Settings :=
  (Toml.read? text).bind fun toml => Settings.ofDocument? Toml.dialect toml.document

end ToxEvents
