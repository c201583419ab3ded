import ToxEvents.Document
import ToxEvents.Json.Reader
import ToxEvents.Settings.Reader
set_option autoImplicit false

namespace ToxEvents

namespace Json

mutual

def document : Json → Document
  | null => .null
  | bool b => .bool b
  | int n => .int n
  | string s => .text s
  | real _ => .other
  | broken => .other
  | array items => .list (documents items)
  | object members => .table (namedDocuments members)

def documents : List Json → List Document
  | [] => []
  | item :: rest => item.document :: documents rest

def namedDocuments : List (String × Json) → List (String × Document)
  | [] => []
  | (name, item) :: rest => (name, item.document) :: namedDocuments rest

end

def dialect : Dialect where
  allowsSurplus := false
  isNothing
    | .null => true
    | _ => false

end Json

def Settings.ofJson? (json : Json) : Option Settings :=
  Settings.ofDocument? Json.dialect json.document

end ToxEvents
