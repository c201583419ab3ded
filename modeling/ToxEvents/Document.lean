set_option autoImplicit false

namespace ToxEvents

inductive Document where
  | null
  | bool (b : Bool)
  | int (n : Int)
  | text (s : String)
  /-- A date or a time. A record sees a table in it that has none of its fields. -/
  | moment
  /-- What is of no use to any reader. -/
  | other
  | list (items : List Document)
  | table (members : List (String × Document))

structure Dialect where
  /-- A list may hold more items than a record has fields. -/
  allowsSurplus : Bool
  /-- What can stand beside the name of a choice that holds nothing. -/
  isNothing : Document → Bool

inductive FieldText where
  | given (document : Document)
  | unnamed
  | cut

namespace FieldText

variable {α : Type}

def orElse (default : α) (read : Document → Option α) : FieldText → Option α
  | given document => read document
  | unnamed => some default
  | cut => some default

/-- A field that may be null, or absent from a table. A list has to have a place for it. -/
def orNone (read : Document → Option α) : FieldText → Option (Option α)
  | given .null => some none
  | given document => (read document).map some
  | unnamed => some none
  | cut => none

end FieldText

namespace Document

variable {α : Type}

/-- The field that a table names; no name may come twice. -/
def named (members : List (String × Document)) (name : String) : Option FieldText :=
  match members.filter (·.1 == name) with
  | [] => some .unnamed
  | [(_, document)] => some (.given document)
  | _ => none

def placed (items : List Document) (place : Nat) : FieldText :=
  match items[place]? with
  | some document => .given document
  | none => .cut

def fields (dialect : Dialect) (names : List String) : Document → Option (List FieldText)
  | table members => names.mapM (named members)
  | moment => some (names.map fun _ => .unnamed)
  | list items =>
    if names.length < items.length ∧ !dialect.allowsSurplus then none
    else some ((List.range names.length).map (placed items))
  | _ => none

def choice (dialect : Dialect) : Document → Option String
  | text name => some name
  | table [(name, document)] => if dialect.isNothing document then some name else none
  | _ => none

def asBool : Document → Option Bool
  | bool b => some b
  | _ => none

def asNat (most : Nat) : Document → Option Nat
  | int n => if 0 ≤ n ∧ n ≤ most then some n.toNat else none
  | _ => none

def asText : Document → Option String
  | text s => some s
  | _ => none

def asList (read : Document → Option α) : Document → Option (List α)
  | list items => items.mapM read
  | _ => none

end Document

end ToxEvents
