set_option autoImplicit false

/-!
# TOML values

How a table came about decides what may be added to it later: a header may open each table once, a
dotted key may only add to tables that headers or dotted keys imply, and a table between braces is
complete.
-/
namespace ToxEvents

namespace Toml

inductive Form where
  /-- By a header of its own. The outermost table counts as one of these. -/
  | header
  /-- By the header of a table below it. -/
  | implied
  /-- By a dotted key. -/
  | dotted
  | inline
  /-- By a dotted key between braces. -/
  | inlineDotted
deriving DecidableEq, Repr

namespace Form

def isDotted : Form → Bool
  | dotted => true
  | inlineDotted => true
  | _ => false

/-- A table inside a value is closed: no header or key of a later line leads into it. -/
def isClosed : Form → Bool
  | inline => true
  | inlineDotted => true
  | _ => false

/-- A path that makes tables of the first form may lead through one of the second. -/
def leadsThrough : Form → Form → Bool
  | implied, form => !form.isClosed
  | dotted, form => form = implied || form = dotted
  | inlineDotted, form => form = inlineDotted
  | _, _ => false

end Form

end Toml

/-- Floats, dates and times are checked and then forgotten: no setting is one. -/
inductive Toml where
  | string (text : String)
  | int (n : Int)
  | float
  | bool (b : Bool)
  | moment
  | array (items : List Toml)
  /-- The tables that double headers of one name opened, the last one first. -/
  | tables (items : List Toml)
  | table (form : Toml.Form) (members : List (String × Toml))

namespace Toml

abbrev Members := List (String × Toml)

def put (name : String) (value : Toml) : Members → Members
  | [] => [(name, value)]
  | (other, old) :: rest =>
    if other = name then (name, value) :: rest else (other, old) :: put name value rest

/-- Changes the table that a path leads to. The last of several tables of one name stands for all;
a table that is not there yet arises with form `fresh`. -/
def changeAt (fresh : Form) (change : Form → Members → Option Members) :
    List String → Toml → Option Toml
  | [], table form members => (change form members).map (table form)
  | name :: path, table form members =>
    let child :=
      match members.lookup name with
      | none => changeAt fresh change path (table fresh [])
      | some (table childForm childMembers) =>
        if fresh.leadsThrough childForm then
          changeAt fresh change path (table childForm childMembers)
        else none
      | some (tables (last :: others)) =>
        (changeAt fresh change path last).map fun last => tables (last :: others)
      | some _ => none
    child.map fun child => table form (put name child members)
  | _, _ => none

/-- Adds a new name to the table that a path leads to. A path that is not empty has to lead to a
table made by dotted keys, an empty one must not. -/
def add (fresh : Form) (path : List String) (name : String) (value : Toml) : Toml → Option Toml :=
  changeAt fresh (fun form members =>
    if form.isDotted = path.isEmpty ∨ (members.lookup name).isSome then none
    else some (members ++ [(name, value)])) path

def openTable (path : List String) (name : String) : Toml → Option Toml :=
  changeAt .implied (fun _ members =>
    match members.lookup name with
    | none => some (members ++ [(name, table .header [])])
    | some (table .implied inner) => some (put name (table .header inner) members)
    | some _ => none) path

def openEntry (path : List String) (name : String) : Toml → Option Toml :=
  changeAt .implied (fun _ members =>
    match members.lookup name with
    | none => some (members ++ [(name, tables [table .header []])])
    | some (tables items) => some (put name (tables (table .header [] :: items)) members)
    | some _ => none) path

def addUnder (here path : List String) (name : String) (value : Toml) (root : Toml) :
    Option Toml :=
  changeAt .implied (fun form members =>
    match add .dotted path name value (table form members) with
    | some (table _ members) => some members
    | _ => none) here root

inductive Statement where
  | assign (path : List String) (name : String) (value : Toml)
  | header (path : List String) (name : String)
  | entry (path : List String) (name : String)

/-- What has been said so far, and the path of the last header. -/
structure Draft where
  root : Toml := .table .header []
  here : List String := []

def Draft.say (draft : Draft) : Statement → Option Draft
  | .assign path name value =>
    (addUnder draft.here path name value draft.root).map fun root => { draft with root }
  | .header path name =>
    (openTable path name draft.root).map fun root => ⟨root, path ++ [name]⟩
  | .entry path name =>
    (openEntry path name draft.root).map fun root => ⟨root, path ++ [name]⟩

def ofStatements? (statements : List Statement) : Option Toml :=
  (statements.foldlM Draft.say {}).map Draft.root

end Toml

end ToxEvents
