import ToxEvents.Wire.Record
set_option autoImplicit false

/-!
# Batches

A surface has a list of categories, each with its own kind of record. A batch holds the records of
each category in the order in which they arrived. On the wire the categories may come interleaved,
so the bytes give one list of entries, which `ofEntries` sorts by category.
-/
namespace ToxEvents
open Wire

/-- The categories `C` of a surface, in order, with the record type of each. -/
class Surface (C : Type) [DecidableEq C] where
  message : String
  all : List C
  name : C → String
  tag : C → Nat
  total : (C → Nat) → Nat
  visit : {m : Type → Type} → [Monad m] → {σ : Type} → (C → σ → m σ) → σ → m σ
  Rec : C → Type
  schema : (c : C) → Schema (Rec c)
  mem_all : ∀ c, c ∈ all
  all_nodup : all.Nodup
  tags : all.map tag = List.range' 1 all.length
  total_eq : ∀ n, total n = (all.map n).foldr (· + ·) 0
  visit_eq : ∀ {m : Type → Type} [Monad m] [LawfulMonad m] {σ : Type} (act : C → σ → m σ)
    (state : σ), visit act state = all.foldlM (fun state c => act c state) state

section
variable (C : Type) [DecidableEq C] [Surface C]

abbrev Entry := (c : C) × Surface.Rec c

/-- The records of each category, in arrival order. -/
abbrev Batch := (c : C) → List (Surface.Rec c)

end

namespace Batch

variable {C : Type} [DecidableEq C] [Surface C]

def select (c : C) (entry : Entry C) : Option (Surface.Rec c) :=
  if h : entry.1 = c then some (h ▸ entry.2) else none

theorem select_self (c : C) (record : Surface.Rec c) : select c ⟨c, record⟩ = some record := by
  simp [select]

theorem select_other {c : C} {entry : Entry C} (other : entry.1 ≠ c) : select c entry = none := by
  simp [select, other]

def ofEntries (entries : List (Entry C)) : Batch C := fun c => entries.filterMap (select c)

def toEntries (batch : Batch C) : List (Entry C) :=
  (Surface.all (C := C)).flatMap fun c => (batch c).map (Sigma.mk c)

def size (batch : Batch C) : Nat := Surface.total fun c => (batch c).length

theorem mem_toEntries {batch : Batch C} {c : C} {record : Surface.Rec c} :
    ⟨c, record⟩ ∈ batch.toEntries ↔ record ∈ batch c := by
  unfold toEntries
  rw [List.mem_flatMap]
  constructor
  · rintro ⟨c', -, found⟩
    obtain ⟨record', member, same⟩ := List.mem_map.mp found
    cases same
    exact member
  · intro member
    exact ⟨c, Surface.mem_all c, List.mem_map_of_mem member⟩

theorem length_toEntries (batch : Batch C) : batch.toEntries.length = batch.size := by
  unfold toEntries size
  rw [Surface.total_eq, List.length_flatMap, List.sum_eq_foldr]
  simp only [List.length_map]

def isEmpty (batch : Batch C) : Bool := batch.size == 0

/-- Reads one field at the top level: a record of a category, or an unknown field. -/
def readEntry : Reader (Option (Entry C)) := do
  let key ← Key.read
  match (Surface.all (C := C))[key.tag - 1]? with
  | some c =>
    let record ← Reader.within ⟨Surface.message C, Surface.name c⟩ (do
      Key.expect .lengthDelimited key.wire
      (Surface.schema c).readNested Key.depthLimit)
    return some ⟨c, record⟩
  | none =>
    Key.skipValue Key.depthLimit key
    return none

def readEntries (bytes : Bytes) : Except Fault (List (Entry C)) := do
  let (fields, _) ← Reader.items readEntry 0 (Input.ofBytes bytes)
  return fields.filterMap id

variable (C) in
def decode (bytes : Bytes) : Except Fault (Batch C) := do
  return ofEntries (← readEntries bytes)

/-- A category's records, each behind the category's key and its own length. -/
def encodeCategory (tag : Nat) (c : C) (records : List (Surface.Rec c)) : Bytes :=
  records.flatMap fun record =>
    Key.encode ⟨tag, .lengthDelimited⟩ ++ Kind.delimited ((Surface.schema c).encode record)

def encode (batch : Batch C) : Bytes :=
  (Surface.all (C := C)).flatMap fun c => encodeCategory (Surface.tag c) c (batch c)

end Batch

end ToxEvents
