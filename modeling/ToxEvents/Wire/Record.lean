import ToxEvents.Wire.Key
set_option autoImplicit false

/-!
# Records

A record is a structure whose fields are numbered from one in the order of its schema. The bytes
give the occurrences of its fields as they come: of a field's values the last one wins, but those of
a list are joined, and a field that does not occur holds its default. Writing takes the fields in
order and leaves out those that hold their default.
-/
namespace ToxEvents.Wire

inductive Kind where
  | uint32
  | uint64
  | int32
  | bool
  | bytes
  | int32s
deriving DecidableEq, Repr

namespace Kind

@[reducible]
def Value : Kind → Type
  | uint32 => UInt32
  | uint64 => UInt64
  | int32 => Int32
  | bool => Bool
  | bytes => Bytes
  | int32s => List Int32

def default : (kind : Kind) → kind.Value
  | uint32 => 0
  | uint64 => 0
  | int32 => 0
  | bool => false
  | bytes => []
  | int32s => []

instance (kind : Kind) : DecidableEq kind.Value := by
  cases kind <;> (simp only [Value]; infer_instance)

def int32OfVarint (n : UInt64) : Int32 := n.toUInt32.toInt32

/-- Sign-extended to 64 bits, so that negative numbers take ten bytes. -/
def varintOfInt32 (n : Int32) : UInt64 := n.toInt64.toUInt64

/-- Reads one occurrence of a field. A list is read from its packed form or as a single element. -/
def read : (kind : Kind) → (wire : WireType) → Reader kind.Value
  | uint32, wire => do
    Key.expect .varint wire
    return (← Varint.read).toUInt32
  | uint64, wire => do
    Key.expect .varint wire
    Varint.read
  | int32, wire => do
    Key.expect .varint wire
    return int32OfVarint (← Varint.read)
  | bool, wire => do
    Key.expect .varint wire
    return (← Varint.read) != 0
  | bytes, wire => do
    Key.expect .lengthDelimited wire
    Reader.bytes (← Varint.read).toNat
  | int32s, wire => do
    if wire = .lengthDelimited then
      Reader.itemsWithin (int32OfVarint <$> Varint.read) (← Varint.read).toNat
    else
      Key.expect .varint wire
      return [int32OfVarint (← Varint.read)]

/-- The value of a field that occurs with these values, in this order. -/
def gather : (kind : Kind) → List kind.Value → kind.Value
  | int32s, lists => lists.flatten
  | uint32, values => values.getLastD 0
  | uint64, values => values.getLastD 0
  | int32, values => values.getLastD 0
  | bool, values => values.getLastD false
  | bytes, values => values.getLastD []

def wire : Kind → WireType
  | bytes => .lengthDelimited
  | int32s => .lengthDelimited
  | _ => .varint

def delimited (payload : Bytes) : Bytes := Varint.encode (UInt64.ofNat payload.length) ++ payload

def encodeValue : (kind : Kind) → kind.Value → Bytes
  | uint32, n => Varint.encode n.toUInt64
  | uint64, n => Varint.encode n
  | int32, n => Varint.encode (varintOfInt32 n)
  | bool, b => Varint.encode (if b then 1 else 0)
  | bytes, bs => delimited bs
  | int32s, ns => delimited (ns.flatMap fun n => Varint.encode (varintOfInt32 n))

/-- Nothing at all for the default value. -/
def encode (kind : Kind) (tag : Nat) (value : kind.Value) : Bytes :=
  if value = kind.default then [] else Key.encode ⟨tag, kind.wire⟩ ++ kind.encodeValue value

end Kind

structure Field (ρ : Type) where
  label : String
  kind : Kind
  get : ρ → kind.Value
  set : kind.Value → ρ → ρ

structure Occurrence where
  tag : Nat
  kind : Kind
  value : kind.Value

def Occurrence.valueOf? (tag : Nat) (kind : Kind) (o : Occurrence) : Option kind.Value :=
  if h : o.tag = tag ∧ o.kind = kind then some (h.2 ▸ o.value) else none

/-- A record's name on the wire, the record with every default, and its fields by tag. -/
structure Schema (ρ : Type) where
  name : String
  blank : ρ
  fields : List (Field ρ)

namespace Schema

variable {ρ : Type} (schema : Schema ρ)

def readField (budget : Nat) : Reader (Option Occurrence) := do
  let key ← Key.read
  match schema.fields[key.tag - 1]? with
  | some field =>
    let value ← Reader.within ⟨schema.name, field.label⟩ (field.kind.read key.wire)
    return some ⟨key.tag, field.kind, value⟩
  | none =>
    Key.skipValue budget key
    return none

def ofOccurrences (occurrences : List Occurrence) : ρ :=
  schema.fields.zipIdx.foldl (fun record (field, i) =>
    field.set (field.kind.gather (occurrences.filterMap (·.valueOf? (i + 1) field.kind))) record)
    schema.blank

def decode (bytes : Bytes) : Except Fault ρ := do
  let (fields, _) ← Reader.items (schema.readField Key.depthLimit) 0 (Input.ofBytes bytes)
  return schema.ofOccurrences (fields.filterMap id)

/-- Reads a record behind its length, one level below `budget`. -/
def readNested (budget : Nat) : Reader ρ := do
  let fields ← Reader.itemsWithin (schema.readField (budget - 1)) (← Varint.read).toNat
  return schema.ofOccurrences (fields.filterMap id)

def encode (record : ρ) : Bytes :=
  schema.fields.zipIdx.flatMap fun (field, i) => field.kind.encode (i + 1) (field.get record)

def isBlank (record : ρ) : Bool :=
  schema.fields.all fun field => field.get record = field.kind.default

end Schema

end ToxEvents.Wire
