import ToxEvents.Wire.Record
set_option autoImplicit false

/-!
# Well-formed bytes

What the bytes of a varint, a key, a field and a record look like, said without a reader and without
a position. Every form is a relation between bytes and the value that they stand for; longer
varints than needed are well formed, and fields may come in any order.
-/
namespace ToxEvents.Wire

/-- Items that stand one behind the other and fill the bytes. -/
inductive Sequence {α : Type} (form : Bytes → α → Prop) : Bytes → List α → Prop
  | nil : Sequence form [] []
  | cons {head tail : Bytes} {x : α} {xs : List α} (first : form head x)
      (others : Sequence form tail xs) : Sequence form (head ++ tail) (x :: xs)

namespace Varint

/-- At most `left` groups of seven bits; the last of ten holds bit 63 alone. -/
inductive Groups : Nat → Bytes → Nat → Prop
  | last {left : Nat} {b : UInt8} (low : b < 128) (tenth : left = 0 → b ≤ 1) :
      Groups (left + 1) [b] b.toNat
  | more {left high : Nat} {b : UInt8} {bytes : Bytes} (continued : 128 ≤ b)
      (others : Groups left bytes high) :
      Groups (left + 1) (b :: bytes) (b.toNat - 128 + 128 * high)

def Form (bytes : Bytes) (n : UInt64) : Prop := Groups 10 bytes n.toNat

end Varint

def Delimits (bytes payload : Bytes) : Prop :=
  ∃ lead n, bytes = lead ++ payload ∧ Varint.Form lead n ∧ n.toNat = payload.length

namespace Key

def Form (bytes : Bytes) (key : Key) : Prop :=
  ∃ n, Varint.Form bytes n ∧ n.toNat = 8 * key.tag + key.wire.code ∧
    n.toNat ≤ 0xFFFFFFFF ∧ 0 < key.tag

/-- Fields up to the key that ends the group `tag`, and that key. -/
inductive GroupForm (valueForm : Key → Bytes → Prop) (tag : Nat) : Bytes → Prop
  | close {bytes : Bytes} (last : Form bytes ⟨tag, .endGroup⟩) : GroupForm valueForm tag bytes
  | field {lead value others : Bytes} {key : Key} (first : Form lead key)
      (inside : key.wire ≠ .endGroup) (wellFormed : valueForm key value)
      (more : GroupForm valueForm tag others) :
      GroupForm valueForm tag (lead ++ (value ++ others))

/-- The value of a field that no schema knows, its groups nested less than `budget` deep. -/
def ValueForm : Nat → Key → Bytes → Prop
  | 0, _, _ => False
  | budget + 1, key, bytes =>
    match key.wire with
    | .varint => ∃ n, Varint.Form bytes n
    | .thirtyTwoBit => bytes.length = 4
    | .sixtyFourBit => bytes.length = 8
    | .lengthDelimited => ∃ payload, Delimits bytes payload
    | .startGroup => GroupForm (ValueForm budget) key.tag bytes
    | .endGroup => False

end Key

namespace Kind

def ElementForm (bs : Bytes) (n : Int32) : Prop :=
  ∃ m, Varint.Form bs m ∧ n = int32OfVarint m

def Form : (kind : Kind) → WireType → Bytes → kind.Value → Prop
  | .uint32, wire, bs, value => wire = .varint ∧ ∃ n, Varint.Form bs n ∧ value = n.toUInt32
  | .uint64, wire, bs, value => wire = .varint ∧ Varint.Form bs value
  | .int32, wire, bs, value => wire = .varint ∧ ElementForm bs value
  | .bool, wire, bs, value => wire = .varint ∧ ∃ n, Varint.Form bs n ∧ value = (n != 0)
  | .bytes, wire, bs, value => wire = .lengthDelimited ∧ Delimits bs value
  | .int32s, wire, bs, values =>
    (wire = .lengthDelimited ∧ ∃ payload, Delimits bs payload ∧
      Sequence ElementForm payload values) ∨
    (wire = .varint ∧ ∃ n, ElementForm bs n ∧ values = [n])

end Kind

namespace Schema

variable {ρ : Type} (schema : Schema ρ)

/-- One field of a record: an occurrence of a known one, or an unknown one. -/
inductive FieldForm (budget : Nat) : Bytes → Option Occurrence → Prop
  | known {lead value : Bytes} {key : Key} {field : Field ρ} {x : field.kind.Value}
      (first : Key.Form lead key) (found : schema.fields[key.tag - 1]? = some field)
      (wellFormed : field.kind.Form key.wire value x) :
      FieldForm budget (lead ++ value) (some ⟨key.tag, field.kind, x⟩)
  | unknown {lead value : Bytes} {key : Key} (first : Key.Form lead key)
      (absent : schema.fields[key.tag - 1]? = none)
      (wellFormed : Key.ValueForm budget key value) :
      FieldForm budget (lead ++ value) none

def Form (budget : Nat) (bytes : Bytes) (record : ρ) : Prop :=
  ∃ fields, Sequence (schema.FieldForm budget) bytes fields ∧
    record = schema.ofOccurrences (fields.filterMap id)

end Schema

end ToxEvents.Wire
