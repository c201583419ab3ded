import ToxEvents.Proofs.Wire.Record
set_option autoImplicit false

namespace ToxEvents.Wire

namespace Reader

variable {α β : Type}

def cut : Reader Bytes := do
  bytes (← Varint.read).toNat

def sliced (decode : Bytes → Except Fault α) : Reader α := do
  match decode (← cut) with
  | .ok x => return x
  | .error fault => throw fault

def every (item : Reader α) (slice : Bytes) : Except Fault (List α) := do
  let (xs, _) ← items item 0 (.ofBytes slice)
  return xs

end Reader

/-- One occurrence of a field; byte strings and packed lists are cut out. -/
def Kind.readSliced : (kind : Kind) → (wire : WireType) → Reader kind.Value
  | .bytes, wire => do
    Key.expect .lengthDelimited wire
    Reader.cut
  | .int32s, wire => do
    if wire = .lengthDelimited then
      Reader.sliced (Reader.every (int32OfVarint <$> Varint.read))
    else
      Key.expect .varint wire
      return [int32OfVarint (← Varint.read)]
  | kind, wire => kind.read wire

namespace Schema

variable {ρ : Type} (schema : Schema ρ)

def readFieldSliced (budget : Nat) : Reader (Option Occurrence) := do
  let key ← Key.read
  match schema.fields[key.tag - 1]? with
  | some field => return some ⟨key.tag, field.kind, ← field.kind.readSliced key.wire⟩
  | none =>
    Key.skipValue budget key
    return none

def decodeSlice (budget : Nat) (slice : Bytes) : Except Fault ρ := do
  let fields ← Reader.every (schema.readFieldSliced budget) slice
  return schema.ofOccurrences (fields.filterMap id)

end Schema

namespace Reader

variable {α β : Type}

theorem recognizes_cut : cut.Recognizes Delimits := Kind.recognizes_payload

theorem recognizes_sliced {decode : Bytes → Except Fault α} {form : Bytes → α → Prop}
    (h : ∀ slice x, decode slice = .ok x ↔ form slice x) :
    (sliced decode).Recognizes fun bytes x =>
      ∃ payload, Delimits bytes payload ∧ form payload x := by
  have hchecked : (sliced decode).Recognizes fun bytes x =>
      ∃ payload, Delimits bytes payload ∧ decode payload = .ok x := by
    apply recognizes_cut.checked
    · intro slice x found
      simp only [found]
    · intro slice fault found
      exact ⟨fault, by simp only [found]⟩
  simpa only [h] using hchecked

theorem every_eq_ok_iff {item : Reader α} {form : Bytes → α → Prop} (h : item.Recognizes form)
    (hform : Consumes form) {slice : Bytes} {xs : List α} :
    every item slice = .ok xs ↔ Sequence form slice xs := by
  have hwhole : every item slice = .ok xs ↔ ∃ ys, Sequence form slice ys ∧ xs = ys :=
    h.whole hform fun ys => ys
  rw [hwhole]
  simp

end Reader

theorem Kind.recognizes_readSliced (kind : Kind) (wire : WireType) :
    (kind.readSliced wire).Recognizes (kind.Form wire) := by
  cases kind with
  | bytes => exact Key.recognizes_expect Reader.recognizes_cut _ _
  | int32s =>
    have hread := recognizes_read .int32s wire
    simp only [readSliced, read] at hread ⊢
    split
    · next packed =>
      subst packed
      have helements (slice : Bytes) (ns : List Int32) :
          Reader.every (int32OfVarint <$> Varint.read) slice = .ok ns ↔
            Sequence ElementForm slice ns :=
        Reader.every_eq_ok_iff recognizes_element consumes_elementForm
      refine (Reader.recognizes_sliced helements).congr fun bytes ns => ?_
      simp [Form]
    · next unpacked =>
      simpa only [unpacked, ↓reduceIte] using hread
  | _ => exact recognizes_read _ wire

namespace Schema

variable {ρ : Type} (schema : Schema ρ)

theorem recognizes_readFieldSliced (budget : Nat) :
    (schema.readFieldSliced budget).Recognizes (schema.FieldForm budget) := by
  refine (Key.recognizes_lookup ?_ ?_).congr fun _ _ => schema.fieldForm_iff.symm
  · intro key field found
    simpa only [found] using (field.kind.recognizes_readSliced key.wire).returning _
  · intro key absent
    simp only [absent]

theorem decodeSlice_eq_ok_iff {budget : Nat} {slice : Bytes} {record : ρ} :
    schema.decodeSlice budget slice = .ok record ↔ schema.Form budget slice record := by
  have hfields (fields : List (Option Occurrence)) :
      Reader.every (schema.readFieldSliced budget) slice = .ok fields ↔
        Sequence (schema.FieldForm budget) slice fields :=
    Reader.every_eq_ok_iff (schema.recognizes_readFieldSliced budget)
      (schema.consumes_fieldForm budget)
  unfold decodeSlice
  rw [return_eq_ok_iff]
  simp only [hfields, Form]

theorem recognizes_nestedSlice (budget : Nat) :
    (Reader.sliced (schema.decodeSlice budget)).Recognizes fun bytes record =>
      ∃ payload, Delimits bytes payload ∧ schema.Form budget payload record :=
  Reader.recognizes_sliced fun _ _ => schema.decodeSlice_eq_ok_iff

/-- A record in the middle of a buffer comes from the bytes that its length announces, and its
fields use all of them. -/
theorem readNested_eq_ok_iff {budget : Nat} {input rest : Input} {record : ρ} :
    schema.readNested budget input = .ok (record, rest) ↔
      ∃ lead n payload, input.bytes = lead ++ (payload ++ rest.bytes) ∧ Varint.Form lead n ∧
        n.toNat = payload.length ∧ schema.decodeSlice (budget - 1) payload = .ok record ∧
        ∃ parts : List (Bytes × Option Occurrence), payload = parts.flatMap Prod.fst ∧
          record = schema.ofOccurrences (parts.filterMap Prod.snd) ∧
          ∀ part ∈ parts, schema.FieldForm (budget - 1) part.1 part.2 := by
  rw [schema.recognizes_readNested budget input rest record]
  constructor
  · rintro ⟨_, split, payload, ⟨lead, n, rfl, hn, hlength⟩, formed⟩
    refine ⟨lead, n, payload, by simpa using split, hn, hlength,
      schema.decodeSlice_eq_ok_iff.mpr formed, ?_⟩
    obtain ⟨fields, hfields, rfl⟩ := formed
    obtain ⟨parts, rfl, rfl, hparts⟩ := sequence_iff_parts.mp hfields
    exact ⟨parts, rfl, by rw [List.filterMap_map]; rfl, hparts⟩
  · rintro ⟨lead, n, payload, split, hn, hlength, formed, -⟩
    exact ⟨lead ++ payload, by simpa using split, payload, ⟨lead, n, rfl, hn, hlength⟩,
      schema.decodeSlice_eq_ok_iff.mp formed⟩

end Schema

end ToxEvents.Wire
