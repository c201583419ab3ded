import ToxEvents.Proofs.Wire.Unknown
set_option autoImplicit false

namespace ToxEvents.Wire

namespace Key

theorem recognizes_expect {α : Type} {reader : Reader α} {form : Bytes → α → Prop}
    (h : reader.Recognizes form) (wanted got : WireType) :
    (do expect wanted got; reader).Recognizes fun bytes x => got = wanted ∧ form bytes x := by
  unfold expect
  by_cases same : got = wanted
  · simp only [same, ↓reduceIte, true_and]
    simpa using h
  · simp only [same, ↓reduceIte, false_and]
    refine ((Reader.recognizes_fail _).bind fun _ => h).congr fun bytes x => ?_
    simp

end Key

namespace Kind

theorem consumes_elementForm : Consumes ElementForm := by
  rintro bytes n ⟨m, hm, -⟩
  exact hm.ne_nil

theorem recognizes_element : (int32OfVarint <$> Varint.read).Recognizes ElementForm :=
  Varint.recognizes_read.map int32OfVarint

theorem recognizes_payload :
    (do Reader.bytes (← Varint.read).toNat).Recognizes Delimits := by
  refine (Reader.recognizes_delimited Reader.recognizes_bytes).congr fun bytes x => ?_
  simp

theorem recognizes_packed :
    (do Reader.itemsWithin (int32OfVarint <$> Varint.read) (← Varint.read).toNat).Recognizes
      fun bytes ns => ∃ payload, Delimits bytes payload ∧ Sequence ElementForm payload ns :=
  Reader.recognizes_delimited (recognizes_element.itemsWithin consumes_elementForm)

theorem recognizes_read (kind : Kind) (wire : WireType) :
    (kind.read wire).Recognizes (kind.Form wire) := by
  cases kind with
  | uint32 => exact Key.recognizes_expect (Varint.recognizes_read.returning _) _ _
  | uint64 => exact Key.recognizes_expect Varint.recognizes_read _ _
  | int32 => exact Key.recognizes_expect (Varint.recognizes_read.returning _) _ _
  | bool => exact Key.recognizes_expect (Varint.recognizes_read.returning _) _ _
  | bytes => exact Key.recognizes_expect recognizes_payload _ _
  | int32s =>
    simp only [read]
    split
    · next packed =>
      refine recognizes_packed.congr fun bytes ns => ?_
      simp [Form, packed]
    · next unpacked =>
      have h := Key.recognizes_expect
        (Varint.recognizes_read.returning fun n => [int32OfVarint n]) .varint wire
      refine h.congr fun bytes ns => ?_
      simp only [Form, unpacked, false_and, false_or, ElementForm]
      refine and_congr_right fun _ => ⟨?_, ?_⟩
      · rintro ⟨m, hm, rfl⟩
        exact ⟨_, ⟨m, hm, rfl⟩, rfl⟩
      · rintro ⟨_, ⟨m, hm, rfl⟩, rfl⟩
        exact ⟨m, hm, rfl⟩

end Kind

namespace Schema

variable {ρ : Type} (schema : Schema ρ)

theorem fieldForm_iff {budget : Nat} {bytes : Bytes} {o : Option Occurrence} :
    schema.FieldForm budget bytes o ↔
      Key.LookupForm schema.fields (fun field wire value x => field.kind.Form wire value x)
        (fun field tag x => ⟨tag, field.kind, x⟩) budget bytes o := by
  constructor
  · rintro (⟨first, found, formed⟩ | ⟨first, absent, formed⟩)
    · exact ⟨_, _, _, rfl, first, .inl ⟨_, _, found, formed, rfl⟩⟩
    · exact ⟨_, _, _, rfl, first, .inr ⟨absent, formed, rfl⟩⟩
  · rintro ⟨key, lead, value, rfl, first, ⟨field, x, found, formed, rfl⟩ | ⟨absent, formed, rfl⟩⟩
    · exact .known first found formed
    · exact .unknown first absent formed

theorem consumes_fieldForm (budget : Nat) : Consumes (schema.FieldForm budget) :=
  fun _ _ formed => Key.consumes_lookupForm (schema.fieldForm_iff.mp formed)

theorem recognizes_readField (budget : Nat) :
    (schema.readField budget).Recognizes (schema.FieldForm budget) := by
  refine (Key.recognizes_lookup ?_ ?_).congr fun _ _ => schema.fieldForm_iff.symm
  · intro key field found
    have h := (field.kind.recognizes_read key.wire).within ⟨schema.name, field.label⟩
    simpa only [found] using h.returning _
  · intro key absent
    simp only [absent]

theorem recognizes_readNested (budget : Nat) :
    (schema.readNested budget).Recognizes fun bytes record =>
      ∃ payload, Delimits bytes payload ∧ schema.Form (budget - 1) payload record := by
  have hfields := (schema.recognizes_readField (budget - 1)).itemsWithin
    (schema.consumes_fieldForm (budget - 1))
  have hrecord (n : Nat) : (do
      let fields ← Reader.itemsWithin (schema.readField (budget - 1)) n
      return schema.ofOccurrences (fields.filterMap id)).Recognizes fun bytes record =>
        bytes.length = n ∧ schema.Form (budget - 1) bytes record := by
    refine ((hfields n).returning _).congr fun bytes record => ?_
    simp only [Form, and_assoc, exists_and_left]
  exact Reader.recognizes_delimited hrecord

theorem decode_eq_ok_iff {bytes : Bytes} {record : ρ} :
    schema.decode bytes = .ok record ↔ schema.Form Key.depthLimit bytes record := by
  exact (schema.recognizes_readField Key.depthLimit).whole
    (schema.consumes_fieldForm Key.depthLimit)
    fun fields => schema.ofOccurrences (fields.filterMap id)

end Schema

end ToxEvents.Wire
