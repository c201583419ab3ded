import ToxEvents.Proofs.Batch.Reading
import ToxEvents.Proofs.Wire.Slices
set_option autoImplicit false

namespace ToxEvents.Batch
open Wire

section
variable {C : Type} [DecidableEq C] [Surface C]

/-- One field at the top level; a record's payload is cut out and decoded on its own. -/
def readEntrySliced : Reader (Option (Entry C)) := do
  let key ← Key.read
  match (Surface.all (C := C))[key.tag - 1]? with
  | some c =>
    let record ← (do
      Key.expect .lengthDelimited key.wire
      Reader.sliced ((Surface.schema c).decodeSlice (Key.depthLimit - 1)))
    return some ⟨c, record⟩
  | none =>
    Key.skipValue Key.depthLimit key
    return none

variable (C) in
def decodeSliced (bytes : Bytes) : Except Fault (Batch C) := do
  return ofEntries ((← Reader.every readEntrySliced bytes).filterMap id)

theorem recognizes_readEntrySliced : (readEntrySliced (C := C)).Recognizes FieldForm := by
  refine (Key.recognizes_lookup ?_ ?_).congr fun _ _ => fieldForm_iff.symm
  · intro key c found
    have h : Reader.Recognizes _ (RecordForm c key.wire) :=
      Key.recognizes_expect
        ((Surface.schema c).recognizes_nestedSlice (Key.depthLimit - 1)) .lengthDelimited key.wire
    simpa only [found] using h.returning (fun record => some (Sigma.mk c record))
  · intro key absent
    simp only [absent]

theorem decodeSliced_eq_ok_iff {bytes : Bytes} {batch : Batch C} :
    decodeSliced C bytes = .ok batch ↔
      ∃ fields, Sequence FieldForm bytes fields ∧ batch = ofEntries (fields.filterMap id) := by
  have hfields (fields : List (Option (Entry C))) :
      Reader.every readEntrySliced bytes = .ok fields ↔ Sequence FieldForm bytes fields :=
    Reader.every_eq_ok_iff recognizes_readEntrySliced consumes_fieldForm
  unfold decodeSliced
  rw [return_eq_ok_iff]
  simp only [hfields]

end

/-- Reading one uncut buffer and reading slice by slice accept the same bytes with the same batch,
on both surfaces; and a nested record comes from its own bytes alone and from all of them. -/
theorem decode_eq_ok_iff_decodeSliced :
    (∀ (bytes : Bytes) (batch : CoreBatch),
      decode CoreCategory bytes = .ok batch ↔ decodeSliced CoreCategory bytes = .ok batch) ∧
    (∀ (bytes : Bytes) (batch : AvBatch),
      decode AvCategory bytes = .ok batch ↔ decodeSliced AvCategory bytes = .ok batch) ∧
    (∀ {ρ : Type} (schema : Schema ρ) (budget : Nat) (input rest : Input) (record : ρ),
      schema.readNested budget input = .ok (record, rest) ↔
        ∃ lead n payload, input.bytes = lead ++ (payload ++ rest.bytes) ∧ Varint.Form lead n ∧
          n.toNat = payload.length ∧ schema.decodeSlice (budget - 1) payload = .ok record ∧
          ∃ parts : List (Bytes × Option Occurrence), payload = parts.flatMap Prod.fst ∧
            record = schema.ofOccurrences (parts.filterMap Prod.snd) ∧
            ∀ part ∈ parts, schema.FieldForm (budget - 1) part.1 part.2) := by
  refine ⟨fun bytes batch => ?_, fun bytes batch => ?_, fun schema budget input rest record => ?_⟩
  · rw [decode_eq_ok_iff, decodeSliced_eq_ok_iff]
  · rw [decode_eq_ok_iff, decodeSliced_eq_ok_iff]
  · exact schema.readNested_eq_ok_iff

end ToxEvents.Batch
