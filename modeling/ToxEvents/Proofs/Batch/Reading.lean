import ToxEvents.Batch.Surfaces
import ToxEvents.Proofs.Wire.Record
set_option autoImplicit false

namespace ToxEvents.Batch
open Wire

variable {C : Type} [DecidableEq C] [Surface C]

/-- One field at the top level: a record under its category's tag, or an unknown field. -/
inductive FieldForm : Bytes → Option (Entry C) → Prop
  | record {lead value payload : Bytes} {tag : Nat} {c : C} {record : Surface.Rec c}
      (first : Key.Form lead ⟨tag, .lengthDelimited⟩)
      (found : (Surface.all (C := C))[tag - 1]? = some c) (behind : Delimits value payload)
      (wellFormed : (Surface.schema c).Form (Key.depthLimit - 1) payload record) :
      FieldForm (lead ++ value) (some ⟨c, record⟩)
  | unknown {lead value : Bytes} {key : Key} (first : Key.Form lead key)
      (absent : (Surface.all (C := C))[key.tag - 1]? = none)
      (wellFormed : Key.ValueForm Key.depthLimit key value) : FieldForm (lead ++ value) none

def RecordForm (c : C) (wire : WireType) (value : Bytes) (record : Surface.Rec c) : Prop :=
  wire = .lengthDelimited ∧ ∃ payload, Delimits value payload ∧
    (Surface.schema c).Form (Key.depthLimit - 1) payload record

theorem fieldForm_iff {bytes : Bytes} {entry : Option (Entry C)} :
    FieldForm bytes entry ↔
      Key.LookupForm (Surface.all (C := C)) RecordForm (fun c _ record => ⟨c, record⟩)
        Key.depthLimit bytes entry := by
  constructor
  · rintro (⟨first, found, behind, formed⟩ | ⟨first, absent, formed⟩)
    · exact ⟨_, _, _, rfl, first, .inl ⟨_, _, found, ⟨rfl, _, behind, formed⟩, rfl⟩⟩
    · exact ⟨_, _, _, rfl, first, .inr ⟨absent, formed, rfl⟩⟩
  · rintro ⟨⟨tag, wire⟩, lead, value, rfl, first,
      ⟨c, record, found, ⟨rfl, payload, behind, formed⟩, rfl⟩ | ⟨absent, formed, rfl⟩⟩
    · exact .record first found behind formed
    · exact .unknown first absent formed

theorem consumes_fieldForm : Consumes (FieldForm (C := C)) :=
  fun _ _ formed => Key.consumes_lookupForm (fieldForm_iff.mp formed)

theorem recognizes_readEntry : (readEntry (C := C)).Recognizes FieldForm := by
  refine (Key.recognizes_lookup ?_ ?_).congr fun _ _ => fieldForm_iff.symm
  · intro key c found
    have h : Reader.Recognizes _ (RecordForm c key.wire) :=
      (Key.recognizes_expect ((Surface.schema c).recognizes_readNested Key.depthLimit)
        .lengthDelimited key.wire).within ⟨Surface.message C, Surface.name c⟩
    simpa only [found] using h.returning _
  · intro key absent
    simp only [absent]

theorem readEntries_eq_ok_iff {bytes : Bytes} {entries : List (Entry C)} :
    readEntries bytes = .ok entries ↔
      ∃ fields, Sequence FieldForm bytes fields ∧ entries = fields.filterMap id :=
  recognizes_readEntry.whole consumes_fieldForm (List.filterMap id)

theorem decode_eq_ok_iff {bytes : Bytes} {batch : Batch C} :
    decode C bytes = .ok batch ↔
      ∃ fields, Sequence FieldForm bytes fields ∧ batch = ofEntries (fields.filterMap id) := by
  have hdecode : decode C bytes = .ok batch ↔
      ∃ entries : List (Entry C), readEntries bytes = .ok entries ∧ batch = ofEntries entries :=
    return_eq_ok_iff
  rw [hdecode]
  constructor
  · rintro ⟨entries, found, rfl⟩
    obtain ⟨fields, formed, rfl⟩ := readEntries_eq_ok_iff.mp found
    exact ⟨fields, formed, rfl⟩
  · rintro ⟨fields, formed, rfl⟩
    exact ⟨_, readEntries_eq_ok_iff.mpr ⟨fields, formed, rfl⟩, rfl⟩

end ToxEvents.Batch
