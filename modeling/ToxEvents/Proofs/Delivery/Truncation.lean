import ToxEvents.Proofs.Delivery.FieldOrder
import ToxEvents.Proofs.Wire.Prefix
set_option autoImplicit false

namespace ToxEvents
open Wire

namespace WireField

variable {C : Type} [DecidableEq C] [Surface C] {fields : List (WireField C)} {bytes cut : Bytes}
  {batch : Batch C}

theorem exists_join_eq (decoded : Batch.decode C bytes = .ok batch) :
    ∃ fields : List (WireField C), join fields = bytes := by
  obtain ⟨entries, sequence, -⟩ := Batch.decode_eq_ok_iff.mp decoded
  clear decoded
  induction sequence with
  | nil => exact ⟨[], rfl⟩
  | @cons head tail entry entries first others ih =>
    obtain ⟨fields, rfl⟩ := ih
    exact ⟨⟨head, entry, first⟩ :: fields, rfl⟩

theorem map_bytes_unique {fields fields' : List (WireField C)} (same : join fields = join fields') :
    fields.map (·.bytes) = fields'.map (·.bytes) := by
  induction fields generalizing fields' with
  | nil =>
    cases fields' with
    | nil => rfl
    | cons field' fields' =>
      have hnil := (List.append_eq_nil_iff.mp same.symm).1
      exact absurd hnil (Batch.consumes_fieldForm field'.wellFormed)
  | cons field fields ih =>
    cases fields' with
    | nil =>
      have hnil := (List.append_eq_nil_iff.mp same).1
      exact absurd hnil (Batch.consumes_fieldForm field.wellFormed)
    | cons field' fields' =>
      obtain ⟨hfirst, -, hothers⟩ := Batch.recognizes_readEntry.prefix_unique field.wellFormed
        field'.wellFormed same
      rw [List.map_cons, List.map_cons, hfirst, ih hothers]

theorem decode_isOk_iff (isCut : cut <+: join fields) :
    (∃ part, Batch.decode C cut = .ok part) ↔ ∃ k, cut = join (fields.take k) := by
  constructor
  · rintro ⟨part, decoded⟩
    obtain ⟨entries, sequence, -⟩ := Batch.decode_eq_ok_iff.mp decoded
    exact Batch.recognizes_readEntry.exists_take (fun field _ => field.wellFormed) isCut sequence
  · rintro ⟨k, rfl⟩
    exact ⟨_, decode_join _⟩

theorem decode_cut_isPrefix (isCut : cut <+: join fields) {part : Batch C}
    (decoded : Batch.decode C cut = .ok part) (c : C) : part c <+: records fields c := by
  obtain ⟨k, rfl⟩ := (decode_isOk_iff isCut).mp ⟨part, decoded⟩
  rw [decode_join] at decoded
  cases decoded
  exact (List.take_prefix k fields).filterMap _

/-- What the top-level fields of a batch say about each way of cutting it off. -/
structure Cuts (bytes : Bytes) (batch : Batch C) (fields : List (WireField C)) : Prop where
  whole : join fields = bytes
  only : ∀ fields' : List (WireField C), join fields' = bytes →
    fields'.map (·.bytes) = fields.map (·.bytes)
  /-- The cuts before the first field and behind the last one are among those that are accepted. -/
  accepted : ∀ {cut : Bytes}, cut <+: bytes →
    ((∃ part, Batch.decode C cut = .ok part) ↔ ∃ k, cut = join (fields.take k))
  shorter : ∀ {cut : Bytes} {part : Batch C}, cut <+: bytes → Batch.decode C cut = .ok part →
    ∀ c, part c <+: batch c

theorem exists_cuts (decoded : Batch.decode C bytes = .ok batch) :
    ∃ fields : List (WireField C), Cuts bytes batch fields := by
  obtain ⟨fields, rfl⟩ := exists_join_eq decoded
  rw [decode_join] at decoded
  cases decoded
  exact ⟨fields, rfl, fun _ same => map_bytes_unique same, decode_isOk_iff,
    fun isCut decoded => decode_cut_isPrefix isCut decoded⟩

theorem Cuts.refused (cuts : Cuts bytes batch fields) (isCut : cut <+: bytes)
    (inside : ∀ k, cut ≠ join (fields.take k)) : ∃ fault, Batch.decode C cut = .error fault := by
  cases decoded : Batch.decode C cut with
  | error fault => exact ⟨fault, rfl⟩
  | ok part =>
    obtain ⟨k, hk⟩ := (cuts.accepted isCut).mp ⟨part, decoded⟩
    exact absurd hk (inside k)

/-- A batch can be cut off only between its fields; cut off elsewhere it is refused, and a listener,
one that writes its calls down included, is left as it was. -/
theorem truncation_refused :
    (∀ {bytes : Bytes} {batch : CoreBatch}, Batch.decode CoreCategory bytes = .ok batch →
      ∃ fields : List (WireField CoreCategory), Cuts bytes batch fields ∧
        ∀ {cut : Bytes}, cut <+: bytes → (∀ k, cut ≠ join (fields.take k)) →
          ∃ fault, ∀ {lam σ : Type} (listener : CoreListener lam σ) (state : σ) (stage : Stage lam),
            (listener.receive (some cut) state).run.run stage =
              (.error (.malformed fault), stage)) ∧
    (∀ {bytes : Bytes} {batch : AvBatch}, Batch.decode AvCategory bytes = .ok batch →
      ∃ fields : List (WireField AvCategory), Cuts bytes batch fields ∧
        ∀ {cut : Bytes}, cut <+: bytes → (∀ k, cut ≠ join (fields.take k)) →
          ∃ fault, ∀ {lam σ : Type} (listener : AvListener lam σ) (state : σ) (stage : Stage lam),
            (listener.receive (some cut) state).run.run stage =
              (.error (.malformed fault), stage)) := by
  refine ⟨fun decoded => ?_, fun decoded => ?_⟩
  · obtain ⟨fields, cuts⟩ := exists_cuts decoded
    refine ⟨fields, cuts, fun isCut inside => ?_⟩
    obtain ⟨fault, refused⟩ := cuts.refused isCut inside
    refine ⟨fault, fun listener state stage => ?_⟩
    simp only [CoreListener.receive, refused]
    rfl
  · obtain ⟨fields, cuts⟩ := exists_cuts decoded
    refine ⟨fields, cuts, fun isCut inside => ?_⟩
    obtain ⟨fault, refused⟩ := cuts.refused isCut inside
    refine ⟨fault, fun listener state stage => ?_⟩
    simp only [AvListener.receive, refused]
    rfl

/-- A cut within a name, and one within the length of a packed list. -/
theorem truncation_refused_samples :
    let coreBatch : CoreBatch := fun
      | .friendName => [⟨7, [0x68, 0x69]⟩, {}]
      | .friendTyping => [⟨7, true⟩]
      | _ => []
    let avBatch : AvBatch := fun
      | .callState => [⟨9, [4, -1]⟩]
      | _ => []
    (Batch.decode CoreCategory coreBatch.encode = .ok coreBatch ∧
      ∃ fault, ∀ {lam σ : Type} (listener : CoreListener lam σ) (state : σ) (stage : Stage lam),
        (listener.receive (some (coreBatch.encode.take 7)) state).run.run stage =
          (.error (.malformed fault), stage)) ∧
    (Batch.decode AvCategory avBatch.encode = .ok avBatch ∧
      ∃ fault, ∀ {lam σ : Type} (listener : AvListener lam σ) (state : σ) (stage : Stage lam),
        (listener.receive (some (avBatch.encode.take 5)) state).run.run stage =
          (.error (.malformed fault), stage)) := by
  intro coreBatch avBatch
  have hcore : Batch.decode CoreCategory coreBatch.encode = .ok coreBatch :=
    Batch.decode_encode CoreCategory.lawful coreBatch (by decide +kernel)
  have hav : Batch.decode AvCategory avBatch.encode = .ok avBatch :=
    Batch.decode_encode AvCategory.lawful avBatch (by decide +kernel)
  have hcore' : (Batch.decode CoreCategory (coreBatch.encode.take 7)).isOk = false := by
    decide +kernel
  have hav' : (Batch.decode AvCategory (avBatch.encode.take 5)).isOk = false := by decide +kernel
  obtain ⟨onCore, onAv⟩ := truncation_refused
  obtain ⟨coreFields, coreCuts, coreRefused⟩ := onCore hcore
  obtain ⟨avFields, avCuts, avRefused⟩ := onAv hav
  refine ⟨⟨hcore, coreRefused (List.take_prefix _ _) fun k same => ?_⟩,
    ⟨hav, avRefused (List.take_prefix _ _) fun k same => ?_⟩⟩
  · obtain ⟨part, hpart⟩ := (coreCuts.accepted (List.take_prefix _ _)).mpr ⟨k, same⟩
    rw [hpart] at hcore'
    cases hcore'
  · obtain ⟨part, hpart⟩ := (avCuts.accepted (List.take_prefix _ _)).mpr ⟨k, same⟩
    rw [hpart] at hav'
    cases hav'

end WireField

end ToxEvents
