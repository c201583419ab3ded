import ToxEvents.Proofs.Batch.Reading
import ToxEvents.Proofs.Wire.RoundTrip
set_option autoImplicit false

namespace ToxEvents
open Wire

/-- Every schema rebuilds its records, and the tags of the categories fit into keys. -/
structure Surface.Lawful (C : Type) [DecidableEq C] [Surface C] : Prop where
  schema : ∀ c : C, (Surface.schema c).Lawful
  few : (Surface.all (C := C)).length < 0x1000000

theorem Surface.tag_eq {C : Type} [DecidableEq C] [Surface C] {c : C} {i : Nat}
    (hc : (Surface.all (C := C))[i]? = some c) : Surface.tag c = i + 1 := by
  have hi := (List.getElem?_eq_some_iff.mp hc).1
  have htag := congrArg (·[i]?) (Surface.tags (C := C))
  simp only [List.getElem?_map, hc, Option.map_some, List.getElem?_range' hi,
    Option.some.injEq] at htag
  omega

theorem CoreCategory.lawful : Surface.Lawful CoreCategory where
  schema c := by cases c <;> exact ⟨fun _ => rfl, by decide⟩
  few := by decide

theorem AvCategory.lawful : Surface.Lawful AvCategory where
  schema c := by cases c <;> exact ⟨fun _ => rfl, by decide⟩
  few := by decide

theorem Wire.Schema.Lawful.decode_encode {ρ : Type} {schema : Schema ρ} (lawful : schema.Lawful)
    (record : ρ) (short : (schema.encode record).length < 0x8000000000000000) :
    schema.decode (schema.encode record) = .ok record :=
  schema.decode_eq_ok_iff.mpr (lawful.form_encode Key.depthLimit record short)

namespace Batch

section
variable {C : Type} [DecidableEq C] [Surface C]

theorem ofEntries_toEntries (batch : Batch C) : ofEntries batch.toEntries = batch := by
  funext c
  have hown : ((batch c).map (Sigma.mk c)).filterMap (select c) = batch c := by
    rw [List.filterMap_map]
    exact (List.filterMap_congr fun record _ => select_self c record).trans List.filterMap_some
  have hother (c' : C) (different : c' ≠ c) :
      ((batch c').map (Sigma.mk c')).filterMap (select c) = [] := by
    rw [List.filterMap_map]
    exact List.filterMap_eq_nil_iff.mpr fun record _ => select_other different
  unfold ofEntries toEntries
  rw [List.filterMap_flatMap, flatMap_eq_of_unique Surface.all_nodup (Surface.mem_all c)]
  · exact hown
  · intro c' _ different
    exact hother c' different

theorem fieldForm_written (lawful : Surface.Lawful C) {c : C} {i : Nat}
    (hc : (Surface.all (C := C))[i]? = some c) (record : Surface.Rec c)
    (short : ((Surface.schema c).encode record).length < 0x8000000000000000) :
    FieldForm (Key.encode ⟨i + 1, .lengthDelimited⟩ ++
      Kind.delimited ((Surface.schema c).encode record)) (some ⟨c, record⟩) := by
  have few := lawful.few
  have hi : i < (Surface.all (C := C)).length := (List.getElem?_eq_some_iff.mp hc).1
  have hkey : Key.Form (Key.encode ⟨i + 1, .lengthDelimited⟩) ⟨i + 1, .lengthDelimited⟩ :=
    Key.form_encode (Nat.succ_pos i) (by simp only [WireType.code]; omega)
  exact .record hkey hc (delimits_delimited short) ((lawful.schema c).form_encode _ record short)

theorem sequence_encodeCategory (lawful : Surface.Lawful C) {c : C} {i : Nat}
    (hc : (Surface.all (C := C))[i]? = some c) (records : List (Surface.Rec c))
    (short : (encodeCategory (i + 1) c records).length < 0x8000000000000000) :
    Sequence FieldForm (encodeCategory (i + 1) c records)
      (records.map fun record => some ⟨c, record⟩) := by
  rw [List.map_eq_flatMap]
  apply Sequence.flatMap
  intro record hrecord
  have hpart : (Key.encode ⟨i + 1, .lengthDelimited⟩ ++
      Kind.delimited ((Surface.schema c).encode record)).length ≤
        (encodeCategory (i + 1) c records).length :=
    length_le_length_flatMap (g := fun record => Key.encode ⟨i + 1, .lengthDelimited⟩ ++
      Kind.delimited ((Surface.schema c).encode record)) hrecord
  have hpayload := Kind.length_le_delimited ((Surface.schema c).encode record)
  rw [List.length_append] at hpart
  exact .single (fieldForm_written lawful hc record (by omega))

theorem sequence_encode (lawful : Surface.Lawful C) (batch : Batch C)
    (short : (encode batch).length < 0x8000000000000000) :
    Sequence FieldForm batch.encode (batch.toEntries.map some) := by
  unfold toEntries
  rw [List.map_flatMap]
  apply Sequence.flatMap
  intro c hc
  obtain ⟨i, hi⟩ := List.getElem?_of_mem hc
  have hpart : (encodeCategory (Surface.tag c) c (batch c)).length ≤ (encode batch).length :=
    length_le_length_flatMap (g := fun c => encodeCategory (Surface.tag c) c (batch c)) hc
  rw [Surface.tag_eq hi] at hpart ⊢
  rw [List.map_map]
  exact sequence_encodeCategory lawful hi (batch c) (Nat.lt_of_le_of_lt hpart short)

theorem decode_encode (lawful : Surface.Lawful C) (batch : Batch C)
    (short : (encode batch).length < 0x8000000000000000) :
    decode C batch.encode = .ok batch := by
  rw [decode_eq_ok_iff]
  refine ⟨_, sequence_encode lawful batch short, ?_⟩
  rw [List.filterMap_map, Function.id_comp, List.filterMap_some, ofEntries_toEntries]

end

/-- Every record and every batch of both surfaces is read back from what was written, whatever its
fields hold. -/
theorem decode_encode_message :
    (∀ (c : CoreCategory) (record : c.Rec),
      (c.schema.encode record).length < 0x8000000000000000 →
        c.schema.decode (c.schema.encode record) = .ok record) ∧
    (∀ (c : AvCategory) (record : c.Rec),
      (c.schema.encode record).length < 0x8000000000000000 →
        c.schema.decode (c.schema.encode record) = .ok record) ∧
    (∀ batch : CoreBatch, (encode batch).length < 0x8000000000000000 →
      decode CoreCategory (encode batch) = .ok batch) ∧
    (∀ batch : AvBatch, (encode batch).length < 0x8000000000000000 →
      decode AvCategory (encode batch) = .ok batch) := by
  refine ⟨fun c record short => ?_, fun c record short => ?_, fun batch short => ?_,
    fun batch short => ?_⟩
  · exact (CoreCategory.lawful.schema c).decode_encode record short
  · exact (AvCategory.lawful.schema c).decode_encode record short
  · exact decode_encode CoreCategory.lawful batch short
  · exact decode_encode AvCategory.lawful batch short

/-- An unknown enumerator, a list with negative numbers, and batches of several categories. -/
theorem decode_encode_message_samples :
    let status : Raw.FriendStatus := ⟨0xFFFFFFFF, -1⟩
    let calls : Raw.CallState := ⟨3, [-1, 0, 300, -2147483648]⟩
    let coreBatch : CoreBatch := fun
      | .friendName => [⟨7, [0x68, 0x69]⟩, {}]
      | .fileChunkRequest => [⟨1, 2, 0xFFFFFFFFFFFFFFFF, 128⟩]
      | _ => []
    let avBatch : AvBatch := fun
      | .call => [⟨9, true, false⟩]
      | .callState => [⟨9, [-5, 4]⟩, {}]
      | _ => []
    ((CoreCategory.friendStatus.schema.encode status).length < 0x8000000000000000 ∧
      CoreCategory.friendStatus.schema.decode (CoreCategory.friendStatus.schema.encode status) =
        .ok status) ∧
    ((AvCategory.callState.schema.encode calls).length < 0x8000000000000000 ∧
      AvCategory.callState.schema.decode (AvCategory.callState.schema.encode calls) =
        .ok calls) ∧
    ((encode coreBatch).length < 0x8000000000000000 ∧
      decode CoreCategory (encode coreBatch) = .ok coreBatch) ∧
    ((encode avBatch).length < 0x8000000000000000 ∧
      decode AvCategory (encode avBatch) = .ok avBatch) := by
  obtain ⟨coreRecord, avRecord, coreBatch, avBatch⟩ := decode_encode_message
  refine ⟨⟨?_, coreRecord _ _ ?_⟩, ⟨?_, avRecord _ _ ?_⟩, ⟨?_, coreBatch _ ?_⟩,
    ⟨?_, avBatch _ ?_⟩⟩
  all_goals decide +kernel

end Batch

end ToxEvents
