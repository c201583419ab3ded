import ToxEvents.Delivery.Transcript
import ToxEvents.Proofs.Batch.RoundTrip
set_option autoImplicit false

namespace ToxEvents
open Wire

/-- Bytes of one field at the top level, and the record that it holds if its tag is known. -/
structure WireField (C : Type) [DecidableEq C] [Surface C] where
  bytes : Bytes
  entry : Option (Entry C)
  wellFormed : Batch.FieldForm bytes entry

namespace WireField

variable {C : Type} [DecidableEq C] [Surface C]

def join (fields : List (WireField C)) : Bytes := fields.flatMap (·.bytes)

def records (fields : List (WireField C)) (c : C) : List (Surface.Rec c) :=
  fields.filterMap fun field => field.entry.bind (Batch.select c)

theorem sequence_join (fields : List (WireField C)) :
    Sequence Batch.FieldForm (join fields) (fields.map (·.entry)) := by
  rw [List.map_eq_flatMap]
  exact Sequence.flatMap fun field _ => .single field.wellFormed

theorem decode_join (fields : List (WireField C)) :
    Batch.decode C (join fields) = .ok (records fields) := by
  rw [Batch.decode_eq_ok_iff]
  refine ⟨_, sequence_join fields, ?_⟩
  funext c
  unfold records Batch.ofEntries
  rw [List.filterMap_map, List.filterMap_filterMap]
  rfl

theorem decode_join_eq {fields fields' : List (WireField C)}
    (same : ∀ c, records fields c = records fields' c) :
    Batch.decode C (join fields) = Batch.decode C (join fields') := by
  rw [decode_join, decode_join, funext same]

/-- Fields in any order are a batch, and two orders that agree on every category's records are the
same to every listener, one that writes its calls down included. -/
theorem order_invisible :
    (∀ fields : List (WireField CoreCategory),
      Batch.decode CoreCategory (join fields) = .ok (records fields)) ∧
    (∀ fields : List (WireField AvCategory),
      Batch.decode AvCategory (join fields) = .ok (records fields)) ∧
    (∀ fields fields' : List (WireField CoreCategory),
      (∀ c, records fields c = records fields' c) →
        ∀ {lam σ : Type} (listener : CoreListener lam σ) (state : σ) (stage : Stage lam),
          (listener.receive (some (join fields)) state).run.run stage =
            (listener.receive (some (join fields')) state).run.run stage) ∧
    (∀ fields fields' : List (WireField AvCategory),
      (∀ c, records fields c = records fields' c) →
        ∀ {lam σ : Type} (listener : AvListener lam σ) (state : σ) (stage : Stage lam),
          (listener.receive (some (join fields)) state).run.run stage =
            (listener.receive (some (join fields')) state).run.run stage) := by
  refine ⟨decode_join, decode_join, fun fields fields' same _ _ listener state stage => ?_,
    fun fields fields' same _ _ listener state stage => ?_⟩
  · simp only [CoreListener.receive, decode_join_eq same]
  · simp only [AvListener.receive, decode_join_eq same]

def nestedGroup (absent : (Surface.all (C := C))[15]? = none) : WireField C where
  bytes := Key.encode ⟨16, .startGroup⟩ ++ (Key.encode ⟨1, .startGroup⟩ ++
    ((Key.encode ⟨2, .varint⟩ ++ (Varint.encode 5 ++ Key.encode ⟨1, .endGroup⟩)) ++
      Key.encode ⟨16, .endGroup⟩))
  entry := none
  wellFormed := by
    have hkey (key : Key) (fits : 0 < key.tag ∧ 8 * key.tag + key.wire.code ≤ 0xFFFFFFFF) :
        Key.Form key.encode key := Key.form_encode fits.1 fits.2
    have inner : Key.GroupForm (Key.ValueForm (Key.depthLimit - 2)) 1
        (Key.encode ⟨2, .varint⟩ ++ (Varint.encode 5 ++ Key.encode ⟨1, .endGroup⟩)) :=
      .field (hkey _ (by decide)) (by decide) ⟨5, Varint.form_encode 5⟩
        (.close (hkey _ (by decide)))
    have outer : Key.GroupForm (Key.ValueForm (Key.depthLimit - 1)) 16
        (Key.encode ⟨1, .startGroup⟩ ++ ((Key.encode ⟨2, .varint⟩ ++ (Varint.encode 5 ++
          Key.encode ⟨1, .endGroup⟩)) ++ Key.encode ⟨16, .endGroup⟩)) :=
      .field (hkey _ (by decide)) (by decide) inner (.close (hkey _ (by decide)))
    exact .unknown (hkey _ (by decide)) absent outer

def written (lawful : Surface.Lawful C) {c : C} {i : Nat}
    (hc : (Surface.all (C := C))[i]? = some c) (record : Surface.Rec c)
    (short : ((Surface.schema c).encode record).length < 0x8000000000000000) : WireField C where
  bytes := Key.encode ⟨i + 1, .lengthDelimited⟩ ++
    Kind.delimited ((Surface.schema c).encode record)
  entry := some ⟨c, record⟩
  wellFormed := Batch.fieldForm_written lawful hc record short

theorem order_invisible_samples :
    let name : WireField CoreCategory :=
      written CoreCategory.lawful (c := .friendName) (i := 1) rfl ⟨7, [0x68]⟩ (by decide +kernel)
    let status : WireField CoreCategory :=
      written CoreCategory.lawful (c := .friendStatus) (i := 3) rfl ⟨7, -1⟩ (by decide +kernel)
    let call : WireField AvCategory :=
      written AvCategory.lawful (c := .call) (i := 0) rfl ⟨9, true, true⟩ (by decide +kernel)
    let states : WireField AvCategory :=
      written AvCategory.lawful (c := .callState) (i := 1) rfl ⟨9, [4, 8]⟩ (by decide +kernel)
    let core := Transcript.coreListener fun _ => true
    let av := Transcript.avListener (fun _ => true) true
    ((∀ c, records [status, nestedGroup rfl, name] c = records [name, status] c) ∧
      (core.receive (some (join [status, nestedGroup rfl, name])) 1).run.run ⟨{}, #[]⟩ =
        (core.receive (some (join [name, status])) 1).run.run ⟨{}, #[]⟩) ∧
    ((∀ c, records [states, call, nestedGroup rfl] c = records [call, states] c) ∧
      (av.receive (some (join [states, call, nestedGroup rfl])) 1).run.run ⟨{}, #[]⟩ =
        (av.receive (some (join [call, states])) 1).run.run ⟨{}, #[]⟩) := by
  obtain ⟨-, -, core, av⟩ := order_invisible
  refine ⟨⟨?_, core _ _ ?_ _ _ _⟩, ⟨?_, av _ _ ?_ _ _ _⟩⟩
  all_goals
    intro c
    cases c <;> rfl

end WireField

end ToxEvents
