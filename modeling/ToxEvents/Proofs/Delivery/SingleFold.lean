import ToxEvents.Delivery.Transcript
import ToxEvents.Proofs.Batch.RoundTrip
import ToxEvents.Proofs.Delivery.Handler
set_option autoImplicit false

namespace ToxEvents
open Wire

theorem CoreEvent.category_ofRecord {c : CoreCategory} {record : c.Rec} {event : CoreEvent}
    (h : ofRecord c record = .ok event) : event.category = c := by
  cases c
  case selfConnectionStatus | friendStatus | friendConnectionStatus | friendRequest |
      friendMessage | fileControl =>
    obtain ⟨x, -, rfl⟩ := return_eq_ok_iff.mp h
    rfl
  all_goals
    cases h
    rfl

theorem AvEvent.category_ofRecord {offered : Option FrameBuffers} {c : AvCategory}
    {record : c.Rec} {event : AvEvent} (h : ofRecord offered c record = .ok event) :
    event.category = c := by
  cases c
  case callState | audioFrame | videoFrame =>
    obtain ⟨x, -, rfl⟩ := return_eq_ok_iff.mp h
    rfl
  all_goals
    cases h
    rfl

def writeCall {ε lam σ : Type} (action : ε → σ → StateM lam σ) (event : ε) (state : σ) :
    StateM (Traced lam ε σ) σ := fun traced =>
  let (answer, listener) := action event state traced.listener
  (answer, ⟨listener, traced.calls ++ [⟨event, state, answer⟩]⟩)

theorem writeCall_eq {ε lam σ : Type} {action : ε → σ → StateM lam σ} {event : ε}
    {state answer : σ} {listener left : lam} {calls : List (Invocation ε σ)}
    (answered : action event state listener = (answer, left)) :
    writeCall action event state ⟨listener, calls⟩ =
      (answer, ⟨left, calls ++ [⟨event, state, answer⟩]⟩) := by
  simp only [writeCall, answered]

variable {lam σ : Type}

namespace CoreListener

def handler (listener : CoreListener lam σ) : Handler CoreCategory CoreEvent lam σ where
  category := CoreEvent.category
  translate entry := ExceptT.mk (pure (CoreEvent.ofRecord entry.1 entry.2))
  invoke := listener.onEvent
  own translated := CoreEvent.category_ofRecord (congrArg Prod.fst translated)

def traced (listener : CoreListener lam σ) : CoreListener (Traced lam CoreEvent σ) σ where
  onEvent := writeCall listener.onEvent

theorem does_deliver (listener : CoreListener lam σ) (state : σ) (c : CoreCategory)
    (record : c.Rec) :
    (listener.deliver c record state).Does (listener.handler.step state ⟨c, record⟩) :=
  (Pass.does_accept (CoreEvent.ofRecord c record)).bind fun event =>
    Pass.does_act (listener.onEvent event state)

theorem traces (listener : CoreListener lam σ) :
    Handler.Traces listener.handler listener.traced.handler where
  translate translated := by
    cases translated
    rfl
  invoke := writeCall_eq

theorem does_receive (listener : CoreListener lam σ) {bytes : Bytes} {batch : CoreBatch}
    (decoded : Batch.decode CoreCategory bytes = .ok batch) (state : σ) :
    (listener.receive (some bytes) state).Does
      (batch.toEntries.foldlM listener.handler.step state) := by
  simp only [receive, decoded]
  exact (does_deliverBatch listener.does_deliver batch state).after_note _ _ _

end CoreListener

namespace AvListener

def offer (listener : AvListener lam σ) (entry : Entry AvCategory) :
    StateM lam (Option FrameBuffers) :=
  match AvEvent.wanted? entry.1 entry.2 with
  | some shape => listener.buffers shape
  | none => pure none

def handler (listener : AvListener lam σ) : Handler AvCategory AvEvent lam σ where
  category := AvEvent.category
  translate entry := do
    let offered ← listener.offer entry
    ExceptT.mk (pure (AvEvent.ofRecord offered entry.1 entry.2))
  invoke := listener.onEvent
  own translated := AvEvent.category_ofRecord (congrArg Prod.fst translated)

def traced (listener : AvListener lam σ) : AvListener (Traced lam AvEvent σ) σ where
  onEvent := writeCall listener.onEvent
  buffers shape := fun traced =>
    let (offered, left) := listener.buffers shape traced.listener
    (offered, { traced with listener := left })

theorem does_deliver (listener : AvListener lam σ) (state : σ) (c : AvCategory) (record : c.Rec) :
    (listener.deliver c record state).Does (listener.handler.step state ⟨c, record⟩) := by
  have hrest (offered : Option FrameBuffers) :=
    (Pass.does_accept (AvEvent.ofRecord offered c record)).bind fun event =>
      Pass.does_act (listener.onEvent event state)
  unfold deliver handler Handler.step offer
  simp only [bind_assoc]
  cases hwanted : AvEvent.wanted? c record with
  | none => exact (Pass.does_pure none).bind hrest
  | some shape => exact (Pass.does_act (listener.buffers shape)).bind hrest

theorem offer_traced (listener : AvListener lam σ) (entry : Entry AvCategory)
    (traced : Traced lam AvEvent σ) :
    listener.traced.offer entry traced =
      ((listener.offer entry traced.listener).1,
        { traced with listener := (listener.offer entry traced.listener).2 }) := by
  unfold offer
  cases AvEvent.wanted? entry.1 entry.2 <;> rfl

theorem traces (listener : AvListener lam σ) :
    Handler.Traces listener.handler listener.traced.handler where
  translate {entry before calls _ _} translated := by
    cases translated
    have hoffer := listener.offer_traced entry ⟨before, calls⟩
    change (AvEvent.ofRecord (listener.traced.offer entry ⟨before, calls⟩).1 entry.1 entry.2,
      (listener.traced.offer entry ⟨before, calls⟩).2) = _
    rw [hoffer]
    rfl
  invoke := writeCall_eq

theorem does_receive (listener : AvListener lam σ) {bytes : Bytes} {batch : AvBatch}
    (decoded : Batch.decode AvCategory bytes = .ok batch) (state : σ) :
    (listener.receive (some bytes) state).Does
      (batch.toEntries.foldlM listener.handler.step state) := by
  simp only [receive, decoded]
  exact (does_deliverBatch listener.does_deliver batch state).after_note _ _ _

end AvListener

/-- A pass takes what it is given: nothing, bytes that are no batch, or a batch for the handler. -/
structure Handler.Delivers {C ε : Type} [DecidableEq C] [Surface C] (h : Handler C ε lam σ)
    (pass : Option Bytes → σ → Pass lam σ) : Prop where
  absent : ∀ state, pass none state = pure state
  malformed : ∀ {bytes fault state}, Batch.decode C bytes = .error fault →
    pass (some bytes) state = Pass.reject (.malformed fault)
  decoded : ∀ {bytes batch} state, Batch.decode C bytes = .ok batch →
    (pass (some bytes) state).Does (batch.toEntries.foldlM h.step state)

theorem CoreListener.delivers (listener : CoreListener lam σ) :
    listener.handler.Delivers listener.receive where
  absent _ := rfl
  malformed decoded := by simp only [receive, decoded]
  decoded state decoded := listener.does_receive decoded state

theorem AvListener.delivers (listener : AvListener lam σ) :
    listener.handler.Delivers listener.receive where
  absent _ := rfl
  malformed decoded := by simp only [receive, decoded]
  decoded state decoded := listener.does_receive decoded state

/-- Whatever a listener does, it receives a batch as one fold over the batch's records. -/
theorem receive_singleFold :
    (∀ {lam σ : Type} (listener : CoreListener lam σ) (bytes : Bytes) (batch : CoreBatch)
      (state : σ) (stage : Stage lam), Batch.decode CoreCategory bytes = .ok batch →
        Handler.SingleFold listener.handler batch state stage
          (listener.receive (some bytes) state) (listener.traced.receive (some bytes) state)) ∧
    (∀ {lam σ : Type} (listener : AvListener lam σ) (bytes : Bytes) (batch : AvBatch)
      (state : σ) (stage : Stage lam), Batch.decode AvCategory bytes = .ok batch →
        Handler.SingleFold listener.handler batch state stage
          (listener.receive (some bytes) state) (listener.traced.receive (some bytes) state)) := by
  refine ⟨fun listener bytes batch state stage decoded => ?_,
    fun listener bytes batch state stage decoded => ?_⟩
  · exact Handler.singleFold_of_does listener.traces (listener.does_receive decoded state)
      (listener.traced.does_receive decoded state) stage
  · exact Handler.singleFold_of_does listener.traces (listener.does_receive decoded state)
      (listener.traced.does_receive decoded state) stage

/-- A core batch whose second record is rejected, and a frame for which buffers are asked. -/
theorem receive_singleFold_samples :
    let coreBatch : CoreBatch := fun
      | .friendName => [⟨7, [0x68]⟩]
      | .friendStatus => [⟨7, 9⟩, ⟨7, 0⟩]
      | _ => []
    let avBatch : AvBatch := fun
      | .callState => [⟨9, [4, 5]⟩]
      | .videoFrame => [{ friend := 9, width := 2, height := 1, y := [1, 2], yStride := 2 }]
      | _ => []
    let core := Transcript.coreListener fun _ => true
    let av := Transcript.avListener (fun _ => true) true
    (Batch.decode CoreCategory coreBatch.encode = .ok coreBatch ∧
      Handler.SingleFold core.handler coreBatch 1 ⟨{}, #[]⟩
        (core.receive (some coreBatch.encode) 1) (core.traced.receive (some coreBatch.encode) 1)) ∧
    (Batch.decode AvCategory avBatch.encode = .ok avBatch ∧
      Handler.SingleFold av.handler avBatch 1 ⟨{}, #[]⟩
        (av.receive (some avBatch.encode) 1) (av.traced.receive (some avBatch.encode) 1)) := by
  intro coreBatch avBatch core av
  have hcore : Batch.decode CoreCategory coreBatch.encode = .ok coreBatch :=
    Batch.decode_encode CoreCategory.lawful coreBatch (by decide +kernel)
  have hav : Batch.decode AvCategory avBatch.encode = .ok avBatch :=
    Batch.decode_encode AvCategory.lawful avBatch (by decide +kernel)
  obtain ⟨onCore, onAv⟩ := receive_singleFold
  exact ⟨⟨hcore, onCore core _ _ _ _ hcore⟩, ⟨hav, onAv av _ _ _ _ hav⟩⟩

end ToxEvents
