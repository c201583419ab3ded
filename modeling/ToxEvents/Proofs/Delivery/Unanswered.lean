import ToxEvents.Proofs.Delivery.Refusals
import ToxEvents.Proofs.Delivery.Succession
set_option autoImplicit false

namespace ToxEvents
open Wire

theorem foldlM_filter_of_silent {m : Type → Type} [Monad m] [LawfulMonad m] {α σ : Type}
    {step : σ → α → m σ} {keep : α → Bool} {xs : List α}
    (silent : ∀ x ∈ xs, keep x = false → ∀ state, step state x = pure state) (state : σ) :
    (xs.filter keep).foldlM step state = xs.foldlM step state := by
  induction xs generalizing state with
  | nil => rfl
  | cons x xs ih =>
    have later := ih fun y h => silent y (List.mem_cons_of_mem _ h)
    rw [List.foldlM_cons]
    cases hkeep : keep x with
    | true =>
      rw [List.filter_cons_of_pos hkeep, List.foldlM_cons]
      exact bind_congr later
    | false =>
      rw [List.filter_cons_of_neg (by simp [hkeep]), silent x List.mem_cons_self hkeep,
        pure_bind, later]

section
variable {C : Type} [DecidableEq C] [Surface C] {ε lam lam' σ : Type}

namespace Batch

def only (chosen : C → Bool) (batch : Batch C) : Batch C :=
  fun c => if chosen c then batch c else []

theorem toEntries_only (chosen : C → Bool) (batch : Batch C) :
    (batch.only chosen).toEntries = batch.toEntries.filter fun entry => chosen entry.1 := by
  unfold toEntries
  rw [List.filter_flatMap]
  refine List.flatMap_congr fun c _ => ?_
  rw [List.filter_map]
  cases hc : chosen c <;> simp [only, hc, Function.comp_def]

theorem pairwise_toEntries (batch : Batch C) :
    batch.toEntries.Pairwise fun entry later =>
      (Surface.all (C := C)).idxOf entry.1 ≤ (Surface.all (C := C)).idxOf later.1 := by
  unfold toEntries
  rw [List.pairwise_flatMap]
  refine ⟨fun c _ => ?_, Surface.pairwise_idxOf.imp fun {c later} before => ?_⟩
  · exact List.pairwise_map.mpr (List.pairwise_of_forall fun _ _ => Nat.le_refl _)
  · intro entry hentry entry' hentry'
    obtain ⟨_, -, rfl⟩ := List.mem_map.mp hentry
    obtain ⟨_, -, rfl⟩ := List.mem_map.mp hentry'
    exact Nat.le_of_lt before

end Batch

/-- What a batch is to a listener that answers only the chosen categories. `made` is the event of a
record, `pass` the delivery of bytes to the listener, and `traced` the delivery to the same listener
when it writes the calls down that it answers. -/
structure Unanswered (made : Entry C → Except Rejection ε) (chosen : C → Bool) (bytes : Bytes)
    (batch : Batch C) (pass : Bytes → Pass lam σ) (traced : Bytes → Pass lam' σ) : Prop where
  missing : (∀ entry ∈ batch.toEntries, chosen entry.1 = false → ∃ event, made entry = .ok event) →
    (batch.only chosen).encode.length < 0x8000000000000000 →
      (pass bytes).Agree (pass (batch.only chosen).encode) ∧
      (traced bytes).Agree (traced (batch.only chosen).encode)
  /-- The first flawed record is refused, also if its category is not answered. -/
  refused : ∀ {before after : List (Entry C)} {entry : Entry C} {rejection : Rejection},
    batch.toEntries = before ++ entry :: after →
      (∀ earlier ∈ before, ∃ event, made earlier = .ok event) → made entry = .error rejection →
        ∀ stage, ((pass bytes).outcome stage).1 = .error rejection

namespace Handler

variable {h : Handler C ε lam σ}

theorem step_silent {entry : Entry C} {event : ε} {state : σ}
    (translated : ∀ listener, (h.translate entry).run listener = (.ok event, listener))
    (silent : h.invoke event state = pure state) : h.step state entry = pure state := by
  funext listener
  refine (step_of_translated (translated listener)).trans ?_
  rw [silent]
  rfl

theorem agree_only {pass : Option Bytes → σ → Pass lam σ} (delivers : h.Delivers pass)
    (lawful : Surface.Lawful C) {chosen : C → Bool} {bytes : Bytes} {batch : Batch C}
    (decoded : Batch.decode C bytes = .ok batch)
    (silent : ∀ entry ∈ batch.toEntries, chosen entry.1 = false →
      ∀ state, h.step state entry = pure state)
    (short : (batch.only chosen).encode.length < 0x8000000000000000) (state : σ) :
    (pass (some bytes) state).Agree (pass (some (batch.only chosen).encode) state) := by
  have hwhole := delivers.decoded state decoded
  have hpart := delivers.decoded state (Batch.decode_encode lawful (batch.only chosen) short)
  rw [Batch.toEntries_only, foldlM_filter_of_silent silent] at hpart
  exact hwhole.agree hpart

/-- Records that are handed over whatever the listener is, and behind them one that never is. -/
theorem foldlM_stops {before after : List (Entry C)} {entry : Entry C} {rejection : Rejection}
    (handed : ∀ earlier ∈ before, ∀ listener, ∃ event,
      ((h.translate earlier).run listener).1 = .ok event)
    (fails : ∀ listener, ((h.translate entry).run listener).1 = .error rejection) (state : σ)
    (listener : lam) :
    (((before ++ entry :: after).foldlM h.step state).run listener).1 = .error rejection := by
  rw [List.foldlM_append]
  rcases hbefore : (before.foldlM h.step state).run listener with ⟨result, mid⟩
  cases result with
  | error rejection' =>
    obtain ⟨earlier, hearlier, mid, left, failed⟩ := foldlM_error hbefore
    obtain ⟨event, made⟩ := handed earlier hearlier mid
    rw [failed] at made
    cases made
  | ok reached =>
    rcases hentry : (h.translate entry).run mid with ⟨result, left⟩
    have hresult := fails mid
    rw [hentry] at hresult
    cases hresult
    rw [run_bind_of_ok hbefore, List.foldlM_cons, run_bind_of_error (step_of_rejected hentry)]

end Handler

end

section
variable {lam σ : Type}

namespace CoreListener

variable {listener : CoreListener lam σ} {chosen : CoreCategory → Bool}

theorem step_unanswered {entry : Entry CoreCategory} (other : chosen entry.1 = false)
    (made : ∃ event, CoreEvent.ofRecord entry.1 entry.2 = .ok event) (state : σ) :
    (listener.restrict chosen).handler.step state entry = pure state := by
  obtain ⟨event, made⟩ := made
  apply Handler.step_silent
  · exact fun before => congrArg (fun result => (result, before)) made
  · change (if chosen event.category then listener.onEvent event state else pure state) = _
    rw [CoreEvent.category_ofRecord made, other]
    rfl

theorem agree_only {bytes : Bytes} {batch : CoreBatch}
    (decoded : Batch.decode CoreCategory bytes = .ok batch)
    (made : ∀ entry ∈ batch.toEntries, chosen entry.1 = false →
      ∃ event, CoreEvent.ofRecord entry.1 entry.2 = .ok event)
    (short : (batch.only chosen).encode.length < 0x8000000000000000)
    (listener : CoreListener lam σ) (state : σ) :
    ((listener.restrict chosen).receive (some bytes) state).Agree
      ((listener.restrict chosen).receive (some (batch.only chosen).encode) state) :=
  Handler.agree_only (listener.restrict chosen).delivers CoreCategory.lawful decoded
    (fun entry hentry other => step_unanswered other (made entry hentry other)) short state

theorem unanswered {bytes : Bytes} {batch : CoreBatch}
    (decoded : Batch.decode CoreCategory bytes = .ok batch) (chosen : CoreCategory → Bool)
    (listener : CoreListener lam σ) (state : σ) :
    Unanswered (fun entry => CoreEvent.ofRecord entry.1 entry.2) chosen bytes batch
      (fun bytes => (listener.restrict chosen).receive (some bytes) state)
      (fun bytes => (listener.traced.restrict chosen).receive (some bytes) state) where
  missing made short :=
    ⟨agree_only decoded made short listener state,
      agree_only decoded made short listener.traced state⟩
  refused split made failed stage := by
    rw [(listener.restrict chosen).does_receive decoded state stage, split]
    exact Handler.foldlM_stops (h := (listener.restrict chosen).handler)
      (fun earlier hearlier _ => made earlier hearlier) (fun _ => failed) state stage.listener

end CoreListener

theorem AvEvent.category_of_wanted? {c : AvCategory} {record : c.Rec} {shape : FrameShape}
    (asked : wanted? c record = some shape) : c = .videoFrame := by
  cases c with
  | videoFrame => rfl
  | _ => cases asked

theorem AvEvent.ofRecord_eq_none {c : AvCategory} (other : c ≠ .videoFrame)
    (offered : Option FrameBuffers) (record : c.Rec) :
    ofRecord offered c record = ofRecord none c record := by
  cases c with
  | videoFrame => exact absurd rfl other
  | _ => rfl

theorem AvEvent.ne_videoFrame_of_error {c : AvCategory} {record : c.Rec} {rejection : Rejection}
    (failed : ofRecord none c record = .error rejection) : c ≠ .videoFrame := by
  rintro rfl
  cases failed

theorem AvCategory.videoFrame_last {c : AvCategory}
    (h : (Surface.all (C := AvCategory)).idxOf .videoFrame ≤ Surface.all.idxOf c) :
    c = .videoFrame := by
  cases c with
  | videoFrame => rfl
  | _ => exact absurd h (by decide)

namespace AvListener

variable {listener : AvListener lam σ} {chosen : AvCategory → Bool} {offers : Bool}

theorem offer_unanswered (frames : offers = true → chosen .videoFrame = true)
    {entry : Entry AvCategory} (other : chosen entry.1 = false) :
    (listener.restrict chosen offers).offer entry = pure none := by
  unfold offer
  cases hwanted : AvEvent.wanted? entry.1 entry.2 with
  | none => rfl
  | some shape =>
    have hframe : entry.1 = .videoFrame := AvEvent.category_of_wanted? hwanted
    have hoffers : offers = false := by
      cases offers with
      | false => rfl
      | true => rw [hframe, frames rfl] at other; cases other
    simp [restrict, hoffers]

theorem step_unanswered (frames : offers = true → chosen .videoFrame = true)
    {entry : Entry AvCategory} (other : chosen entry.1 = false)
    (made : ∃ event, AvEvent.ofRecord none entry.1 entry.2 = .ok event) (state : σ) :
    (listener.restrict chosen offers).handler.step state entry = pure state := by
  obtain ⟨event, made⟩ := made
  apply Handler.step_silent
  · intro before
    change (AvEvent.ofRecord ((listener.restrict chosen offers).offer entry before).1 entry.1
      entry.2, ((listener.restrict chosen offers).offer entry before).2) = _
    rw [offer_unanswered frames other]
    exact congrArg (fun result => (result, before)) made
  · change (if chosen event.category then listener.onEvent event state else pure state) = _
    rw [AvEvent.category_ofRecord made, other]
    rfl

theorem agree_only {bytes : Bytes} {batch : AvBatch}
    (decoded : Batch.decode AvCategory bytes = .ok batch)
    (frames : offers = true → chosen .videoFrame = true)
    (made : ∀ entry ∈ batch.toEntries, chosen entry.1 = false →
      ∃ event, AvEvent.ofRecord none entry.1 entry.2 = .ok event)
    (short : (batch.only chosen).encode.length < 0x8000000000000000)
    (listener : AvListener lam σ) (state : σ) :
    ((listener.restrict chosen offers).receive (some bytes) state).Agree
      ((listener.restrict chosen offers).receive (some (batch.only chosen).encode) state) :=
  Handler.agree_only (listener.restrict chosen offers).delivers AvCategory.lawful decoded
    (fun entry hentry other => step_unanswered frames other (made entry hentry other)) short state

theorem unanswered {bytes : Bytes} {batch : AvBatch}
    (decoded : Batch.decode AvCategory bytes = .ok batch)
    (frames : offers = true → chosen .videoFrame = true) (listener : AvListener lam σ)
    (state : σ) :
    Unanswered (fun entry => AvEvent.ofRecord none entry.1 entry.2) chosen bytes batch
      (fun bytes => (listener.restrict chosen offers).receive (some bytes) state)
      (fun bytes => (listener.traced.restrict chosen offers).receive (some bytes) state) where
  missing made short :=
    ⟨agree_only decoded frames made short listener state,
      agree_only decoded frames made short listener.traced state⟩
  refused {before after entry rejection} split made failed stage := by
    have hentry : entry.1 ≠ .videoFrame := AvEvent.ne_videoFrame_of_error failed
    -- Frames are the last category, so none is delivered before the record that is flawed.
    have hbefore (earlier : Entry AvCategory) (h : earlier ∈ before) : earlier.1 ≠ .videoFrame := by
      have sorted := batch.pairwise_toEntries
      rw [split, List.pairwise_append] at sorted
      exact fun frame => hentry
        (AvCategory.videoFrame_last (frame ▸ sorted.2.2 earlier h entry List.mem_cons_self))
    rw [(listener.restrict chosen offers).does_receive decoded state stage, split]
    apply Handler.foldlM_stops
    · intro earlier h mid
      obtain ⟨event, hevent⟩ := made earlier h
      exact ⟨event, (AvEvent.ofRecord_eq_none (hbefore earlier h) _ earlier.2).trans hevent⟩
    · exact fun mid => (AvEvent.ofRecord_eq_none hentry _ entry.2).trans failed

end AvListener

end

/-- Leaving a category unanswered is the same, for the listener and for the calls that it answers,
as leaving its records out of the batch; but its records are still checked. -/
theorem unanswered_unheard :
    (∀ {bytes : Bytes} {batch : CoreBatch}, Batch.decode CoreCategory bytes = .ok batch →
      ∀ (chosen : CoreCategory → Bool) {lam σ : Type} (listener : CoreListener lam σ) (state : σ),
        Unanswered (fun entry => CoreEvent.ofRecord entry.1 entry.2) chosen bytes batch
          (fun bytes => (listener.restrict chosen).receive (some bytes) state)
          (fun bytes => (listener.traced.restrict chosen).receive (some bytes) state)) ∧
    (∀ {bytes : Bytes} {batch : AvBatch}, Batch.decode AvCategory bytes = .ok batch →
      ∀ (chosen : AvCategory → Bool) (offers : Bool),
        (offers = true → chosen .videoFrame = true) →
          ∀ {lam σ : Type} (listener : AvListener lam σ) (state : σ),
            Unanswered (fun entry => AvEvent.ofRecord none entry.1 entry.2) chosen bytes batch
              (fun bytes => (listener.restrict chosen offers).receive (some bytes) state)
              (fun bytes =>
                (listener.traced.restrict chosen offers).receive (some bytes) state)) :=
  ⟨fun decoded chosen _ _ listener state => CoreListener.unanswered decoded chosen listener state,
    fun decoded _ _ frames _ _ listener state =>
      AvListener.unanswered decoded frames listener state⟩

/-- Only one of three core records is answered; frames are answered and get buffers, calls are not;
and a call state is refused though only calls are answered. -/
theorem unanswered_unheard_samples :
    let names : CoreBatch := fun
      | .friendName => [⟨7, [0x68]⟩]
      | .friendStatus => [⟨7, 2⟩]
      | .friendTyping => [⟨7, true⟩]
      | _ => []
    let frames : AvBatch := fun
      | .call => [⟨9, true, false⟩]
      | .videoFrame => [{ friend := 9, width := 2, height := 1, y := [1, 2], yStride := 2 }]
      | _ => []
    let flawed : AvBatch := fun
      | .call => [⟨9, true, false⟩]
      | .callState => [⟨9, [4, 9]⟩]
      | _ => []
    let core : CoreListener Transcript UInt32 := { onEvent := Transcript.onCore }
    let av : AvListener Transcript UInt32 :=
      { onEvent := Transcript.onAv, buffers := Transcript.onShape }
    (Batch.decode CoreCategory names.encode = .ok names ∧
      ((core.traced.restrict (· = .friendTyping)).receive (some names.encode) 1).Agree
        ((core.traced.restrict (· = .friendTyping)).receive
          (some (names.only (· = .friendTyping)).encode) 1)) ∧
    (Batch.decode AvCategory frames.encode = .ok frames ∧
      ((av.restrict (· = .videoFrame) true).receive (some frames.encode) 1).Agree
        ((av.restrict (· = .videoFrame) true).receive
          (some (frames.only (· = .videoFrame)).encode) 1)) ∧
    (Batch.decode AvCategory flawed.encode = .ok flawed ∧
      (((av.restrict (· = .call) false).receive (some flawed.encode) 1).outcome ⟨{}, #[]⟩).1 =
        .error (.unknownEnumerator "CallState.Kind" 9)) := by
  intro names frames flawed core av
  have hnames : Batch.decode CoreCategory names.encode = .ok names :=
    Batch.decode_encode CoreCategory.lawful names (by decide +kernel)
  have hframes : Batch.decode AvCategory frames.encode = .ok frames :=
    Batch.decode_encode AvCategory.lawful frames (by decide +kernel)
  have hflawed : Batch.decode AvCategory flawed.encode = .ok flawed :=
    Batch.decode_encode AvCategory.lawful flawed (by decide +kernel)
  have split : flawed.toEntries = [⟨.call, ⟨9, true, false⟩⟩] ++ ⟨.callState, ⟨9, [4, 9]⟩⟩ :: [] :=
    rfl
  obtain ⟨onCore, onAv⟩ := unanswered_unheard
  refine ⟨⟨hnames, ((onCore hnames (· = .friendTyping) core 1).missing ?_ ?_).2⟩,
    ⟨hframes, ((onAv hframes (· = .videoFrame) true (fun _ => rfl) av 1).missing ?_ ?_).1⟩,
    ⟨hflawed, (onAv hflawed (· = .call) false nofun av 1).refused split ?_ rfl _⟩⟩
  · intro entry hentry _
    change entry ∈ [⟨.friendName, _⟩, ⟨.friendStatus, _⟩, ⟨.friendTyping, _⟩] at hentry
    simp only [List.mem_cons, List.not_mem_nil, or_false] at hentry
    rcases hentry with rfl | rfl | rfl <;> exact ⟨_, rfl⟩
  · decide +kernel
  · intro entry hentry _
    change entry ∈ [⟨.call, _⟩, ⟨.videoFrame, _⟩] at hentry
    simp only [List.mem_cons, List.not_mem_nil, or_false] at hentry
    rcases hentry with rfl | rfl <;> exact ⟨_, rfl⟩
  · decide +kernel
  · intro entry hentry
    rw [List.mem_singleton.mp hentry]
    exact ⟨_, rfl⟩

end ToxEvents
