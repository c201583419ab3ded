import ToxEvents.Proofs.Delivery.Flaws
set_option autoImplicit false

namespace ToxEvents
open Wire

/-- The items of a batch that does not decode are the fault. Of others the first that is flawed, in
the order of delivery, decides. -/
structure Verdict {ι : Type} (flaw? : ι → Option Rejection) (items : Except Fault (List ι))
    (refusal : Option Rejection) : Prop where
  accepted : refusal = none ↔ ∃ found, items = .ok found ∧ ∀ item ∈ found, flaw? item = none
  refused : ∀ rejection, refusal = some rejection ↔
    (∃ fault, items = .error fault ∧ rejection = .malformed fault) ∨
      ∃ before item after, items = .ok (before ++ item :: after) ∧
        (∀ earlier ∈ before, flaw? earlier = none) ∧ flaw? item = some rejection

def judge {ι : Type} (flaw? : ι → Option Rejection) : Except Fault (List ι) → Option Rejection
  | .error fault => some (.malformed fault)
  | .ok found => found.findSome? flaw?

theorem verdict_judge {ι : Type} (flaw? : ι → Option Rejection) (items : Except Fault (List ι)) :
    Verdict flaw? items (judge flaw? items) := by
  cases items with
  | error fault =>
    constructor
    · simp [judge]
    · intro rejection
      simp [judge, eq_comm]
  | ok found =>
    constructor
    · simp [judge, List.findSome?_eq_none_iff]
    · intro rejection
      simp [judge, List.findSome?_eq_some_iff, and_comm]

section
variable {lam σ α β : Type}

theorem refusal?_run_bind {first : Turn lam α} {next : α → Turn lam β} {other : Option Rejection}
    {before : lam} (later : ∀ a mid, refusal? ((next a).run mid).1 = other) :
    refusal? ((first >>= next).run before).1 = (refusal? (first.run before).1).or other := by
  rcases hfirst : first.run before with ⟨result, mid⟩
  cases result with
  | error rejection =>
    rw [run_bind_of_error hfirst]
    rfl
  | ok a =>
    rw [run_bind_of_ok hfirst]
    exact later a mid

end

namespace CoreListener

variable {lam σ : Type} (listener : CoreListener lam σ)

theorem refusal?_step (state : σ) (entry : Entry CoreCategory) (before : lam) :
    refusal? ((listener.handler.step state entry).run before).1 = entry.1.flaw? entry.2 := by
  have hstep : refusal? ((listener.handler.step state entry).run before).1 =
      (refusal? (CoreEvent.ofRecord entry.1 entry.2)).or none :=
    refusal?_run_bind fun _ _ => rfl
  rw [hstep, Option.or_none]
  exact CoreEvent.refusal?_ofRecord entry.1 entry.2

theorem refusal?_foldlM (entries : List (Entry CoreCategory)) (state : σ) (before : lam) :
    refusal? ((entries.foldlM listener.handler.step state).run before).1 =
      entries.findSome? fun entry => entry.1.flaw? entry.2 := by
  induction entries generalizing state before with
  | nil => rfl
  | cons entry entries ih =>
    rw [List.foldlM_cons, refusal?_run_bind ih, listener.refusal?_step, findSome?_cons_eq_or]

theorem refusal?_receive (bytes : Bytes) (state : σ) (stage : Stage lam) :
    refusal? ((listener.receive (some bytes) state).outcome stage).1 =
      judge (fun entry => entry.1.flaw? entry.2)
        ((Batch.decode CoreCategory bytes).map Batch.toEntries) := by
  cases decoded : Batch.decode CoreCategory bytes with
  | error fault =>
    simp only [receive, decoded]
    rfl
  | ok batch =>
    rw [listener.does_receive decoded state stage]
    exact listener.refusal?_foldlM batch.toEntries state stage.listener

end CoreListener

/-- The records, those that ask for buffers with the offers in turn. -/
def withOffers : List (Entry AvCategory) → (Nat → Option FrameBuffers) →
    List (Entry AvCategory × Option FrameBuffers)
  | [], _ => []
  | entry :: later, plan =>
    match AvEvent.wanted? entry.1 entry.2 with
    | none => (entry, none) :: withOffers later plan
    | some _ => (entry, plan 0) :: withOffers later fun k => plan (k + 1)

def Follows (made : List (Option FrameBuffers)) (plan : Nat → Option FrameBuffers) : Prop :=
  made = (List.range made.length).map plan

instance (made : List (Option FrameBuffers)) (plan : Nat → Option FrameBuffers) :
    Decidable (Follows made plan) := inferInstanceAs (Decidable (_ = _))

theorem follows_cons {offered : Option FrameBuffers} {made : List (Option FrameBuffers)}
    {plan : Nat → Option FrameBuffers} :
    Follows (offered :: made) plan ↔ offered = plan 0 ∧ Follows made fun k => plan (k + 1) := by
  unfold Follows
  rw [List.length_cons, List.range_succ_eq_map, List.map_cons, List.map_map, List.cons.injEq]
  rfl

namespace AvListener

variable {lam σ : Type} (listener : AvListener lam σ)

/-- The same listener, except that it writes its offers down. -/
def offering : AvListener (lam × List (Option FrameBuffers)) σ where
  onEvent event state := fun (before, made) =>
    let (answer, left) := listener.onEvent event state before
    (answer, (left, made))
  buffers shape := fun (before, made) =>
    let (offered, left) := listener.buffers shape before
    (offered, (left, made ++ [offered]))

def offers (bytes : Bytes) (state : σ) (stage : Stage lam) : List (Option FrameBuffers) :=
  ((listener.offering.receive (some bytes) state).outcome ⟨(stage.listener, []), stage.log⟩).2.2

theorem refusal?_step (state : σ) (entry : Entry AvCategory) (before : lam) :
    refusal? ((listener.handler.step state entry).run before).1 =
      entry.1.flaw? (listener.offer entry before).1 entry.2 := by
  have hstep : refusal? ((listener.handler.step state entry).run before).1 =
      (refusal? (AvEvent.ofRecord (listener.offer entry before).1 entry.1 entry.2)).or none :=
    refusal?_run_bind fun _ _ => rfl
  rw [hstep, Option.or_none]
  exact AvEvent.refusal?_ofRecord _ entry.1 entry.2

def offered (entry : Entry AvCategory) (before : lam) : List (Option FrameBuffers) :=
  (AvEvent.wanted? entry.1 entry.2).toList.map fun shape => (listener.buffers shape before).1

theorem offer_offering (entry : Entry AvCategory) (before : lam)
    (earlier : List (Option FrameBuffers)) :
    listener.offering.offer entry (before, earlier) =
      ((listener.offer entry before).1,
        ((listener.offer entry before).2, earlier ++ listener.offered entry before)) := by
  unfold offer offered
  cases AvEvent.wanted? entry.1 entry.2 with
  | none => exact congrArg (fun made => (none, (before, made))) (List.append_nil earlier).symm
  | some shape => rfl

theorem step_offering (state : σ) (entry : Entry AvCategory) (before : lam)
    (earlier : List (Option FrameBuffers)) :
    (listener.offering.handler.step state entry).run (before, earlier) =
      (((listener.handler.step state entry).run before).1,
        (((listener.handler.step state entry).run before).2,
          earlier ++ listener.offered entry before)) := by
  have hoffer := listener.offer_offering entry before earlier
  have htranslate : (listener.offering.handler.translate entry).run (before, earlier) =
      (AvEvent.ofRecord (listener.offer entry before).1 entry.1 entry.2,
        ((listener.offer entry before).2, earlier ++ listener.offered entry before)) := by
    change (AvEvent.ofRecord (listener.offering.offer entry (before, earlier)).1 entry.1 entry.2,
      (listener.offering.offer entry (before, earlier)).2) = _
    rw [hoffer]
  have hplain : (listener.handler.translate entry).run before =
      (AvEvent.ofRecord (listener.offer entry before).1 entry.1 entry.2,
        (listener.offer entry before).2) := rfl
  cases made : AvEvent.ofRecord (listener.offer entry before).1 entry.1 entry.2 with
  | error rejection =>
    rw [made] at htranslate hplain
    rw [Handler.step_of_rejected htranslate, Handler.step_of_rejected hplain]
  | ok event =>
    rw [made] at htranslate hplain
    rw [Handler.step_of_translated htranslate, Handler.step_of_translated hplain]
    rfl

theorem flaw_withOffers (entry : Entry AvCategory) (later : List (Entry AvCategory)) (before : lam)
    {others : List (Option FrameBuffers)} {plan : Nat → Option FrameBuffers}
    (follows : Follows (listener.offered entry before ++ others) plan) :
    ∃ rest, Follows others rest ∧ withOffers (entry :: later) plan =
      (entry, (listener.offer entry before).1) :: withOffers later rest := by
  unfold offered at follows
  rw [withOffers]
  unfold offer
  cases hwanted : AvEvent.wanted? entry.1 entry.2 with
  | none =>
    rw [hwanted] at follows
    exact ⟨plan, follows, rfl⟩
  | some shape =>
    rw [hwanted] at follows
    obtain ⟨hfirst, hothers⟩ := follows_cons.mp follows
    refine ⟨_, hothers, ?_⟩
    rw [← hfirst]

/-- Writing the offers down changes nothing else, and the offers decide with the records. -/
theorem exists_offers (entries : List (Entry AvCategory)) (state : σ) (before : lam)
    (earlier : List (Option FrameBuffers)) :
    ∃ made,
      (entries.foldlM listener.offering.handler.step state).run (before, earlier) =
        (((entries.foldlM listener.handler.step state).run before).1,
          (((entries.foldlM listener.handler.step state).run before).2, earlier ++ made)) ∧
      ∀ plan, Follows made plan →
        refusal? ((entries.foldlM listener.handler.step state).run before).1 =
          (withOffers entries plan).findSome? fun item => item.1.1.flaw? item.2 item.1.2 := by
  induction entries generalizing state before earlier with
  | nil => exact ⟨[], congrArg (fun made => (_, (before, made))) (List.append_nil earlier).symm,
      fun _ _ => rfl⟩
  | cons entry entries ih =>
    have hoffering := listener.step_offering state entry before earlier
    have hflaw := listener.refusal?_step state entry before
    rw [List.foldlM_cons, List.foldlM_cons]
    rcases hstep : (listener.handler.step state entry).run before with ⟨result, mid⟩
    rw [hstep] at hoffering hflaw
    cases result with
    -- A record that is refused is the last that the listener is asked for.
    | error rejection =>
      refine ⟨listener.offered entry before, ?_, fun plan follows => ?_⟩
      · rw [run_bind_of_error hoffering, run_bind_of_error hstep]
      · rw [← List.append_nil (listener.offered entry before)] at follows
        obtain ⟨rest, -, hitems⟩ := listener.flaw_withOffers entry entries before follows
        rw [run_bind_of_error hstep, hitems, findSome?_cons_eq_or, ← hflaw]
        rfl
    | ok answer =>
      obtain ⟨made, hfold, hplan⟩ := ih answer mid (earlier ++ listener.offered entry before)
      refine ⟨listener.offered entry before ++ made, ?_, fun plan follows => ?_⟩
      · rw [run_bind_of_ok hoffering, run_bind_of_ok hstep, hfold, List.append_assoc]
      · obtain ⟨rest, hrest, hitems⟩ := listener.flaw_withOffers entry entries before follows
        rw [run_bind_of_ok hstep, hitems, findSome?_cons_eq_or, ← hflaw, hplan rest hrest]
        rfl

theorem refusal?_receive (bytes : Bytes) (state : σ) (stage : Stage lam)
    {plan : Nat → Option FrameBuffers}
    (follows : Follows (listener.offers bytes state stage) plan) :
    refusal? ((listener.receive (some bytes) state).outcome stage).1 =
      judge (fun item => item.1.1.flaw? item.2 item.1.2)
        ((Batch.decode AvCategory bytes).map fun batch => withOffers batch.toEntries plan) := by
  cases decoded : Batch.decode AvCategory bytes with
  | error fault =>
    simp only [receive, decoded]
    rfl
  | ok batch =>
    obtain ⟨made, hfold, hplan⟩ :=
      listener.exists_offers batch.toEntries state stage.listener []
    have hmade : listener.offers bytes state stage = made := by
      unfold offers
      rw [listener.offering.does_receive decoded state, hfold]
      rfl
    rw [listener.does_receive decoded state stage]
    exact hplan plan (hmade ▸ follows)

end AvListener

/-- A batch is accepted or refused alike by all listeners in all states; on the surface with frames
by all that make the same offers. -/
theorem acceptance_by_bytes :
    (∀ bytes : Bytes, ∃ refusal,
      Verdict (fun entry => entry.1.flaw? entry.2)
        ((Batch.decode CoreCategory bytes).map Batch.toEntries) refusal ∧
      ∀ {lam σ : Type} (listener : CoreListener lam σ) (state : σ) (stage : Stage lam),
        refusal? ((listener.receive (some bytes) state).outcome stage).1 = refusal) ∧
    (∀ (bytes : Bytes) (plan : Nat → Option FrameBuffers), ∃ refusal,
      Verdict (fun item => item.1.1.flaw? item.2 item.1.2)
        ((Batch.decode AvCategory bytes).map fun batch => withOffers batch.toEntries plan)
        refusal ∧
      ∀ {lam σ : Type} (listener : AvListener lam σ) (state : σ) (stage : Stage lam),
        Follows (listener.offers bytes state stage) plan →
          refusal? ((listener.receive (some bytes) state).outcome stage).1 = refusal) := by
  constructor
  · intro bytes
    refine ⟨_, verdict_judge _ _, ?_⟩
    intro lam σ listener state stage
    exact listener.refusal?_receive bytes state stage
  · intro bytes plan
    refine ⟨_, verdict_judge _ _, ?_⟩
    intro lam σ listener state stage follows
    exact listener.refusal?_receive bytes state stage follows

/-- Two listeners that have nothing in common but their offers, of which the second is too short. -/
theorem acceptance_by_bytes_samples :
    let batch : AvBatch := fun
      | .callState => [⟨9, [4, 0]⟩]
      | .videoFrame => [{ friend := 9, height := 1, y := [1, 2] }, { friend := 9, u := [3, 4] }]
      | _ => []
    let planes : FrameBuffers := ⟨[0, 0, 0], [0], []⟩
    let queueing := Transcript.avListener (fun _ => true) true
    let counting : AvListener Unit Nat :=
      { onEvent := fun _ n => pure (n + 1), buffers := fun _ => pure (some planes) }
    let queue : Stage Transcript := { listener := { queue := [some planes, some planes, none] } }
    let empty : Stage Unit := { listener := () }
    Follows (queueing.offers batch.encode 1 queue) (fun _ => some planes) ∧
      Follows (counting.offers batch.encode 0 empty) (fun _ => some planes) ∧
      ∃ refusal,
        Verdict (fun item => item.1.1.flaw? item.2 item.1.2)
          ((Batch.decode AvCategory batch.encode).map fun batch =>
            withOffers batch.toEntries fun _ => some planes) refusal ∧
        refusal? ((queueing.receive (some batch.encode) 1).outcome queue).1 = refusal ∧
        refusal? ((counting.receive (some batch.encode) 0).outcome empty).1 = refusal ∧
        refusal = some (.planeTooSmall .u 2 1) := by
  intro batch planes queueing counting queue empty
  have hqueueing : Follows (queueing.offers batch.encode 1 queue) fun _ => some planes := by
    decide +kernel
  have hcounting : Follows (counting.offers batch.encode 0 empty) fun _ => some planes := by
    decide +kernel
  obtain ⟨refusal, verdict, alike⟩ := acceptance_by_bytes.2 batch.encode fun _ => some planes
  have hrefusal := alike counting 0 empty hcounting
  refine ⟨hqueueing, hcounting, refusal, verdict, alike queueing 1 queue hqueueing, hrefusal, ?_⟩
  rw [← hrefusal]
  decide +kernel

end ToxEvents
