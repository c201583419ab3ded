import ToxEvents.Proofs.Replay.Reuse
set_option autoImplicit false

namespace ToxEvents
open Wire

def Tally.bare (t : Tally) : Tally := { t with events := none }

def Outcome.map {σ τ : Type} (f : σ → τ) : Outcome σ → Outcome τ
  | done => done
  | slot n => slot n
  | noHandle => noHandle
  | unknown => unknown
  | rejected rejection => rejected rejection
  | received state => received (f state)
  | stopped rejection => stopped rejection

/-- To change the state before is to change it after, and the listener sees no difference. -/
def Turn.Reduces {lam σ : Type} (f : σ → σ) (turn : σ → Turn lam σ) : Prop :=
  ∀ state before, (turn (f state)).run before =
    (((turn state).run before).1.map f, ((turn state).run before).2)

namespace Handler

variable {C ε lam σ : Type} [DecidableEq C] [Surface C] {h : Handler C ε lam σ} {f : σ → σ}

theorem reduces_step
    (invoke : ∀ event state before, h.invoke event (f state) before =
      (f (h.invoke event state before).1, (h.invoke event state before).2))
    (entry : Entry C) : Turn.Reduces f fun state => h.step state entry := by
  intro state before
  rcases translated : (h.translate entry).run before with ⟨result, mid⟩
  cases result with
  | error rejection =>
    dsimp only
    rw [step_of_rejected translated, step_of_rejected translated]
    rfl
  | ok event =>
    dsimp only
    rw [step_of_translated translated, step_of_translated translated, invoke]
    rfl

theorem reduces_foldlM (step : ∀ entry, Turn.Reduces f fun state => h.step state entry)
    (entries : List (Entry C)) : Turn.Reduces f (entries.foldlM h.step) := by
  induction entries with
  | nil => exact fun _ _ => rfl
  | cons entry entries ih =>
    intro state before
    have hreduced := step entry state before
    dsimp only at hreduced ⊢
    rw [List.foldlM_cons, List.foldlM_cons]
    rcases hstep : (h.step state entry).run before with ⟨result, mid⟩
    rw [hstep] at hreduced
    cases result with
    | error rejection =>
      rw [run_bind_of_error hreduced, run_bind_of_error hstep]
      rfl
    | ok answer =>
      rw [run_bind_of_ok hreduced, run_bind_of_ok hstep]
      exact ih answer mid

theorem reduces_turn (step : ∀ entry, Turn.Reduces f fun state => h.step state entry)
    (given : Option Bytes) : Turn.Reduces f (h.turn given) := by
  cases given with
  | none => exact fun _ _ => rfl
  | some bytes =>
    intro state before
    cases decoded : Batch.decode C bytes with
    | error fault =>
      rw [turn_of_malformed decoded, turn_of_malformed decoded]
      rfl
    | ok batch =>
      rw [turn_of_decoded decoded, turn_of_decoded decoded]
      exact reduces_foldlM step batch.toEntries state before

end Handler

theorem Side.reduces_of {f : Tally → Tally}
    (record : ∀ category friend detail t,
      (f t).record category friend detail = f (t.record category friend detail))
    (callState : ∀ flags t, (f t).withCallState flags = f (t.withCallState flags))
    (side : Side) (given : Option Bytes) : Turn.Reduces f (side.turn given) := by
  cases side with
  | core =>
    apply Handler.reduces_turn
    apply Handler.reduces_step
    intro event t r
    exact congrArg (·, r) (record _ _ _ t)
  | av =>
    apply Handler.reduces_turn
    apply Handler.reduces_step
    intro event t r
    have htally : Recorder.tallyAv event (f t) = f (Recorder.tallyAv event t) := by
      unfold Recorder.tallyAv
      rw [record]
      cases event
      case callState => exact callState _ _
      all_goals rfl
    cases event <;> exact congrArg (·, _) htally

theorem Side.reduces (side : Side) (given : Option Bytes) :
    Turn.Reduces Tally.bare (side.turn given) :=
  side.reduces_of (fun _ _ _ _ => rfl) (fun _ _ => rfl) given

namespace Meeting

variable {β : Type} {m m' : Meeting β Recorder Tally}

/-- The second meeting has what the first has, but for the events. -/
structure Bare (m m' : Meeting β Recorder Tally) : Prop where
  listener : m'.listener = m.listener
  state : m'.state = m.state.bare

theorem receive_bare (bare : m.Bare m') (side : Side) (given : Option Bytes) :
    (m'.receive side.pass (.ok given, m'.hub)).1 =
        (m.receive side.pass (.ok given, m.hub)).1.map Tally.bare ∧
      (m.receive side.pass (.ok given, m.hub)).2.Bare
        (m'.receive side.pass (.ok given, m'.hub)).2 := by
  have hdoes := side.does given m.state
  have hdoes' := side.does given m'.state
  have hturn' := side.reduces given m.state m.listener
  rcases hturn : (side.turn given m.state).run m.listener with ⟨result, left⟩
  rw [hturn, ← bare.state, ← bare.listener] at hturn'
  cases result with
  | error rejection =>
    obtain ⟨log, hreceive⟩ := receive_of_error m.hub hdoes hturn
    obtain ⟨log', hreceive'⟩ := receive_of_error m'.hub hdoes' hturn'
    rw [hreceive, hreceive']
    exact ⟨rfl, rfl, bare.state⟩
  | ok tally =>
    obtain ⟨log, hreceive⟩ := receive_of_ok m.hub hdoes hturn
    obtain ⟨log', hreceive'⟩ := receive_of_ok m'.hub hdoes' hturn'
    rw [hreceive, hreceive']
    exact ⟨rfl, rfl, rfl⟩

theorem feed_bare (bare : m.Bare m') (given : Feed) :
    m'.answer given = (m.answer given).map Tally.bare ∧ (m.feed given).Bare (m'.feed given) := by
  cases given with
  | core batch => exact receive_bare bare .core batch
  | av batch => exact receive_bare bare .av batch
  | next =>
    have hnext : m'.state.nextBatch = m.state.nextBatch.bare := by
      rw [bare.state]
      rfl
    exact ⟨congrArg Outcome.received hnext, bare.listener, hnext⟩

theorem answers_bare (bare : m.Bare m') (given : List Feed) :
    m'.answers given = (m.answers given).map (Outcome.map Tally.bare) := by
  induction given generalizing m m' with
  | nil => rfl
  | cons first later ih =>
    obtain ⟨hanswer, hfeed⟩ := feed_bare bare first
    rw [answers, answers, List.map_cons, hanswer, ih hfeed]

theorem fed_bare (bare : m.Bare m') (given : List Feed) : (m.fed given).Bare (m'.fed given) := by
  induction given generalizing m m' with
  | nil => exact bare
  | cons first later ih => exact ih (feed_bare bare first).2

/-- Whether events are kept makes no difference to what is refused, to the buffers that are reused
and, at any time, to the rest of the tally. -/
theorem events_invisible (hub hub' : Hub β) (reuses : Bool) (given : List Feed) :
    let keeping : Meeting β Recorder Tally :=
      { hub, listener := { reuses }, state := Tally.start true }
    let plain : Meeting β Recorder Tally :=
      { hub := hub', listener := { reuses }, state := Tally.start false }
    plain.answers given = (keeping.answers given).map (Outcome.map Tally.bare) ∧
      ∀ k,
        let m := keeping.fed (given.take k)
        let m' := plain.fed (given.take k)
        m'.listener = m.listener ∧ m'.state = m.state.bare ∧ m.state.events.isSome := by
  intro keeping plain
  have hstart : keeping.Bare plain := ⟨rfl, rfl⟩
  refine ⟨answers_bare hstart given, ?_⟩
  intro k m m'
  obtain ⟨hlistener, hstate⟩ := fed_bare hstart (given.take k)
  have haccounts : keeping.state.Accounts true [] := .start true
  have hevents := (fed_accounts haccounts (given.take k)).2.events
  rw [if_pos rfl] at hevents
  obtain ⟨events, hsome, -⟩ := Option.map_eq_some_iff.mp hevents
  exact ⟨hlistener, hstate, Option.isSome_iff_exists.mpr ⟨events, hsome⟩⟩

end Meeting

end ToxEvents
