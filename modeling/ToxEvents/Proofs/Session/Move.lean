import ToxEvents.Proofs.Session.Operations
set_option autoImplicit false

namespace ToxEvents

variable {β lam σ : Type} {m : Meeting β lam σ}

namespace Meeting

theorem receive_hub (pass : Option Wire.Bytes → σ → Pass lam σ)
    (tick : Except Rejection (Option Wire.Bytes) × Hub β) :
    ∃ log, (m.receive pass tick).2.hub = { tick.2 with log } := by
  obtain ⟨result, hub⟩ := tick
  cases result with
  | error rejection => exact ⟨hub.log, rfl⟩
  | ok batch =>
    unfold receive
    dsimp only
    generalize (pass batch m.state).run { listener := m.listener, log := hub.log } = outcome
    obtain ⟨result, stage⟩ := outcome
    cases result with
    | ok state => exact ⟨stage.log, rfl⟩
    | error rejection => exact ⟨stage.log, rfl⟩

theorem outcome_hub {α : Type} (result : Except Rejection α × Hub β) (succeed : α → Outcome σ) :
    (m.outcome result succeed).2.hub = result.2 := by
  obtain ⟨result, hub⟩ := result
  cases result <;> rfl

theorem withCore_of {P : Hub β → Prop} {name : String} {act : Nat → Outcome σ × Meeting β lam σ}
    (unknown : P m.hub) (known : ∀ i, m.hub.core? name = some i → P (act i).2.hub) :
    P (m.withCore name act).2.hub := by
  unfold withCore
  cases found : m.hub.core? name with
  | none => exact unknown
  | some i => exact known i found

theorem withAv_of {P : Hub β → Prop} {name : String} {act : Nat → Outcome σ × Meeting β lam σ}
    (unknown : P m.hub) (known : ∀ a, P (act a).2.hub) : P (m.withAv name act).2.hub := by
  unfold withAv
  cases m.hub.av? name with
  | none => exact unknown
  | some a => exact known a

end Meeting

/-- Whatever is to be done with sessions, also with those still to come, can be asked for. -/
theorem Hub.exists_aim_target (hub : Hub β) (reaction : Reaction Nat) :
    ∃ asked : Reaction Target, asked.aim hub.target? = reaction := by
  induction reaction with
  | none => exact ⟨.none, rfl⟩
  | close a => exact ⟨.close (.numbered a), rfl⟩
  | drop a => exact ⟨.drop (.numbered a), rfl⟩
  | both first second ih₁ ih₂ =>
    obtain ⟨asked, hasked⟩ := ih₁
    obtain ⟨asked', hasked'⟩ := ih₂
    exact ⟨.both asked asked', by rw [Reaction.aim, hasked, hasked']⟩

variable [Source β]

inductive Hub.Move (fair : Prop) : Hub β → Hub β → Prop where
  | stay {hub : Hub β} : Move fair hub hub
  | openCore {hub : Hub β} (name : String) (source : β) : Move fair hub (hub.openCore name source)
  | openAv {hub : Hub β} (name : String) (i : Nat) (source : β) :
      Move fair hub (hub.openAv name i source).2
  | tickCore {hub : Hub β} (i : Nat) (log : Log) : Move fair hub { (hub.tickCore i).2 with log }
  | tickAv {hub : Hub β} (a : Nat) (log : Log) : Move fair hub { (hub.tickAv a).2 with log }
  | closeCore {hub : Hub β} (coreNames : List (String × Nat)) (i : Nat) :
      Move fair hub ({ hub with coreNames }.closeCore i)
  | closeAv {hub : Hub β} (a : Nat) : Move fair hub (hub.closeAv a)
  | dropAv {hub : Hub β} (a : Nat) : Move fair hub (hub.dropAv a)
  | addCallback {hub left : Hub β} {handle : Handle} (i : Nat) (label : String)
      (reaction : Reaction Nat)
      (added : hub.addCallback i (.user label 0 reaction) = (.ok handle, left)) :
      Move fair hub { left with handles := rename label handle left.handles }
  | removeCallback {hub : Hub β} {handle : Handle} (i : Nat) (label : String)
      (held : hub.handles.lookup label = some handle) (issued : fair → handle.issuer = i) :
      Move fair hub ({ hub with handles := forget label hub.handles }.removeSlot i handle.slot)
  | changeCall {hub : Hub β} (a : Nat) (friend : FriendNumber) (flags : CallFlags) :
      Move fair hub (hub.changeCall a friend flags).2

namespace Meeting

def after (audience : Audience lam σ) (steps : List (Step β)) (m : Meeting β lam σ) :
    Meeting β lam σ :=
  steps.foldl (fun m step => (m.perform audience step).2) m

/-- A handle is only given to the session that issued it. -/
def Fair (m : Meeting β lam σ) : Step β → Prop
  | .removeCallback core label =>
    ∀ i ∈ m.hub.core? core, ∀ handle ∈ m.hub.handles.lookup label, handle.issuer = i
  | _ => True

instance (m : Meeting β lam σ) : (step : Step β) → Decidable (m.Fair step)
  | .removeCallback core label => inferInstanceAs (Decidable
      (∀ i ∈ m.hub.core? core, ∀ handle ∈ m.hub.handles.lookup label, handle.issuer = i))
  | .openCore .. | .openAv .. | .tickCore .. | .tickAv .. | .closeCore .. | .closeAv ..
  | .dropCore .. | .dropAv .. | .addCallback .. | .changeCall .. => isTrue trivial

def FairRun (audience : Audience lam σ) : List (Step β) → Meeting β lam σ → Prop
  | [], _ => True
  | step :: later, m => m.Fair step ∧ FairRun audience later (m.perform audience step).2

instance FairRun.decide (audience : Audience lam σ) :
    (steps : List (Step β)) → (m : Meeting β lam σ) → Decidable (FairRun audience steps m)
  | [], _ => isTrue trivial
  | _ :: later, _ =>
    have := FairRun.decide audience later
    inferInstanceAs (Decidable (_ ∧ _))

theorem move_addCallback {fair : Prop} (i : Nat) (label : String) (reaction : Reaction Target) :
    m.hub.Move fair (m.addCallback i label reaction).2.hub := by
  unfold addCallback
  rcases m.hub.core_cases i with ⟨core, table, opened⟩ | shut
  · have added := Hub.addCallback_of_open opened (.user label 0 (reaction.aim m.hub.target?))
    rw [added]
    exact .addCallback i label _ added
  · rw [Hub.addCallback_of_shut shut]
    exact .stay

theorem move_perform (audience : Audience lam σ) (step : Step β) (m : Meeting β lam σ) :
    m.hub.Move (m.Fair step) (m.perform audience step).2.hub := by
  cases step with
  | openCore name source => exact .openCore name source
  | openAv name core source =>
    refine withCore_of .stay fun i _ => ?_
    rw [outcome_hub]
    exact .openAv name i source
  | tickCore core =>
    refine withCore_of .stay fun i _ => ?_
    obtain ⟨log, hlog⟩ := m.receive_hub audience.core.receive (m.hub.tickCore i)
    rw [hlog]
    exact .tickCore i log
  | tickAv av =>
    refine withAv_of .stay fun a => ?_
    obtain ⟨log, hlog⟩ := m.receive_hub audience.av.receive (m.hub.tickAv a)
    rw [hlog]
    exact .tickAv a log
  | closeCore core => exact withCore_of .stay fun i _ => .closeCore m.hub.coreNames i
  | closeAv av => exact withAv_of .stay fun a => .closeAv a
  | dropCore core => exact withCore_of .stay fun i _ => .closeCore (forget core m.hub.coreNames) i
  | dropAv av => exact withAv_of .stay fun a => .dropAv a
  | addCallback core label reaction =>
    exact withCore_of .stay fun i _ => move_addCallback i label reaction
  | removeCallback core label =>
    refine withCore_of .stay fun i known => ?_
    unfold removeCallback
    cases held : m.hub.handles.lookup label with
    | none => exact .stay
    | some handle => exact .removeCallback i label held fun fair => fair i known handle held
  | changeCall av friend flags =>
    refine withAv_of .stay fun a => ?_
    rw [outcome_hub]
    exact .changeCall a friend flags

end Meeting

end ToxEvents
