import ToxEvents.Delivery.Pass
set_option autoImplicit false

namespace ToxEvents
open Wire

section
variable {ε s α β : Type} {first : ExceptT ε (StateM s) α} {next : α → ExceptT ε (StateM s) β}
  {before after : s}

theorem run_bind_of_ok {a : α} (h : first.run before = (.ok a, after)) :
    (first >>= next).run before = (next a).run after := by
  change (ExceptT.bindCont next (first.run before).1) (first.run before).2 = _
  rw [h]
  rfl

theorem run_bind_of_error {e : ε} (h : first.run before = (.error e, after)) :
    (first >>= next).run before = (.error e, after) := by
  change (ExceptT.bindCont next (first.run before).1) (first.run before).2 = _
  rw [h]
  rfl

end

theorem foldlM_flatMap {m : Type → Type} [Monad m] [LawfulMonad m] {α β σ : Type}
    (step : σ → β → m σ) (parts : α → List β) (xs : List α) (state : σ) :
    (xs.flatMap parts).foldlM step state =
      xs.foldlM (fun state x => (parts x).foldlM step state) state := by
  induction xs generalizing state with
  | nil => rfl
  | cons x xs ih =>
    rw [List.flatMap_cons, List.foldlM_append, List.foldlM_cons]
    exact bind_congr ih

/-- A computation on the listener alone; the listener keeps what happened before a rejection. -/
abbrev Turn (lam : Type) := ExceptT Rejection (StateM lam)

namespace Pass

variable {lam α β : Type}

def outcome (pass : Pass lam α) (stage : Stage lam) : Except Rejection α × lam :=
  ((pass.run stage).1, (pass.run stage).2.listener)

/-- The pass is the turn, whatever stands in the log. -/
def Does (pass : Pass lam α) (turn : Turn lam α) : Prop :=
  ∀ stage, pass.outcome stage = turn.run stage.listener

/-- Both passes end alike and leave the listener alike, from wherever they start. -/
def Agree (pass pass' : Pass lam α) : Prop := ∀ stage, pass.outcome stage = pass'.outcome stage

theorem Does.agree {pass pass' : Pass lam α} {turn : Turn lam α} (h : pass.Does turn)
    (h' : pass'.Does turn) : pass.Agree pass' :=
  fun stage => (h stage).trans (h' stage).symm

theorem does_pure (a : α) : (pure a : Pass lam α).Does (pure a) := fun _ => rfl

theorem does_act (action : StateM lam α) : (act action).Does action := fun _ => rfl

theorem does_accept (result : Except Rejection α) :
    (accept result : Pass lam α).Does (ExceptT.mk (pure result)) := by
  cases result <;> exact fun _ => rfl

theorem Does.bind {pass : Pass lam α} {turn : Turn lam α} {next : α → Pass lam β}
    {nextTurn : α → Turn lam β} (h : pass.Does turn) (hnext : ∀ a, (next a).Does (nextTurn a)) :
    (pass >>= next).Does (turn >>= nextTurn) := by
  intro stage
  rcases hpass : pass.run stage with ⟨result, after⟩
  have hturn : turn.run stage.listener = (result, after.listener) := by
    rw [← h stage, outcome, hpass]
  cases result with
  | ok a =>
    rw [outcome, run_bind_of_ok hpass, run_bind_of_ok hturn]
    exact hnext a after
  | error rejection => rw [outcome, run_bind_of_error hpass, run_bind_of_error hturn]

theorem Does.after_note {pass : Pass lam α} {turn : Turn lam α} (h : pass.Does turn)
    (level : Level) (topic : Topic) (text : String) :
    (do note level topic text; pass).Does turn :=
  fun stage => h { stage with log := stage.log.push ⟨level, topic, text⟩ }

theorem does_foldlM {ρ σ : Type} {step : σ → ρ → Pass lam σ} {turn : σ → ρ → Turn lam σ}
    (h : ∀ state x, (step state x).Does (turn state x)) (xs : List ρ) (state : σ) :
    (xs.foldlM step state).Does (xs.foldlM turn state) := by
  induction xs generalizing state with
  | nil => exact does_pure state
  | cons x xs ih =>
    rw [List.foldlM_cons, List.foldlM_cons]
    exact (h state x).bind ih

end Pass

section
variable {C : Type} [DecidableEq C] [Surface C] {lam σ : Type}
  {deliver : (c : C) → Surface.Rec c → σ → Pass lam σ} {turn : σ → Entry C → Turn lam σ}

theorem does_deliverCategory
    (h : ∀ state c record, (deliver c record state).Does (turn state ⟨c, record⟩)) (c : C)
    (records : List (Surface.Rec c)) (state : σ) :
    (deliverCategory deliver c records state).Does
      ((records.map (Sigma.mk c)).foldlM turn state) := by
  have hfold := Pass.does_foldlM (fun state record => h state c record) records state
  rw [List.foldlM_map]
  unfold deliverCategory
  split
  · exact hfold.after_note _ _ _
  · exact hfold

theorem does_deliverBatch
    (h : ∀ state c record, (deliver c record state).Does (turn state ⟨c, record⟩))
    (batch : Batch C) (state : σ) :
    (deliverBatch deliver batch state).Does (batch.toEntries.foldlM turn state) := by
  unfold Batch.toEntries deliverBatch
  rw [foldlM_flatMap, Surface.visit_eq]
  exact Pass.does_foldlM (fun state c => does_deliverCategory h c (batch c) state) _ state

end

end ToxEvents
