import ToxEvents.Proofs.Delivery.Turn
set_option autoImplicit false

/-!
# Folding a handler over records

A handler makes an event of a record and invokes the listener with it. Over a list of records each
invocation gets the state that the one before it returned, and the first record that fails ends the
fold; the records before it, and no others, have been handed over.
-/
namespace ToxEvents

/-- How a surface hands a record to its listener. What the listener does for the sake of the event
is part of `translate`. -/
structure Handler (C : Type) [DecidableEq C] [Surface C] (ε lam σ : Type) where
  category : ε → C
  translate : Entry C → Turn lam ε
  invoke : ε → σ → StateM lam σ
  own : ∀ {entry : Entry C} {listener left : lam} {event : ε},
    (translate entry).run listener = (.ok event, left) → category event = entry.1

/-- One call of a listener, with the state that it was given and the state that it returned. -/
structure Invocation (ε σ : Type) where
  event : ε
  given : σ
  answer : σ

structure Traced (lam ε σ : Type) where
  listener : lam
  calls : List (Invocation ε σ) := []

namespace Handler

variable {C : Type} [DecidableEq C] [Surface C] {ε lam σ : Type}

def step (h : Handler C ε lam σ) (state : σ) (entry : Entry C) : Turn lam σ := do
  let event ← h.translate entry
  h.invoke event state

/-- Each record is translated and handed to its own category, with the state that the record before
it left. -/
inductive Handoff (h : Handler C ε lam σ) :
    List (Entry C) → σ → lam → List (Invocation ε σ) → σ → lam → Prop
  | nil {state : σ} {listener : lam} : Handoff h [] state listener [] state listener
  | cons {entry : Entry C} {entries : List (Entry C)} {event : ε} {state answer last : σ}
      {listener mid after left : lam} {calls : List (Invocation ε σ)}
      (translated : (h.translate entry).run listener = (.ok event, mid))
      (own : h.category event = entry.1) (answered : h.invoke event state mid = (answer, after))
      (others : Handoff h entries answer after calls last left) :
      Handoff h (entry :: entries) state listener (⟨event, state, answer⟩ :: calls) last left

/-- The records before position `k` are handed over, and the one at `k` fails. -/
def FailsAt (h : Handler C ε lam σ) (entries : List (Entry C)) (state : σ) (listener : lam)
    (k : Nat) (rejection : Rejection) (left : lam) : Prop :=
  ∃ entry reached mid, entries[k]? = some entry ∧
    ((entries.take k).foldlM h.step state).run listener = (.ok reached, mid) ∧
    (h.step reached entry).run mid = (.error rejection, left)

/-- The same handler, except that it writes down what it is called with. -/
structure Traces (h : Handler C ε lam σ) (h' : Handler C ε (Traced lam ε σ) σ) : Prop where
  translate : ∀ {entry listener calls result left},
    (h.translate entry).run listener = (result, left) →
      (h'.translate entry).run ⟨listener, calls⟩ = (result, ⟨left, calls⟩)
  invoke : ∀ {event state listener calls answer left},
    h.invoke event state listener = (answer, left) →
      h'.invoke event state ⟨listener, calls⟩ =
        (answer, ⟨left, calls ++ [⟨event, state, answer⟩]⟩)

/-- A pass delivers a batch as one fold of `h` over its records; `traced` is the same pass for a
listener that writes its calls down. -/
structure SingleFold (h : Handler C ε lam σ) (batch : Batch C) (state : σ) (stage : Stage lam)
    (pass : Pass lam σ) (traced : Pass (Traced lam ε σ) σ) : Prop where
  /-- The fold takes the categories in order and a category's records as they arrived. -/
  fold : pass.outcome stage =
    (((Surface.all (C := C)).flatMap fun c => (batch c).map (Sigma.mk c)).foldlM
      h.step state).run stage.listener
  success : ∀ {last left}, pass.outcome stage = (.ok last, left) →
    ∃ calls, traced.outcome ⟨⟨stage.listener, []⟩, stage.log⟩ = (.ok last, ⟨left, calls⟩) ∧
      Handoff h batch.toEntries state stage.listener calls last left ∧
      calls.length = batch.size ∧ last = (calls.map (·.answer)).getLastD state
  rejected : ∀ {rejection left}, pass.outcome stage = (.error rejection, left) ↔
    ∃ k, FailsAt h batch.toEntries state stage.listener k rejection left
  /-- Exactly the records before it have been calls. -/
  stopped : ∀ {k rejection left},
    FailsAt h batch.toEntries state stage.listener k rejection left →
      ∃ calls reached mid,
        traced.outcome ⟨⟨stage.listener, []⟩, stage.log⟩ = (.error rejection, ⟨left, calls⟩) ∧
        Handoff h (batch.toEntries.take k) state stage.listener calls reached mid ∧
        calls.length = k

variable {h : Handler C ε lam σ} {h' : Handler C ε (Traced lam ε σ) σ} {entry : Entry C}
  {entries : List (Entry C)} {event : ε} {state answer last : σ} {listener mid left : lam}
  {calls : List (Invocation ε σ)} {rejection : Rejection}

theorem step_of_translated (translated : (h.translate entry).run listener = (.ok event, mid)) :
    (h.step state entry).run listener =
      (.ok (h.invoke event state mid).1, (h.invoke event state mid).2) :=
  run_bind_of_ok translated

theorem step_of_rejected (rejected : (h.translate entry).run listener = (.error rejection, left)) :
    (h.step state entry).run listener = (.error rejection, left) :=
  run_bind_of_error rejected

theorem translate_of_step_error
    (failed : (h.step state entry).run listener = (.error rejection, left)) :
    (h.translate entry).run listener = (.error rejection, left) := by
  rcases translated : (h.translate entry).run listener with ⟨result, mid⟩
  cases result with
  | ok event =>
    rw [step_of_translated translated] at failed
    cases failed
  | error rejection' =>
    rw [step_of_rejected translated] at failed
    cases failed
    rfl

theorem Handoff.length_calls (handed : Handoff h entries state listener calls last left) :
    calls.length = entries.length := by
  induction handed with
  | nil => rfl
  | cons _ _ _ _ ih => rw [List.length_cons, List.length_cons, ih]

theorem Handoff.last_eq (handed : Handoff h entries state listener calls last left) :
    last = (calls.map (·.answer)).getLastD state := by
  induction handed with
  | nil => rfl
  | cons _ _ _ _ ih => rw [List.map_cons, List.getLastD_cons, ← ih]

theorem exists_handoff
    (folded : (entries.foldlM h.step state).run listener = (.ok last, left)) :
    ∃ calls, Handoff h entries state listener calls last left := by
  induction entries generalizing state listener with
  | nil =>
    cases folded
    exact ⟨[], .nil⟩
  | cons entry entries ih =>
    rw [List.foldlM_cons] at folded
    rcases translated : (h.translate entry).run listener with ⟨result, mid⟩
    cases result with
    | error rejection =>
      rw [run_bind_of_error (step_of_rejected translated)] at folded
      cases folded
    | ok event =>
      rw [run_bind_of_ok (step_of_translated translated)] at folded
      obtain ⟨calls, handed⟩ := ih folded
      exact ⟨_, .cons translated (h.own translated) rfl handed⟩

/-- Records are handed over if none of them fails while `holds` is kept. -/
theorem handoff_of_translates (holds : lam → Prop) (held : holds listener)
    (translates : ∀ entry ∈ entries, ∀ before, holds before → ∀ state, ∃ event mid,
      (h.translate entry).run before = (.ok event, mid) ∧ holds (h.invoke event state mid).2) :
    ∃ calls last left, Handoff h entries state listener calls last left := by
  induction entries generalizing state listener with
  | nil => exact ⟨[], state, listener, .nil⟩
  | cons entry entries ih =>
    obtain ⟨hfirst, hothers⟩ := List.forall_mem_cons.mp translates
    obtain ⟨event, mid, htranslate, hmid⟩ := hfirst listener held state
    obtain ⟨calls, last, left, handed⟩ := ih hmid hothers
    exact ⟨_, last, left, .cons htranslate (h.own htranslate) rfl handed⟩

theorem Handoff.folds (handed : Handoff h entries state listener calls last left) :
    (entries.foldlM h.step state).run listener = (.ok last, left) := by
  induction handed with
  | nil => rfl
  | cons translated _ answered _ ih =>
    rw [List.foldlM_cons, run_bind_of_ok (step_of_translated translated), answered, ih]

theorem Handoff.traced (traces : Traces h h')
    (handed : Handoff h entries state listener calls last left)
    (earlier : List (Invocation ε σ)) :
    (entries.foldlM h'.step state).run ⟨listener, earlier⟩ =
      (.ok last, ⟨left, earlier ++ calls⟩) := by
  induction handed generalizing earlier with
  | nil =>
    rw [List.append_nil]
    rfl
  | cons translated _ answered _ ih =>
    rw [List.foldlM_cons, run_bind_of_ok (step_of_translated (traces.translate translated)),
      traces.invoke answered, ih, List.append_assoc, List.singleton_append]

theorem failsAt_cons {k : Nat} (translated : (h.translate entry).run listener = (.ok event, mid))
    (failed : FailsAt h entries (h.invoke event state mid).1 (h.invoke event state mid).2 k
      rejection left) : FailsAt h (entry :: entries) state listener (k + 1) rejection left := by
  obtain ⟨failing, reached, after, found, before, fails⟩ := failed
  refine ⟨failing, reached, after, found, ?_, fails⟩
  rw [List.take_succ_cons, List.foldlM_cons, run_bind_of_ok (step_of_translated translated)]
  exact before

theorem exists_failsAt
    (folded : (entries.foldlM h.step state).run listener = (.error rejection, left)) :
    ∃ k, FailsAt h entries state listener k rejection left := by
  induction entries generalizing state listener with
  | nil =>
    cases folded
  | cons entry entries ih =>
    rw [List.foldlM_cons] at folded
    rcases translated : (h.translate entry).run listener with ⟨result, mid⟩
    cases result with
    | error rejection' =>
      rw [run_bind_of_error (step_of_rejected translated)] at folded
      cases folded
      exact ⟨0, entry, state, listener, rfl, rfl, step_of_rejected translated⟩
    | ok event =>
      rw [run_bind_of_ok (step_of_translated translated)] at folded
      obtain ⟨k, failed⟩ := ih folded
      exact ⟨k + 1, failsAt_cons translated failed⟩

theorem foldlM_of_failing {lam' : Type} {g : Handler C ε lam' σ} {k : Nat} {reached : σ}
    {first before after : lam'} (found : entries[k]? = some entry)
    (handed : ((entries.take k).foldlM g.step state).run first = (.ok reached, before))
    (failed : (g.step reached entry).run before = (.error rejection, after)) :
    (entries.foldlM g.step state).run first = (.error rejection, after) := by
  obtain ⟨hk, hentry⟩ := List.getElem?_eq_some_iff.mp found
  have hsplit : entries = entries.take k ++ entry :: entries.drop (k + 1) := by
    rw [← hentry, ← List.drop_eq_getElem_cons hk, List.take_append_drop]
  rw [hsplit, List.foldlM_append, run_bind_of_ok handed, List.foldlM_cons,
    run_bind_of_error failed]

theorem FailsAt.foldlM {k : Nat} (failed : FailsAt h entries state listener k rejection left) :
    (entries.foldlM h.step state).run listener = (.error rejection, left) := by
  obtain ⟨entry, reached, mid, found, handed, fails⟩ := failed
  exact foldlM_of_failing found handed fails

theorem FailsAt.traced (traces : Traces h h') {k : Nat}
    (failed : FailsAt h entries state listener k rejection left) :
    ∃ calls reached mid, Handoff h (entries.take k) state listener calls reached mid ∧
      calls.length = k ∧ (entries.foldlM h'.step state).run ⟨listener, []⟩ =
        (.error rejection, ⟨left, calls⟩) := by
  obtain ⟨entry, reached, mid, found, folded, fails⟩ := failed
  obtain ⟨calls, handed⟩ := exists_handoff folded
  have hk : k < entries.length := (List.getElem?_eq_some_iff.mp found).1
  refine ⟨calls, reached, mid, handed, ?_, ?_⟩
  · rw [handed.length_calls, List.length_take]
    omega
  · have htraced := handed.traced traces []
    rw [List.nil_append] at htraced
    exact foldlM_of_failing found htraced
      (step_of_rejected (traces.translate (translate_of_step_error fails)))

theorem singleFold_of_does (traces : Traces h h') {batch : Batch C} {pass : Pass lam σ}
    {traced : Pass (Traced lam ε σ) σ} (hpass : pass.Does (batch.toEntries.foldlM h.step state))
    (htraced : traced.Does (batch.toEntries.foldlM h'.step state)) (stage : Stage lam) :
    SingleFold h batch state stage pass traced where
  fold := hpass stage
  success {last left} result := by
    rw [hpass stage] at result
    obtain ⟨calls, handed⟩ := exists_handoff result
    refine ⟨calls, ?_, handed, ?_, handed.last_eq⟩
    · rw [htraced, handed.traced traces [], List.nil_append]
    · rw [handed.length_calls, batch.length_toEntries]
  rejected {rejection left} := by
    rw [hpass stage]
    constructor
    · exact exists_failsAt
    · rintro ⟨k, failed⟩
      exact failed.foldlM
  stopped {k rejection left} failed := by
    obtain ⟨calls, reached, mid, handed, hlength, hfold⟩ := failed.traced traces
    refine ⟨calls, reached, mid, ?_, handed, hlength⟩
    rw [htraced, hfold]

/-- Each call is that of the record in its place, and a pass that is stopped is so by the record
after those of its calls. -/
structure Told (h : Handler C ε lam σ) (entries : List (Entry C)) (calls : List (Invocation ε σ))
    (result : Except Rejection σ) : Prop where
  made : ∀ {k : Nat} {call : Invocation ε σ}, calls[k]? = some call →
    ∃ entry before mid, entries[k]? = some entry ∧
      (h.translate entry).run before = (.ok call.event, mid)
  whole : ∀ {last}, result = .ok last → calls.length = entries.length
  stopped : ∀ {rejection}, result = .error rejection → ∃ entry before left,
    entries[calls.length]? = some entry ∧
      (h.translate entry).run before = (.error rejection, left)

theorem Handoff.made (handed : Handoff h entries state listener calls last left) {k : Nat}
    {call : Invocation ε σ} (found : calls[k]? = some call) :
    ∃ entry before mid, entries[k]? = some entry ∧
      (h.translate entry).run before = (.ok call.event, mid) := by
  induction handed generalizing k with
  | nil => cases found
  | cons translated own answered others ih =>
    cases k with
    | zero =>
      cases found
      exact ⟨_, _, _, rfl, translated⟩
    | succ k => exact ih found

theorem SingleFold.told {batch : Batch C} {stage : Stage lam} {pass : Pass lam σ}
    {traced : Pass (Traced lam ε σ) σ} (single : SingleFold h batch state stage pass traced) :
    ∃ calls, traced.outcome ⟨⟨stage.listener, []⟩, stage.log⟩ =
        ((pass.outcome stage).1, ⟨(pass.outcome stage).2, calls⟩) ∧
      Told h batch.toEntries calls (pass.outcome stage).1 := by
  rcases ended : pass.outcome stage with ⟨result, left⟩
  cases result with
  | ok last =>
    obtain ⟨calls, htraced, handed, -, -⟩ := single.success ended
    exact ⟨calls, htraced, handed.made, fun _ => handed.length_calls, nofun⟩
  | error rejection =>
    obtain ⟨k, failed⟩ := single.rejected.mp ended
    obtain ⟨calls, reached, mid, htraced, handed, rfl⟩ := single.stopped failed
    obtain ⟨entry, reached', before, found, -, fails⟩ := failed
    refine ⟨calls, htraced, fun hcall => ?_, nofun, fun same => ?_⟩
    · obtain ⟨own, first, after, hown, htranslate⟩ := handed.made hcall
      rw [List.getElem?_take_of_lt (List.getElem?_eq_some_iff.mp hcall).1] at hown
      exact ⟨own, first, after, hown, htranslate⟩
    · cases same
      exact ⟨entry, before, left, found, translate_of_step_error fails⟩

end Handler

end ToxEvents
