import ToxEvents.Batch.Surfaces
import ToxEvents.Event.Rejection
import ToxEvents.Log
set_option autoImplicit false

/-!
# Delivering a batch

A pass takes a batch and the caller's state, visits the categories in order and hands each record
to `deliver` together with the state that the record before it returned. It stops at the first
rejection; what listeners did until then stays done.
-/
namespace ToxEvents
open Wire

/-- What a pass can change besides the state it threads: the listener itself and the log. -/
structure Stage (lam : Type) where
  listener : lam
  log : Log := #[]

/-- A computation that may be rejected; the stage keeps what happened before. -/
abbrev Pass (lam : Type) := ExceptT Rejection (StateM (Stage lam))

namespace Pass

variable {lam : Type}

def note (level : Level) (topic : Topic) (text : String) : Pass lam Unit :=
  modify fun stage => { stage with log := stage.log.push ⟨level, topic, text⟩ }

def reject {α : Type} (rejection : Rejection) : Pass lam α := throw rejection

def accept {α : Type} : Except Rejection α → Pass lam α
  | .ok a => pure a
  | .error rejection => reject rejection

def act {α : Type} (action : StateM lam α) : Pass lam α := do
  let stage ← get
  let (a, listener) := action stage.listener
  set { stage with listener }
  return a

end Pass

section
variable {C : Type} [DecidableEq C] [Surface C] {lam σ : Type}

def deliverCategory (deliver : (c : C) → Surface.Rec c → σ → Pass lam σ) (c : C)
    (records : List (Surface.Rec c)) (state : σ) : Pass lam σ := do
  if ¬ records.isEmpty then
    Pass.note .trace .delivery s!"Dispatching {records.length} {Surface.name c} record(s)"
  records.foldlM (fun state record => deliver c record state) state

def deliverBatch (deliver : (c : C) → Surface.Rec c → σ → Pass lam σ) (batch : Batch C)
    (state : σ) : Pass lam σ :=
  Surface.visit (fun c => deliverCategory deliver c (batch c)) state

end

end ToxEvents
