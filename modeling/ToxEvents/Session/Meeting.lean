import ToxEvents.Session.Hub
set_option autoImplicit false

namespace ToxEvents
open Wire

structure Audience (lam σ : Type) where
  core : CoreListener lam σ
  av : AvListener lam σ

structure Meeting (β lam σ : Type) where
  hub : Hub β := {}
  listener : lam
  state : σ

inductive Step (β : Type) where
  | openCore (core : String) (source : β)
  | openAv (av core : String) (source : β)
  | tickCore (core : String)
  | tickAv (av : String)
  | closeCore (core : String)
  | closeAv (av : String)
  | dropCore (core : String)
  | dropAv (av : String)
  | addCallback (core label : String) (reaction : Reaction Target)
  | removeCallback (core label : String)
  | changeCall (av : String) (friend : FriendNumber) (flags : CallFlags)

inductive Outcome (σ : Type) where
  | done
  | slot (n : Nat)
  /-- There is no handle of that name, or it has been used. -/
  | noHandle
  | unknown
  | rejected (rejection : Rejection)
  | received (state : σ)
  | stopped (rejection : Rejection)

inductive Standing where
  | opened
  | closed
  | dropped
deriving DecidableEq, Repr

namespace Meeting

variable {β lam σ : Type} [Source β]

/-- Delivers what a tick brought. The state changes only if the whole batch is accepted. -/
def receive (pass : Option Bytes → σ → Pass lam σ) (tick : Except Rejection (Option Bytes) × Hub β)
    (m : Meeting β lam σ) : Outcome σ × Meeting β lam σ :=
  match tick with
  | (.error rejection, hub) => (.stopped rejection, { m with hub })
  | (.ok batch, hub) =>
    let (result, stage) := (pass batch m.state).run { listener := m.listener, log := hub.log }
    let hub := { hub with log := stage.log }
    match result with
    | .ok state => (.received state, { hub, listener := stage.listener, state })
    | .error rejection => (.stopped rejection, { m with hub, listener := stage.listener })

def withCore (name : String) (m : Meeting β lam σ)
    (act : Nat → Outcome σ × Meeting β lam σ) : Outcome σ × Meeting β lam σ :=
  match m.hub.core? name with
  | some id => act id
  | none => (.unknown, m)

def withAv (name : String) (m : Meeting β lam σ)
    (act : Nat → Outcome σ × Meeting β lam σ) : Outcome σ × Meeting β lam σ :=
  match m.hub.av? name with
  | some id => act id
  | none => (.unknown, m)

def outcome {α : Type} (result : Except Rejection α × Hub β) (succeed : α → Outcome σ)
    (m : Meeting β lam σ) : Outcome σ × Meeting β lam σ :=
  match result with
  | (.ok a, hub) => (succeed a, { m with hub })
  | (.error rejection, hub) => (.rejected rejection, { m with hub })

/-- Adds a callback. Of the sessions that it reacts to, one that is named is the one that has the
name now; one that is numbered is the one that has the number when the callback runs. -/
def addCallback (core : Nat) (label : String) (reaction : Reaction Target)
    (m : Meeting β lam σ) : Outcome σ × Meeting β lam σ :=
  match m.hub.addCallback core (.user label 0 (reaction.aim m.hub.target?)) with
  | (.error rejection, hub) => (.rejected rejection, { m with hub })
  | (.ok handle, hub) =>
    (.slot handle.slot, { m with hub := { hub with handles := rename label handle hub.handles } })

def removeCallback (core : Nat) (label : String) (m : Meeting β lam σ) :
    Outcome σ × Meeting β lam σ :=
  match m.hub.handles.lookup label with
  | none => (.noHandle, m)
  | some handle =>
    let hub := { m.hub with handles := forget label m.hub.handles }
    (.done, { m with hub := hub.removeSlot core handle.slot })

def perform (audience : Audience lam σ) (step : Step β) (m : Meeting β lam σ) :
    Outcome σ × Meeting β lam σ :=
  match step with
  | .openCore core source => (.done, { m with hub := m.hub.openCore core source })
  | .openAv av core source =>
    m.withCore core fun id => m.outcome (m.hub.openAv av id source) fun _ => .done
  | .tickCore core => m.withCore core fun id => m.receive audience.core.receive (m.hub.tickCore id)
  | .tickAv av => m.withAv av fun id => m.receive audience.av.receive (m.hub.tickAv id)
  | .closeCore core => m.withCore core fun id => (.done, { m with hub := m.hub.closeCore id })
  | .closeAv av => m.withAv av fun id => (.done, { m with hub := m.hub.closeAv id })
  | .dropCore core =>
    m.withCore core fun id =>
      let hub := { m.hub with coreNames := forget core m.hub.coreNames }
      (.done, { m with hub := hub.closeCore id })
  | .dropAv av => m.withAv av fun id => (.done, { m with hub := m.hub.dropAv id })
  | .addCallback core label reaction => m.withCore core fun id => m.addCallback id label reaction
  | .removeCallback core label => m.withCore core fun id => m.removeCallback id label
  | .changeCall av friend flags =>
    m.withAv av fun id => m.outcome (m.hub.changeCall id friend flags) fun _ => .done

def standings (m : Meeting β lam σ) : List (String × Standing) :=
  m.hub.coreNames.map (fun (name, id) =>
      (name, if m.hub.isClosed id then .closed else .opened))
    ++ m.hub.avNames.map fun (name, id) =>
      (name, match m.hub.avs[id]? with
        | none => .dropped
        | some session =>
          if session.dropped then .dropped else if session.released then .closed else .opened)

def news (m : Meeting β lam σ) : Array Happening × Log × Meeting β lam σ :=
  (m.hub.happenings, m.hub.log, { m with hub := { m.hub with happenings := #[], log := #[] } })

end Meeting

end ToxEvents
