import Mathlib.Logic.Function.Basic
import ToxEvents.Proofs.Session.Finality
import ToxEvents.Proofs.Session.Linked
set_option autoImplicit false

namespace ToxEvents

/-- What a callback does, one thing after the other. -/
inductive Deed where
  | runs (label : String) (count : Nat)
  | releases (av : Nat)

def Reaction.deeds : Reaction Nat → List Deed
  | none => []
  | close av => [.releases av]
  | drop av => [.releases av]
  | both first second => first.deeds ++ second.deeds

def Callback.deeds : Callback → List Deed
  | release av => [.releases av]
  | user label count reaction => .runs label (count + 1) :: reaction.deeds

/-- What comes of the deeds, where `alive` has what happens when a session is released. It does so
once. -/
def enact : (Nat → Option Happening) → List Deed → List Happening
  | _, [] => []
  | alive, .runs label count :: later => .ran label count :: enact alive later
  | alive, .releases a :: later => (alive a).toList ++ enact (Function.update alive a none) later

/-- What is alive after the deeds. -/
def exhaust : (Nat → Option Happening) → List Deed → Nat → Option Happening
  | alive, [] => alive
  | alive, .runs .. :: later => exhaust alive later
  | alive, .releases a :: later => exhaust (Function.update alive a none) later

theorem enact_append (alive : Nat → Option Happening) (first second : List Deed) :
    enact alive (first ++ second) = enact alive first ++ enact (exhaust alive first) second := by
  induction first generalizing alive with
  | nil => rfl
  | cons deed later ih =>
    cases deed with
    | runs label count => exact congrArg (.ran label count :: ·) (ih alive)
    | releases a =>
      have hlater := congrArg ((alive a).toList ++ ·) (ih (Function.update alive a none))
      exact hlater.trans (List.append_assoc ..).symm

theorem exhaust_append (alive : Nat → Option Happening) (first second : List Deed) :
    exhaust alive (first ++ second) = exhaust (exhaust alive first) second := by
  induction first generalizing alive with
  | nil => rfl
  | cons deed later ih =>
    cases deed with
    | runs label count => exact ih alive
    | releases a => exact ih (Function.update alive a none)

def AvSession.alive {β : Type} (av : AvSession β) : Option Happening :=
  if av.released then none else some (.released av.backend.id av.backend.label)

namespace Hub

variable {β : Type}

def alive (hub : Hub β) (a : Nat) : Option Happening := hub.avs[a]?.bind AvSession.alive

/-- The registrations are called and the deeds done, and nothing else happens. -/
structure Enacts (called : List Nat) (deeds : List Deed) (before after : Hub β) : Prop where
  invoked : after.invoked.toList = before.invoked.toList ++ called
  happenings : after.happenings.toList = before.happenings.toList ++ enact before.alive deeds
  alive : after.alive = exhaust before.alive deeds

variable {hub left : Hub β} {a : Nat} {i : Nat}

theorem alive_setAv {av av' : AvSession β} (found : hub.avs[a]? = some av) :
    (hub.setAv a av').alive = Function.update hub.alive a av'.alive := by
  have hlt := (List.getElem?_eq_some_iff.mp found).1
  funext b
  by_cases hb : b = a
  · subst b
    rw [Function.update_self]
    change (hub.avs.set a av')[a]?.bind _ = _
    rw [List.getElem?_set_self hlt]
    rfl
  · rw [Function.update_of_ne hb]
    change (hub.avs.set a av')[b]?.bind _ = _
    rw [List.getElem?_set_ne (Ne.symm hb)]
    rfl

theorem alive_setAv_same {av av' : AvSession β} (found : hub.avs[a]? = some av)
    (same : av'.alive = av.alive) : (hub.setAv a av').alive = hub.alive := by
  have halive : hub.alive a = av.alive := by
    unfold Hub.alive
    rw [found]
    rfl
  rw [alive_setAv found, same, ← halive, Function.update_eq_self]

namespace Enacts

theorem nothing (invoked : left.invoked = hub.invoked)
    (happenings : left.happenings = hub.happenings)
    (alive : left.alive = hub.alive) : Enacts [] [] hub left where
  invoked := by rw [invoked, List.append_nil]
  happenings := by rw [happenings]; exact (List.append_nil _).symm
  alive := alive

theorem trans {third : Hub β} {called called' : List Nat} {deeds deeds' : List Deed}
    (first : Enacts called deeds hub left) (second : Enacts called' deeds' left third) :
    Enacts (called ++ called') (deeds ++ deeds') hub third where
  invoked := by rw [second.invoked, first.invoked, List.append_assoc]
  happenings := by
    rw [second.happenings, first.happenings, first.alive, enact_append, List.append_assoc]
  alive := by rw [second.alive, first.alive, exhaust_append]

theorem removeSlot (hub : Hub β) (i slot : Nat) : Enacts [] [] hub (hub.removeSlot i slot) := by
  rcases hub.removeSlot_cases i slot with ⟨core, table, -, hremove⟩ | ⟨records, hremove⟩
  · rw [hremove]
    exact nothing rfl rfl rfl
  · rw [hremove]
    exact nothing rfl rfl rfl

variable [Source β]

theorem releaseAv (hub : Hub β) (a : Nat) : Enacts [] [.releases a] hub (hub.releaseAv a) := by
  rcases hub.av_cases a with ⟨av, opened⟩ | shut
  · have halive : hub.alive a = some (.released av.backend.id av.backend.label) := by
      simp [Hub.alive, AvSession.alive, opened.1, opened.2]
    have hset : (hub.setAv a { av with backend := drained av.backend, released := true }).alive =
        Function.update hub.alive a none := alive_setAv opened.1
    rw [releaseAv_of_open opened]
    exact {
      invoked := (List.append_nil _).symm
      happenings := by
        rw [enact, halive]
        exact toList_witness _
      alive := hset }
  · have halive : hub.alive a = none := by
      unfold Hub.alive
      cases found : hub.avs[a]? with
      | none => rfl
      | some av => simp [AvSession.alive, shut av found]
    rw [releaseAv_of_shut shut]
    exact {
      invoked := (List.append_nil _).symm
      happenings := by
        rw [enact, halive]
        exact (List.append_nil _).symm
      alive := by
        change _ = Function.update hub.alive a none
        rw [← halive, Function.update_eq_self] }

theorem closeAv (hub : Hub β) (a : Nat) : Enacts [] [.releases a] hub (hub.closeAv a) := by
  rcases hub.closeAv_cases a with hclose | ⟨av, slot, found, -, hclose⟩
  · rw [hclose]
    exact releaseAv hub a
  · have hset : Enacts [] [] hub (hub.setAv a { av with slot := none }) :=
      nothing rfl rfl (alive_setAv_same found rfl)
    rw [hclose]
    exact (hset.trans (removeSlot _ av.core slot)).trans (releaseAv _ a)

theorem dropAv (hub : Hub β) (a : Nat) : Enacts [] [.releases a] hub (hub.dropAv a) := by
  rcases hub.dropAv_cases a with hdrop | ⟨av, found, hdrop⟩
  · rw [hdrop]
    exact closeAv hub a
  · have hset : Enacts [] [] hub (hub.setAv a { av with dropped := true }) :=
      nothing rfl rfl (alive_setAv_same found rfl)
    rw [hdrop]
    exact hset.trans (closeAv _ a)

theorem react (hub : Hub β) (reaction : Reaction Nat) :
    Enacts [] reaction.deeds hub (hub.react reaction) := by
  induction reaction generalizing hub with
  | none => exact nothing rfl rfl rfl
  | close a => exact closeAv hub a
  | drop a => exact dropAv hub a
  | both first second ih₁ ih₂ => exact (ih₁ hub).trans (ih₂ _)

theorem call (hub : Hub β) (r : Registration) :
    Enacts [r.id] r.callback.deeds hub (hub.call r).2 := by
  cases hcallback : r.callback with
  | release a =>
    rw [call_of_release hcallback]
    have hinvoked : Enacts [r.id] [] hub { hub with invoked := hub.invoked.push r.id } :=
      ⟨Array.toList_push, (List.append_nil _).symm, rfl⟩
    exact hinvoked.trans (releaseAv _ a)
  | user label count reaction =>
    rw [call_of_user hcallback]
    have hran : Enacts [r.id] [.runs label (count + 1)] hub
        (Hub.witness (.ran label (count + 1)) { hub with invoked := hub.invoked.push r.id }) :=
      ⟨Array.toList_push, toList_witness _, rfl⟩
    exact hran.trans (react _ reaction)

theorem callEach (hub : Hub β) (rs : List Registration) :
    Enacts (rs.map (·.id)) (rs.flatMap (·.callback.deeds)) hub (hub.callEach rs) := by
  induction rs generalizing hub with
  | nil => exact nothing rfl rfl rfl
  | cons r rs ih => exact (call hub r).trans (ih _)

end Enacts

variable [Source β]

/-- An open core session was closed, and with it all that it had. -/
structure Teardown (i : Nat) (core : CoreSession β) (table : SlotTable Registration)
    (hub left : Hub β) : Prop where
  /-- The table is in the order in which registrations were made. -/
  ordered : (table.live.map (·.id)).Pairwise (· < ·)
  /-- They were called in that order, and none of them before or again. -/
  invoked : left.invoked.toList = hub.invoked.toList ++ table.live.map (·.id) ∧
    left.invoked.toList.Nodup
  happenings : left.happenings.toList = hub.happenings.toList ++
    enact hub.alive (table.live.flatMap (·.callback.deeds)) ++
      [.released core.backend.id core.backend.label]
  /-- A callback that asks for the removal of another is not heard. -/
  ignored : ∀ called later, table.live = called ++ later → ∀ slot,
    let during := (hub.detach i core table).callEach called
    during.removeSlot i slot = during.note
      [⟨.debug, .session, s!"Session already closed, ignoring removal of slot {slot}"⟩]
  closed : left.CoreClosed i
  /-- The audio and video sessions that it ever had were released before it, each once. -/
  released : ∀ {a : Nat} {av : AvSession β}, left.avs[a]? = some av → av.core = i →
    av.released = true ∧
    (left.happenings.toList.filterMap Happening.released?).count av.backend.id = 1 ∧
    .released av.backend.id av.backend.label ∈ left.happenings.toList.dropLast

variable {core : CoreSession β} {table : SlotTable Registration}

theorem coreClosed_closeCore (opened : hub.CoreOpen i core table) :
    (hub.closeCore i).CoreClosed i := by
  obtain ⟨core', found, -, -⟩ := Keeps.closing opened table.live
  have hlt := (List.getElem?_eq_some_iff.mp found).1
  rw [closeCore_of_open opened]
  exact coreClosed_iff.mpr ⟨_, List.getElem?_set_self hlt, rfl⟩

theorem removeSlot_during (opened : hub.CoreOpen i core table) (called : List Registration)
    (slot : Nat) :
    ((hub.detach i core table).callEach called).removeSlot i slot =
      ((hub.detach i core table).callEach called).note
        [⟨.debug, .session, s!"Session already closed, ignoring removal of slot {slot}"⟩] := by
  obtain ⟨core', found, -, closed⟩ := Keeps.closing opened called
  unfold removeSlot
  simp only [found, closed]

theorem released_before {before : List Happening} {b c : Nat} {label label' : String}
    (other : b ≠ c) (member : .released b label ∈ before ++ [.released c label']) :
    .released b label ∈ before := by
  refine (List.mem_append.mp member).resolve_right fun last => other ?_
  exact (Happening.released.inj (List.mem_singleton.mp last)).1

theorem teardown_closeCore (sound : Sound none [] hub) (linked : Linked Nobody hub)
    (opened : hub.CoreOpen i core table) : Teardown i core table hub (hub.closeCore i) := by
  have hsound := sound.closeCore i
  have hlinked := linked.closeCore i
  have hclosed := coreClosed_closeCore opened
  have hdetached : Enacts [] [] hub (hub.detach i core table) := .nothing rfl rfl rfl
  have hcalled := hdetached.trans (.callEach _ table.live)
  have hlast : (hub.closeCore i).happenings.toList = hub.happenings.toList ++
      enact hub.alive (table.live.flatMap (·.callback.deeds)) ++
        [.released core.backend.id core.backend.label] := by
    have hhappenings := hcalled.happenings
    rw [closeCore_of_open opened]
    rw [List.nil_append] at hhappenings
    rw [← hhappenings]
    exact toList_witness _
  exact {
    ordered := sound.ordered opened
    invoked := by
      refine ⟨?_, hsound.once.invoked⟩
      rw [closeCore_of_open opened]
      exact hcalled.invoked
    happenings := hlast
    ignored := fun called _ _ slot => removeSlot_during opened called slot
    closed := hclosed
    released := fun {a av} found hcore => by
      -- If it were open, it would be in the table of a core session that is open.
      have hreleased : av.released = true := by
        by_contra hopen
        obtain ⟨-, core', table', opened'⟩ :=
          (hlinked.unreleased ⟨found, Bool.eq_false_iff.mpr hopen⟩).resolve_right id
        have hshut := hclosed.shut core' (hcore ▸ opened'.1)
        rw [opened'.2] at hshut
        cases hshut
      have hmember := hsound.av_released found hreleased
      have hreleases : av.backend.id ∈
          (hub.closeCore i).happenings.toList.filterMap Happening.released? :=
        List.mem_filterMap.mpr ⟨_, hmember, rfl⟩
      obtain ⟨core', found', kept⟩ := (Keeps.closeCore hub i).core opened.1
      have hother : av.backend.id ≠ core.backend.id := by
        rw [← kept.backend.1]
        exact (hsound.core_ne_av found' found).symm
      refine ⟨hreleased, ?_, ?_⟩
      · exact List.count_eq_one_of_mem hsound.once.released hreleases
      · rw [hlast] at hmember ⊢
        rw [List.dropLast_concat]
        exact released_before hother hmember }

end Hub

variable {β lam σ : Type}

/-- The step closes the core session of this name: it says so, lets go of it, or gives its name to
another. -/
def Step.Closes (name : String) : Step β → Prop
  | .closeCore core => core = name
  | .dropCore core => core = name
  | .openCore core _ => core = name
  | _ => False

def Step.begun : Step β → Hub β → Hub β
  | .openCore name source, hub => hub.withCore name source
  | .dropCore core, hub => { hub with coreNames := forget core hub.coreNames }
  | _, hub => hub

namespace Meeting

variable {m : Meeting β lam σ}

/-- To begin is to do nothing to the sessions that there are. -/
theorem begun_ready (sound : m.hub.Sound none []) (linked : m.hub.Linked Hub.Nobody)
    (step : Step β) {i : Nat} {core : CoreSession β} {table : SlotTable Registration}
    (opened : m.hub.CoreOpen i core table) :
    (step.begun m.hub).Sound none [] ∧ (step.begun m.hub).Linked Hub.Nobody ∧
      (step.begun m.hub).CoreOpen i core table := by
  cases step with
  | openCore name source =>
    have hlt := (List.getElem?_eq_some_iff.mp opened.1).1
    have hopen : (m.hub.withCore name source).CoreOpen i core table :=
      ⟨(List.getElem?_append_left hlt).trans opened.1, opened.2⟩
    exact ⟨sound.withCore name source, linked.appendCore _ rfl rfl rfl rfl, hopen⟩
  | dropCore core => exact ⟨{ sound with }, { linked with }, opened⟩
  | _ => exact ⟨sound, linked, opened⟩

variable [Source β] (audience : Audience lam σ)

theorem linked_after (linked : m.hub.Linked Hub.Nobody) {steps : List (Step β)}
    (fair : FairRun audience steps m) : (m.after audience steps).hub.Linked Hub.Nobody := by
  induction steps generalizing m with
  | nil => exact linked
  | cons step steps ih => exact ih (linked.move fair.1 (move_perform audience step m)) fair.2

theorem perform_closes {step : Step β} {name : String} {i : Nat} (closes : step.Closes name)
    (named : m.hub.core? name = some i) :
    (m.perform audience step).2.hub = (step.begun m.hub).closeCore i := by
  cases step with
  | closeCore core =>
    obtain rfl : core = name := closes
    simp only [perform, withCore, named, Step.begun]
  | dropCore core =>
    obtain rfl : core = name := closes
    simp only [perform, withCore, named, Step.begun]
  | openCore core source =>
    obtain rfl : core = name := closes
    simp only [perform, Step.begun, Hub.openCore_eq, named, Option.elim]
  | _ => cases closes

/-- The meeting can come about with every handle given to its own session. -/
def Reached (audience : Audience lam σ) (m : Meeting β lam σ) : Prop :=
  ∃ (steps : List (Step β)) (listener : lam) (state : σ),
    FairRun audience steps { listener, state } ∧ m = after audience steps { listener, state }

theorem fairRun_append {steps later : List (Step β)} :
    FairRun audience (steps ++ later) m ↔
      FairRun audience steps m ∧ FairRun audience later (m.after audience steps) := by
  induction steps generalizing m with
  | nil => exact ⟨fun fair => ⟨trivial, fair⟩, And.right⟩
  | cons step steps ih => exact (and_congr_right fun _ => ih).trans and_assoc.symm

variable {audience} in
theorem Reached.perform (reached : m.Reached audience) (step : Step β) (fair : m.Fair step) :
    (m.perform audience step).2.Reached audience := by
  obtain ⟨steps, listener, state, fairRun, rfl⟩ := reached
  refine ⟨steps ++ [step], listener, state, ?_, ?_⟩
  · exact (fairRun_append audience).mpr ⟨fairRun, fair, trivial⟩
  · rw [after, after, List.foldl_append]
    rfl

variable {audience} in
/-- An open core session can be given any callback, whatever it does to sessions that there are or
will be. -/
theorem Reached.addCallback (reached : m.Reached audience) {name : String} {i : Nat}
    {core : CoreSession β} {table : SlotTable Registration} (named : m.hub.core? name = some i)
    (opened : m.hub.CoreOpen i core table) (label : String) (reaction : Reaction Nat) :
    ∃ left : Meeting β lam σ, left.Reached audience ∧ ∃ core' table',
      left.hub.CoreOpen i core' table' ∧
      table'.live = table.live ++ [⟨m.hub.registrations, .user label 0 reaction⟩] := by
  obtain ⟨asked, hasked⟩ := m.hub.exists_aim_target reaction
  have hlt := (List.getElem?_eq_some_iff.mp opened.1).1
  refine ⟨_, reached.perform (.addCallback name label asked) trivial, ?_⟩
  simp only [Meeting.perform, withCore, named, Meeting.addCallback, hasked,
    Hub.addCallback_of_open opened]
  exact ⟨_, _, ⟨List.getElem?_set_self hlt, rfl⟩, by simp [SlotTable.live, SlotTable.add]⟩

/-- Whatever closes an open core session tears down all that it has, in order. -/
theorem teardown_of_reached (reached : m.Reached audience) {step : Step β} {name : String} {i : Nat}
    {core : CoreSession β} {table : SlotTable Registration} (closes : step.Closes name)
    (named : m.hub.core? name = some i) (opened : m.hub.CoreOpen i core table) :
    Hub.Teardown i core table (step.begun m.hub) (m.perform audience step).2.hub := by
  obtain ⟨steps, listener, state, fair, rfl⟩ := reached
  have hsound : (after audience steps { listener, state }).hub.Sound none [] :=
    sound_after audience .start steps
  have hlinked := linked_after audience .start fair
  obtain ⟨hsound, hlinked, hopen⟩ := begun_ready hsound hlinked step opened
  rw [perform_closes audience closes named]
  exact Hub.teardown_closeCore hsound hlinked hopen

/-- A slot is emptied and a session closed before. Then the first callback closes the third session,
which was opened after it was added and whose own callback comes later; that one finds nothing to
release. -/
theorem teardown_of_reached_callback :
    let audience : Audience Transcript UInt32 :=
      ⟨Transcript.coreListener fun _ => true, Transcript.avListener (fun _ => true) true⟩
    let steps : List (Step Script) :=
      [.openCore "core" {}, .addCallback "core" "early" (.close (.numbered 2)),
        .addCallback "core" "gone" .none, .openAv "first" "core" {}, .openAv "second" "core" {},
        .removeCallback "core" "gone", .closeAv "second", .openAv "third" "core" {},
        .addCallback "core" "late" (.drop "first"), .openAv "fourth" "core" {}]
    let m : Meeting Script Transcript UInt32 := after audience steps { listener := {}, state := 0 }
    let step : Step Script := .dropCore "core"
    m.Reached audience ∧ m.hub.core? "core" = some 0 ∧
      (m.perform audience step).2.hub.happenings = #[.released 2 "second", .ran "early" 1,
        .released 3 "third", .released 1 "first", .ran "late" 1, .released 4 "fourth",
        .released 0 "core"] ∧
      ∃ core table, m.hub.CoreOpen 0 core table ∧
        Hub.Teardown 0 core table (step.begun m.hub) (m.perform audience step).2.hub := by
  intro audience steps m step
  have fair : FairRun audience steps
      ({ listener := {}, state := 0 } : Meeting Script Transcript UInt32) := by decide +kernel
  have reached : m.Reached audience := ⟨steps, {}, 0, fair, rfl⟩
  have named : m.hub.core? "core" = some 0 := by decide +kernel
  have hopen : m.hub.isClosed 0 = false := by decide +kernel
  obtain ⟨core, table, opened⟩ := Hub.exists_coreOpen hopen
  have closes : step.Closes "core" := rfl
  exact ⟨reached, named, by decide +kernel, core, table, opened,
    teardown_of_reached audience reached closes named opened⟩

end Meeting

end ToxEvents
