import ToxEvents.Proofs.Session.Tables
import ToxEvents.Proofs.Session.Teardown
set_option autoImplicit false

namespace ToxEvents

variable {β lam σ : Type}

theorem count_filterMap_set {α : Type} {l : List α} {i : Nat} {x : α} (found : l[i]? = some x)
    (f : α → Option Nat) (y : α) (b : Nat) :
    ((l.set i y).filterMap f).count b + (f x).toList.count b =
      (l.filterMap f).count b + (f y).toList.count b := by
  obtain ⟨before, after, hl, hset⟩ := exists_split found
  rw [hset, hl, List.filterMap_append, List.filterMap_append, List.count_append, List.count_append,
    List.filterMap_cons, List.filterMap_cons]
  cases f x <;> cases f y <;> simp [List.count_cons] <;> omega

def CoreSession.held? (core : CoreSession β) : Option Nat :=
  if core.onClose.isSome then some core.backend.id else none

def AvSession.held? (av : AvSession β) : Option Nat :=
  if av.released then none else some av.backend.id

namespace Hub

variable {hub left : Hub β} {i a : Nat} {due turned : List Nat}

def releases (hub : Hub β) : List Nat := hub.happenings.toList.filterMap Happening.released?

def held (hub : Hub β) : List Nat :=
  hub.cores.filterMap CoreSession.held? ++ hub.avs.filterMap AvSession.held?

def AllClosed (hub : Hub β) : Prop :=
  (∀ i < hub.cores.length, hub.CoreClosed i) ∧ ∀ a < hub.avs.length, hub.AvClosed a

instance (hub : Hub β) : Decidable hub.AllClosed := inferInstanceAs (Decidable (_ ∧ _))

/-- Each backend that was handed in has been released, is about to be (`due`), is held, or was
turned away. -/
def Balanced (due turned : List Nat) (hub : Hub β) : Prop :=
  ∀ b, hub.releases.count b + due.count b + hub.held.count b + turned.count b =
    if b < hub.backends then 1 else 0

theorem AllClosed.held_eq_nil (closed : hub.AllClosed) : hub.held = [] := by
  have hcores : hub.cores.filterMap CoreSession.held? = [] := by
    refine List.filterMap_eq_nil_iff.mpr fun core member => ?_
    obtain ⟨i, found⟩ := List.mem_iff_getElem?.mp member
    have hnone := (closed.1 i (List.getElem?_eq_some_iff.mp found).1).shut core found
    simp [CoreSession.held?, hnone]
  have havs : hub.avs.filterMap AvSession.held? = [] := by
    refine List.filterMap_eq_nil_iff.mpr fun av member => ?_
    obtain ⟨a, found⟩ := List.mem_iff_getElem?.mp member
    have hreleased := (closed.2 a (List.getElem?_eq_some_iff.mp found).1).shut av found
    simp [AvSession.held?, hreleased]
  unfold held
  rw [hcores, havs]
  rfl

theorem releases_witness (h : Happening) :
    (hub.witness h).releases = hub.releases ++ h.released?.toList := by
  unfold releases
  rw [toList_witness, List.filterMap_append]
  cases hb : h.released? <;> simp [hb]

theorem count_held_setAv {av : AvSession β} (found : hub.avs[a]? = some av) (av' : AvSession β)
    (b : Nat) : (hub.setAv a av').held.count b + av.held?.toList.count b =
      hub.held.count b + av'.held?.toList.count b := by
  have hset := count_filterMap_set found AvSession.held? av' b
  change (hub.cores.filterMap _ ++ (hub.avs.set a av').filterMap _).count b + _ = _
  unfold held
  rw [List.count_append, List.count_append]
  omega

theorem count_held_setCore {core : CoreSession β} (found : hub.cores[i]? = some core)
    (core' : CoreSession β) (b : Nat) :
    (hub.setCore i core').held.count b + core.held?.toList.count b =
      hub.held.count b + core'.held?.toList.count b := by
  have hset := count_filterMap_set found CoreSession.held? core' b
  change ((hub.cores.set i core').filterMap _ ++ hub.avs.filterMap _).count b + _ = _
  unfold held
  rw [List.count_append, List.count_append]
  omega

namespace Balanced

theorem start : Balanced [] [] ({} : Hub β) := fun b => by simp [releases, held]

theorem perm (balanced : Balanced [] turned hub) :
    (hub.releases ++ hub.held ++ turned).Perm (List.range hub.backends) := by
  refine List.perm_iff_count.mpr fun b => ?_
  have hb := balanced b
  rw [List.nodup_range.count, List.count_append, List.count_append]
  simpa using hb

theorem count_releases (balanced : Balanced [] turned hub) (closed : hub.AllClosed) {b : Nat}
    (handed : b < hub.backends) : hub.releases.count b = if b ∈ turned then 0 else 1 := by
  have hb := balanced b
  rw [closed.held_eq_nil, if_pos handed] at hb
  simp only [List.count_nil, Nat.add_zero] at hb
  split
  case isTrue member =>
    have hpos := List.count_pos_iff.mpr member
    omega
  case isFalse absent =>
    have hzero := List.count_eq_zero.mpr absent
    omega

theorem setAv (balanced : Balanced due turned hub) {av av' : AvSession β}
    (found : hub.avs[a]? = some av) {due' : List Nat}
    (moved : ∀ b, av'.held?.toList.count b + due'.count b =
      av.held?.toList.count b + due.count b) : Balanced due' turned (hub.setAv a av') := by
  intro b
  have hset := count_held_setAv found av' b
  have hb := balanced b
  have hmoved := moved b
  change hub.releases.count b + _ + _ + _ = if b < hub.backends then 1 else 0
  omega

theorem setAv_same (balanced : Balanced due turned hub) {av av' : AvSession β}
    (found : hub.avs[a]? = some av) (same : av'.held? = av.held?) :
    Balanced due turned (hub.setAv a av') :=
  balanced.setAv found fun b => by rw [same]

theorem setCore (balanced : Balanced due turned hub) {core core' : CoreSession β}
    (found : hub.cores[i]? = some core) {due' : List Nat}
    (moved : ∀ b, core'.held?.toList.count b + due'.count b =
      core.held?.toList.count b + due.count b) : Balanced due' turned (hub.setCore i core') := by
  intro b
  have hset := count_held_setCore found core' b
  have hb := balanced b
  have hmoved := moved b
  change hub.releases.count b + _ + _ + _ = if b < hub.backends then 1 else 0
  omega

theorem setCore_same (balanced : Balanced due turned hub) {core core' : CoreSession β}
    (found : hub.cores[i]? = some core) (same : core'.held? = core.held?) :
    Balanced due turned (hub.setCore i core') :=
  balanced.setCore found fun b => by rw [same]

theorem removeSlot (balanced : Balanced due turned hub) (i slot : Nat) :
    Balanced due turned (hub.removeSlot i slot) := by
  rcases hub.removeSlot_cases i slot with ⟨core, table, opened, hremove⟩ | ⟨records, hremove⟩
  · rw [hremove]
    refine balanced.setCore_same opened.1 ?_
    simp [CoreSession.held?, opened.2]
  · rw [hremove]
    exact balanced

theorem register (balanced : Balanced due turned hub) {core : CoreSession β}
    {table : SlotTable Registration} (opened : hub.CoreOpen i core table) (callback : Callback) :
    Balanced due turned (hub.register core table i callback) := by
  have hnumbered : Balanced due turned { hub with registrations := hub.registrations + 1 } :=
    balanced
  refine hnumbered.setCore_same opened.1 ?_
  simp [CoreSession.held?, opened.2]

theorem detach (balanced : Balanced [] turned hub) {core : CoreSession β}
    {table : SlotTable Registration} (opened : hub.CoreOpen i core table) :
    Balanced [core.backend.id] turned (hub.detach i core table) := by
  refine balanced.setCore opened.1 fun b => ?_
  simp [CoreSession.held?, opened.2]

theorem issue (balanced : Balanced due turned hub) {turned' : List Nat}
    (releases : left.releases = hub.releases) (backends : left.backends = hub.backends + 1)
    (somewhere : ∀ b, left.held.count b + turned'.count b =
      hub.held.count b + turned.count b + [hub.backends].count b) : Balanced due turned' left := by
  intro b
  have hb := balanced b
  have hsomewhere := somewhere b
  rw [releases, backends]
  rw [List.count_singleton] at hsomewhere
  simp only [beq_iff_eq] at hsomewhere
  -- The backends so far are the numbers below `hub.backends`, so the new one is none of them.
  split at hb <;> split at hsomewhere <;> split <;> omega

theorem withCore (balanced : Balanced due turned hub) (name : String) (source : β) :
    Balanced due turned (hub.withCore name source) := by
  have hheld : (hub.withCore name source).held = hub.cores.filterMap CoreSession.held? ++
      [hub.backends] ++ hub.avs.filterMap AvSession.held? := by
    change (hub.cores ++ _).filterMap _ ++ hub.avs.filterMap _ = _
    rw [List.filterMap_append]
    rfl
  refine balanced.issue rfl rfl fun b => ?_
  rw [hheld]
  unfold held
  simp only [List.count_append]
  omega

theorem withAv (balanced : Balanced due turned hub) {core : CoreSession β}
    {table : SlotTable Registration} (opened : hub.CoreOpen i core table) (name : String)
    (source : β) : Balanced due turned (hub.withAv name core table i source) := by
  have hregistered := balanced.register opened (.release hub.avs.length)
  have hheld : (hub.withAv name core table i source).held =
      (hub.register core table i (.release hub.avs.length)).held ++ [hub.backends] := by
    change (hub.register core table i _).cores.filterMap _ ++ (hub.avs ++ _).filterMap _ = _
    rw [List.filterMap_append, ← List.append_assoc]
    rfl
  refine hregistered.issue rfl rfl fun b => ?_
  rw [hheld, List.count_append]
  change _ = _ + _ + [hub.backends].count b
  omega

theorem turnAway (balanced : Balanced due turned hub) :
    Balanced due (turned ++ [hub.backends]) { hub with backends := hub.backends + 1 } := by
  refine balanced.issue rfl rfl fun b => ?_
  rw [List.count_append, ← Nat.add_assoc]
  rfl

/-- A backend that was due is released. -/
theorem release {b : Nat} (balanced : Balanced (b :: due) turned hub) (label : String) :
    Balanced due turned (hub.witness (.released b label)) := by
  intro n
  have hn := balanced n
  have hreleases : (hub.witness (.released b label)).releases = hub.releases ++ [b] :=
    releases_witness _
  rw [List.count_cons] at hn
  rw [hreleases, List.count_append]
  change _ + [b].count n + _ + hub.held.count n + _ = if n < hub.backends then 1 else 0
  rw [List.count_singleton]
  omega

theorem witness (balanced : Balanced due turned hub) {h : Happening} (other : h.released? = none) :
    Balanced due turned (hub.witness h) := by
  intro b
  have hreleases : (hub.witness h).releases = hub.releases := by
    rw [releases_witness, other]
    exact List.append_nil _
  rw [hreleases]
  exact balanced b

variable [Source β]

theorem releaseAv (balanced : Balanced due turned hub) (a : Nat) :
    Balanced due turned (hub.releaseAv a) := by
  rcases hub.av_cases a with ⟨av, opened⟩ | shut
  · have hset : Balanced (av.backend.id :: due) turned
        (hub.setAv a { av with backend := drained av.backend, released := true }) := by
      refine balanced.setAv opened.1 fun b => ?_
      simp [AvSession.held?, opened.2, List.count_cons]
      omega
    rw [releaseAv_of_open opened]
    exact hset.release av.backend.label
  · rw [releaseAv_of_shut shut]
    exact balanced

theorem closeAv (balanced : Balanced due turned hub) (a : Nat) :
    Balanced due turned (hub.closeAv a) := by
  rcases hub.closeAv_cases a with hclose | ⟨av, slot, found, -, hclose⟩
  · rw [hclose]
    exact balanced.releaseAv a
  · have hset : Balanced due turned (hub.setAv a { av with slot := none }) :=
      balanced.setAv_same found rfl
    rw [hclose]
    exact (hset.removeSlot av.core slot).releaseAv a

theorem dropAv (balanced : Balanced due turned hub) (a : Nat) :
    Balanced due turned (hub.dropAv a) := by
  rcases hub.dropAv_cases a with hdrop | ⟨av, found, hdrop⟩
  · rw [hdrop]
    exact balanced.closeAv a
  · have hset : Balanced due turned (hub.setAv a { av with dropped := true }) :=
      balanced.setAv_same found rfl
    rw [hdrop]
    exact hset.closeAv a

theorem react (balanced : Balanced due turned hub) (reaction : Reaction Nat) :
    Balanced due turned (hub.react reaction) := by
  refine react_of ?_ ?_ reaction balanced
  · intro hub a balanced
    exact balanced.closeAv a
  · intro hub a balanced
    exact balanced.dropAv a

theorem call (balanced : Balanced due turned hub) (r : Registration) :
    Balanced due turned (hub.call r).2 := by
  have hinvoked : Balanced due turned { hub with invoked := hub.invoked.push r.id } := balanced
  cases hcallback : r.callback with
  | release a =>
    rw [call_of_release hcallback]
    exact hinvoked.releaseAv a
  | user label count reaction =>
    rw [call_of_user hcallback]
    exact (hinvoked.witness rfl).react reaction

theorem callEach (balanced : Balanced due turned hub) (rs : List Registration) :
    Balanced due turned (hub.callEach rs) := by
  induction rs generalizing hub with
  | nil => exact balanced
  | cons r rs ih => exact ih (balanced.call r)

theorem closeCore (balanced : Balanced [] turned hub) (i : Nat) :
    Balanced [] turned (hub.closeCore i) := by
  rcases hub.core_cases i with ⟨core, table, opened⟩ | shut
  · obtain ⟨core', found, -, closed⟩ := Keeps.closing opened table.live
    -- The backend stays due while the callbacks run, whatever they close.
    have hreleased := ((balanced.detach opened).callEach table.live).release core.backend.label
    rw [closeCore_of_open opened]
    refine hreleased.setCore_same found ?_
    simp [CoreSession.held?, closed]
  · rw [closeCore_of_shut shut]
    exact balanced

theorem openCore (balanced : Balanced [] turned hub) (name : String) (source : β) :
    Balanced [] turned (hub.openCore name source) := by
  rw [openCore_eq]
  cases hub.core? name with
  | none => exact balanced.withCore name source
  | some old => exact (balanced.withCore name source).closeCore old

theorem openAv {core : CoreSession β} {table : SlotTable Registration}
    (balanced : Balanced due turned hub) (opened : hub.CoreOpen i core table) (name : String)
    (source : β) : Balanced due turned (hub.openAv name i source).2 := by
  rw [openAv_of_open opened]
  cases hub.av? name with
  | none => exact balanced.withAv opened name source
  | some old => exact (balanced.withAv opened name source).dropAv old

theorem tickCore (balanced : Balanced due turned hub) (i : Nat) :
    Balanced due turned (hub.tickCore i).2 := by
  rcases hub.core_cases i with ⟨core, table, opened⟩ | shut
  · have hticked : Balanced due turned (hub.witness (.ticked core.backend.id core.backend.label)) :=
      balanced.witness rfl
    rw [tickCore_of_open opened]
    exact hticked.setCore_same opened.1 rfl
  · rw [tickCore_of_shut shut]
    exact balanced

theorem tickAv (balanced : Balanced due turned hub) (a : Nat) :
    Balanced due turned (hub.tickAv a).2 := by
  rcases hub.av_cases a with ⟨av, opened⟩ | shut
  · have hticked : Balanced due turned (hub.witness (.ticked av.backend.id av.backend.label)) :=
      balanced.witness rfl
    rw [tickAv_of_open opened]
    exact hticked.setAv_same opened.1 rfl
  · rw [tickAv_of_shut shut]
    exact balanced

theorem changeCall (balanced : Balanced due turned hub) (a : Nat) (friend : FriendNumber)
    (flags : CallFlags) : Balanced due turned (hub.changeCall a friend flags).2 := by
  rcases hub.av_cases a with ⟨av, opened⟩ | shut
  · have hchanged : Balanced due turned
        (hub.witness (.callChanged av.backend.id av.backend.label friend flags.mask)) :=
      balanced.witness rfl
    have hset : Balanced due turned
        ((hub.witness (.callChanged av.backend.id av.backend.label friend flags.mask)).setAv a
          { av with backend := { av.backend with
              source := (Source.changeCall friend flags.mask av.backend.source).2 } }) :=
      hchanged.setAv_same opened.1 rfl
    rw [changeCall_of_open opened]
    exact hset
  · rw [changeCall_of_shut shut]
    exact balanced

end Balanced

end Hub

def Step.ClosesAv (name : String) : Step β → Prop
  | .closeAv av => av = name
  | .dropAv av => av = name
  | _ => False

namespace Meeting

variable {m : Meeting β lam σ} {turned : List Nat}

theorem balanced_addCallback (balanced : m.hub.Balanced [] turned) (i : Nat) (label : String)
    (reaction : Reaction Target) : (m.addCallback i label reaction).2.hub.Balanced [] turned := by
  unfold addCallback
  rcases m.hub.core_cases i with ⟨core, table, opened⟩ | shut
  · rw [Hub.addCallback_of_open opened]
    exact balanced.register opened _
  · rw [Hub.addCallback_of_shut shut]
    exact balanced

theorem balanced_removeCallback (balanced : m.hub.Balanced [] turned) (i : Nat) (label : String) :
    (m.removeCallback i label).2.hub.Balanced [] turned := by
  unfold removeCallback
  cases m.hub.handles.lookup label with
  | none => exact balanced
  | some handle =>
    have hforgotten : Hub.Balanced [] turned
        { m.hub with handles := forget label m.hub.handles } := balanced
    exact hforgotten.removeSlot i handle.slot

variable [Source β] (audience : Audience lam σ)

/-- The backend that a step hands in for nothing, because the core session has closed. -/
def refused (step : Step β) (m : Meeting β lam σ) : Option Nat :=
  match step, (m.perform audience step).1 with
  | .openAv .., .rejected .sessionClosed => some m.hub.backends
  | _, _ => none

def turnedAway : List (Step β) → Meeting β lam σ → List Nat
  | [], _ => []
  | step :: later, m =>
    (m.refused audience step).toList ++ turnedAway later (m.perform audience step).2

theorem balanced_openAv (balanced : m.hub.Balanced [] turned) (name core : String) (source : β) :
    let step : Step β := .openAv name core source
    (m.perform audience step).2.hub.Balanced [] (turned ++ (m.refused audience step).toList) := by
  intro step
  cases named : m.hub.core? core with
  | none =>
    have hperform : m.perform audience step = (.unknown, m) := by
      simp only [step, perform, withCore, named]
    simp only [refused, step, hperform, Option.toList_none, List.append_nil]
    exact balanced
  | some i =>
    rcases m.hub.core_cases i with ⟨session, table, opened⟩ | shut
    · have hopened := balanced.openAv opened name source
      have hperform : m.perform audience step =
          (.done, { m with hub := (m.hub.openAv name i source).2 }) := by
        simp only [step, perform, withCore, named, outcome, Hub.openAv_of_open opened]
      simp only [refused, step, hperform, Option.toList_none, List.append_nil]
      exact hopened
    · have hperform : m.perform audience step = (.rejected .sessionClosed,
          { m with hub := { m.hub with backends := m.hub.backends + 1 } }) := by
        simp only [step, perform, withCore, named, outcome, Hub.openAv_of_shut shut]
      simp only [refused, step, hperform]
      exact balanced.turnAway

theorem balanced_perform (balanced : m.hub.Balanced [] turned) (step : Step β) :
    (m.perform audience step).2.hub.Balanced [] (turned ++ (m.refused audience step).toList) := by
  by_cases hopens : ∃ name core source, step = .openAv name core source
  · obtain ⟨name, core, source, rfl⟩ := hopens
    exact balanced_openAv audience balanced name core source
  -- No other step turns a backend away.
  have hrefused : m.refused audience step = none := by
    cases step with
    | openAv name core source => exact absurd ⟨name, core, source, rfl⟩ hopens
    | _ => rfl
  rw [hrefused, Option.toList_none, List.append_nil]
  cases step with
  | openCore name source => exact balanced.openCore name source
  | openAv name core source => exact absurd ⟨name, core, source, rfl⟩ hopens
  | tickCore core =>
    refine withCore_of balanced fun i _ => ?_
    obtain ⟨log, hlog⟩ := m.receive_hub audience.core.receive (m.hub.tickCore i)
    rw [hlog]
    exact balanced.tickCore i
  | tickAv av =>
    refine withAv_of balanced fun a => ?_
    obtain ⟨log, hlog⟩ := m.receive_hub audience.av.receive (m.hub.tickAv a)
    rw [hlog]
    exact balanced.tickAv a
  | closeCore core => exact withCore_of balanced fun i _ => balanced.closeCore i
  | closeAv av => exact withAv_of balanced fun a => balanced.closeAv a
  | dropCore core =>
    have hforgotten : Hub.Balanced [] turned
        { m.hub with coreNames := forget core m.hub.coreNames } := balanced
    exact withCore_of balanced fun i _ => hforgotten.closeCore i
  | dropAv av => exact withAv_of balanced fun a => balanced.dropAv a
  | addCallback core label reaction =>
    exact withCore_of balanced fun i _ => balanced_addCallback balanced i label reaction
  | removeCallback core label =>
    exact withCore_of balanced fun i _ => balanced_removeCallback balanced i label
  | changeCall av friend flags =>
    refine withAv_of balanced fun a => ?_
    rw [outcome_hub]
    exact balanced.changeCall a friend flags

theorem balanced_after (balanced : m.hub.Balanced [] turned) (steps : List (Step β)) :
    (m.after audience steps).hub.Balanced [] (turned ++ turnedAway audience steps m) := by
  induction steps generalizing m turned with
  | nil =>
    change m.hub.Balanced [] (turned ++ [])
    rwa [List.append_nil]
  | cons step steps ih =>
    have hstep := ih (balanced_perform audience balanced step)
    rw [List.append_assoc] at hstep
    exact hstep

theorem coreClosed_perform {step : Step β} {name : String} {i : Nat} (closes : step.Closes name)
    (named : m.hub.core? name = some i) (hlt : i < m.hub.cores.length) :
    (m.perform audience step).2.hub.CoreClosed i := by
  have hbegun : i < (step.begun m.hub).cores.length := by
    cases step with
    | openCore core source =>
      change i < (m.hub.cores ++ _).length
      rw [List.length_append]
      exact Nat.lt_add_right _ hlt
    | _ => exact hlt
  rw [perform_closes audience closes named]
  rcases (step.begun m.hub).core_cases i with ⟨core, table, opened⟩ | shut
  · exact Hub.coreClosed_closeCore opened
  · have found := List.getElem?_eq_getElem hbegun
    rw [Hub.closeCore_of_shut shut]
    exact Hub.coreClosed_iff.mpr ⟨_, found, shut _ found⟩

theorem avClosed_perform {step : Step β} {name : String} {a : Nat} (closes : step.ClosesAv name)
    (named : m.hub.av? name = some a) : (m.perform audience step).2.hub.AvClosed a := by
  obtain ⟨av, found⟩ := Hub.av?_found named
  cases step with
  | closeAv av =>
    obtain rfl : av = name := closes
    simp only [perform, withAv, named]
    exact Hub.avClosed_closeAv found
  | dropAv av =>
    obtain rfl : av = name := closes
    simp only [perform, withAv, named]
    exact Hub.avClosed_dropAv found
  | _ => cases closes

/-- The meeting can come about with these backends turned away. -/
def ReachedTurning (turned : List Nat) (m : Meeting β lam σ) : Prop :=
  ∃ (steps : List (Step β)) (listener : lam) (state : σ),
    m = after audience steps { listener, state } ∧
      turned = turnedAway audience steps { listener, state }

/-- Each backend that was handed in has been released, is held by an open session, or was turned
away. So once all sessions are closed, as every step that closes or drops one leaves it, those that
were turned away have never been released and all others have been once. -/
theorem backends_accounted (reached : m.ReachedTurning audience turned) :
    (m.hub.releases ++ m.hub.held ++ turned).Perm (List.range m.hub.backends) ∧
      (m.hub.AllClosed → ∀ b < m.hub.backends,
        m.hub.releases.count b = if b ∈ turned then 0 else 1) ∧
      (∀ step name i, step.Closes name → m.hub.core? name = some i → i < m.hub.cores.length →
        (m.perform audience step).2.hub.CoreClosed i) ∧
      ∀ step name a, step.ClosesAv name → m.hub.av? name = some a →
        (m.perform audience step).2.hub.AvClosed a := by
  obtain ⟨steps, listener, state, rfl, rfl⟩ := reached
  have hstart : ({ listener, state } : Meeting β lam σ).hub.Balanced [] [] := .start
  have hbalanced := balanced_after audience hstart steps
  refine ⟨hbalanced.perm, fun closed b handed => hbalanced.count_releases closed handed, ?_, ?_⟩
  · intro step name i closes named hlt
    exact coreClosed_perform audience closes named hlt
  · intro step name a closes named
    exact avClosed_perform audience closes named

/-- A session is replaced by name, one is closed by a callback, and two backends come too late. -/
theorem backends_accounted_late :
    let audience : Audience Transcript UInt32 :=
      ⟨Transcript.coreListener fun _ => true, Transcript.avListener (fun _ => true) true⟩
    let steps : List (Step Script) :=
      [.openCore "one" {}, .openCore "two" {}, .openAv "av" "one" {}, .openAv "av" "one" {},
        .openAv "other" "one" {}, .addCallback "two" "closer" (.close "other"), .dropAv "av",
        .closeCore "two", .openAv "late" "two" {}, .dropCore "one", .openAv "other" "two" {}]
    let m : Meeting Script Transcript UInt32 := after audience steps { listener := {}, state := 0 }
    m.ReachedTurning audience [5, 6] ∧ m.hub.AllClosed ∧ m.hub.backends = 7 ∧
      m.hub.releases = [2, 3, 4, 1, 0] ∧
      ∀ b < m.hub.backends, m.hub.releases.count b = if b ∈ [5, 6] then 0 else 1 := by
  intro audience steps m
  have turned : [5, 6] = turnedAway audience steps
      ({ listener := {}, state := 0 } : Meeting Script Transcript UInt32) := by decide +kernel
  have reached : m.ReachedTurning audience [5, 6] := ⟨steps, {}, 0, rfl, turned⟩
  have closed : m.hub.AllClosed := by decide +kernel
  obtain ⟨-, released, -⟩ := backends_accounted audience reached
  exact ⟨reached, closed, by decide +kernel, by decide +kernel, released closed⟩

/-- The one session that there was has closed, and the second of two backends is never released. -/
theorem turned_away_unreleased :
    let audience : Audience Transcript UInt32 :=
      ⟨Transcript.coreListener fun _ => true, Transcript.avListener (fun _ => true) true⟩
    let steps : List (Step Script) :=
      [.openCore "core" {}, .closeCore "core", .openAv "av" "core" {}]
    let start : Meeting Script Transcript UInt32 := { listener := {}, state := 0 }
    let m := start.after audience steps
    m.hub.AllClosed ∧ m.hub.backends = 2 ∧ m.hub.releases = [0] ∧ m.hub.releases.count 1 ≠ 1 := by
  decide +kernel

end Meeting

end ToxEvents
