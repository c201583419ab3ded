import Mathlib.Data.List.Sort
import ToxEvents.Proofs.Session.Teardown
import ToxEvents.Proofs.Session.Tenancy
set_option autoImplicit false

/-!
# The tables mirror what is alive

As long as handles are given only to the sessions that issued them, the table of an open core
session has a live slot for each of its audio and video sessions that are open, one for each
callback that was added by a user and not removed, and no other. Closing an audio and video session
empties its own slot and leaves all the rest in place.
-/
namespace ToxEvents

variable {β lam σ : Type}

/-- The callbacks that users have added and not removed, oldest first, each with the number of its
core session. -/
abbrev Ledger := List (Nat × Registration)

def Ledger.of (i : Nat) (ledger : Ledger) : List Registration :=
  (ledger.filter (·.1 = i)).map Prod.snd

theorem Ledger.of_append (i j : Nat) (ledger : Ledger) (r : Registration) :
    Ledger.of j (ledger ++ [(i, r)]) = ledger.of j ++ if j = i then [r] else [] := by
  unfold Ledger.of
  rw [List.filter_append, List.map_append]
  by_cases hj : j = i
  · simp [hj]
  · simp [hj, Ne.symm hj]

theorem Ledger.of_filter (i j n : Nat) (ledger : Ledger) :
    Ledger.of j (ledger.filter fun entry => ¬ (entry.1 = i ∧ entry.2.id = n)) =
      if j = i then (ledger.of j).filter (·.id ≠ n) else ledger.of j := by
  unfold Ledger.of
  rw [List.filter_filter]
  by_cases hj : j = i
  · subst j
    rw [if_pos rfl, List.filter_map, List.filter_filter]
    congr 1
    refine List.filter_congr fun entry _ => ?_
    by_cases hi : entry.1 = i <;> simp [hi]
  · rw [if_neg hj]
    congr 1
    refine List.filter_congr fun entry _ => ?_
    by_cases hi : entry.1 = j <;> simp [hi, hj]

namespace Hub

variable {hub left : Hub β} {ledger : Ledger} {i j a slot : Nat}

/-- The audio and video sessions of a core session that are open, in the order of their numbers. -/
def openAvs (i : Nat) (hub : Hub β) : List Nat :=
  (List.range hub.avs.length).filter fun a =>
    hub.avs[a]?.any fun av => av.core = i ∧ av.released = false

structure Mirrors (ledger : Ledger) (i : Nat) (hub : Hub β) : Prop where
  sessions : (hub.entries i).filterMap (·.2.callback.av?) = hub.openAvs i
  users : hub.users i = ledger.of i
  size : (hub.entries i).length = (hub.openAvs i).length + (ledger.of i).length
  /-- The slot that a session holds has the callback that releases it. -/
  slot : ∀ a ∈ hub.openAvs i, ∃ av s r, hub.avs[a]? = some av ∧ av.slot = some s ∧
    (s, r) ∈ hub.entries i ∧ r.callback = .release a
  closed_iff : ∀ {a : Nat} {av : AvSession β}, hub.avs[a]? = some av → av.core = i →
    (av.released = true ↔ hub.Released av.backend.id)

/-- An audio and video session was closed, and its own slot was emptied if it held one. -/
structure Departs (a : Nat) (before after : Hub β) : Prop where
  closed : after.AvClosed a
  others : ∀ b, b ≠ a → after.avs[b]? = before.avs[b]?
  handles : after.handles = before.handles
  opened : ∀ i, after.IsOpen i ↔ before.IsOpen i
  entries : ∀ i, after.entries i = (before.entries i).filter (·.2.callback ≠ .release a)

theorem mem_openAvs : a ∈ hub.openAvs i ↔ ∃ av, hub.AvOpen a av ∧ av.core = i := by
  unfold openAvs AvOpen
  cases found : hub.avs[a]? with
  | none => simp [found]
  | some av =>
    have hlt := (List.getElem?_eq_some_iff.mp found).1
    rw [List.mem_filter, List.mem_range, found]
    simp [hlt, and_comm]

theorem mem_sessions (linked : Linked Nobody hub) (tenanted : Tenanted Nobody hub) :
    a ∈ (hub.entries i).filterMap (·.2.callback.av?) ↔ a ∈ hub.openAvs i := by
  rw [mem_openAvs, List.mem_filterMap]
  constructor
  · intro ⟨entry, member, hr⟩
    obtain ⟨av, hopen, hcore, -⟩ := tenanted.holder member hr
    exact ⟨av, hopen, hcore⟩
  · intro ⟨av, hopen, hcore⟩
    obtain ⟨hheld, hcoreOpen⟩ := (linked.unreleased hopen).resolve_right id
    obtain ⟨s, held⟩ := Option.isSome_iff_exists.mp hheld
    obtain ⟨r, member, hr⟩ := (linked.slot hopen.1 held).mem_entries hcoreOpen
    exact ⟨(s, r), hcore ▸ member, Callback.av?_eq_some.mpr hr⟩

theorem length_entries :
    (hub.entries i).length =
      ((hub.entries i).filterMap (·.2.callback.av?)).length + (hub.users i).length := by
  unfold users
  rw [List.filter_map, List.length_map, List.length_filterMap_eq_countP,
    ← List.countP_eq_length_filter, List.length_eq_countP_add_countP fun entry =>
      entry.2.callback.av?.isSome]
  congr 1
  refine List.countP_congr fun entry _ => ?_
  cases hav : entry.2.callback.av? <;> simp [hav]

theorem mirrors_of (sound : Sound none [] hub) (linked : Linked Nobody hub)
    (tenanted : Tenanted Nobody hub) (users : hub.users i = ledger.of i) :
    Mirrors ledger i hub := by
  have hsessions : (hub.entries i).filterMap (·.2.callback.av?) = hub.openAvs i := by
    have hascending : (hub.openAvs i).Pairwise (· < ·) := List.pairwise_lt_range.filter _
    exact (tenanted.ascending i).sortedLT.eq_of_mem_iff hascending.sortedLT
      fun a => mem_sessions linked tenanted
  exact {
    sessions := hsessions
    users := users
    size := by rw [length_entries, hsessions, users]
    slot := fun a member => by
      rw [← mem_sessions linked tenanted, List.mem_filterMap] at member
      obtain ⟨⟨s, r⟩, member, hr⟩ := member
      obtain ⟨av, hopen, -, held⟩ := tenanted.holder member hr
      exact ⟨av, s, r, hopen.1, held, member, Callback.av?_eq_some.mp hr⟩
    closed_iff := fun {a av} found _ => by
      constructor
      · intro hclosed
        exact ⟨av.backend.label, sound.av_released found hclosed⟩
      · intro hreleased
        cases hopen : av.released with
        | true => rfl
        | false => exact absurd hreleased (sound.av_open ⟨found, hopen⟩) }

theorem isOpen_removeSlot : (hub.removeSlot j slot).IsOpen i ↔ hub.IsOpen i := by
  rcases hub.core_cases j with ⟨core, table, opened⟩ | shut
  · rw [removeSlot_of_open opened]
    constructor
    · intro ⟨core', table', found, htable⟩
      rcases getElem?_set_cases found with ⟨rfl, -⟩ | ⟨-, found⟩
      · exact ⟨core, table, opened⟩
      · exact ⟨core', table', found, htable⟩
    · intro hopen
      exact hopen.setCore opened.1 fun _ => rfl
  · obtain ⟨records, hremove⟩ := removeSlot_of_shut shut slot
    rw [hremove]
    exact .rfl

theorem handles_removeSlot : (hub.removeSlot j slot).handles = hub.handles := by
  rcases hub.removeSlot_cases j slot with ⟨core, table, -, hremove⟩ | ⟨records, hremove⟩
  · rw [hremove]
    rfl
  · rw [hremove]
    rfl

variable [Source β]

theorem isOpen_releaseAv : (hub.releaseAv a).IsOpen i ↔ hub.IsOpen i := by
  rcases hub.av_cases a with ⟨av, opened⟩ | shut
  · rw [releaseAv_of_open opened]
    exact .rfl
  · rw [releaseAv_of_shut shut]

theorem handles_releaseAv : (hub.releaseAv a).handles = hub.handles := by
  rcases hub.av_cases a with ⟨av, opened⟩ | shut
  · rw [releaseAv_of_open opened]
    rfl
  · rw [releaseAv_of_shut shut]

theorem departs_closeAv (linked : Linked Nobody hub) (tenanted : Tenanted Nobody hub)
    {av : AvSession β} (found : hub.avs[a]? = some av) : hub.Departs a (hub.closeAv a) where
  closed := avClosed_closeAv found
  others b hb := avs_closeAv_of_ne hb
  handles := by
    rcases hub.closeAv_cases a with hclose | ⟨av, slot, -, -, hclose⟩
    · rw [hclose, handles_releaseAv]
    · rw [hclose, handles_releaseAv, handles_removeSlot]
      rfl
  opened i := by
    rcases hub.closeAv_cases a with hclose | ⟨av, slot, -, -, hclose⟩
    · rw [hclose, isOpen_releaseAv]
    · rw [hclose, isOpen_releaseAv, isOpen_removeSlot]
      exact .rfl
  entries i := by
    rw [entries_closeAv linked tenanted]
    refine List.filter_congr fun entry _ => ?_
    simp [Callback.av?_eq_some]

theorem departs_dropAv (linked : Linked Nobody hub) (tenanted : Tenanted Nobody hub)
    {av : AvSession β} (found : hub.avs[a]? = some av) : hub.Departs a (hub.dropAv a) := by
  have hlt := (List.getElem?_eq_some_iff.mp found).1
  have htenanted : Tenanted Nobody (hub.setAv a { av with dropped := true }) :=
    tenanted.setAv found rfl rfl rfl
  have hclose := departs_closeAv (linked.setDropped found) htenanted (List.getElem?_set_self hlt)
  have hdrop : hub.dropAv a = (hub.setAv a { av with dropped := true }).closeAv a := by
    unfold dropAv
    rw [found]
  rw [hdrop]
  exact { hclose with
    others := fun b hb => (hclose.others b hb).trans (List.getElem?_set_ne (Ne.symm hb)) }

end Hub

namespace Meeting

variable [Source β] {m : Meeting β lam σ} (audience : Audience lam σ)

def enter (step : Step β) (m : Meeting β lam σ) (ledger : Ledger) : Ledger :=
  match step, (m.perform audience step).1 with
  | .addCallback core label reaction, .slot _ =>
    ledger ++ (m.hub.core? core).toList.map fun i =>
      (i, ⟨m.hub.registrations, .user label 0 (reaction.aim m.hub.target?)⟩)
  | .removeCallback _ label, .done =>
    ledger.filter fun entry => ∀ handle ∈ m.hub.handles.lookup label,
      ¬ (entry.1 = handle.issuer ∧ entry.2.id = handle.registration)
  | _, _ => ledger

def ledgerAfter : List (Step β) → Meeting β lam σ → Ledger → Ledger
  | [], _, ledger => ledger
  | step :: later, m, ledger =>
    ledgerAfter later (m.perform audience step).2 (m.enter audience step ledger)

end Meeting

namespace Hub

variable {hub left : Hub β} {ledger : Ledger} {i j a slot : Nat}

/-- The callbacks of users in the tables are those in the ledger. -/
structure Listed (ledger : Ledger) (hub : Hub β) : Prop where
  users : ∀ {i}, hub.IsOpen i → hub.users i = ledger.of i
  lt : ∀ entry ∈ ledger, entry.1 < hub.cores.length

theorem Listed.turn (listed : Listed ledger hub) (turns : hub.Turns left) : Listed ledger left where
  users {i} hopen := by
    rw [turns.users hopen]
    by_cases hlt : i < hub.cores.length
    · exact listed.users (turns.keeps.isOpen hopen hlt)
    -- A core session that is new has neither callbacks nor entries in the ledger.
    · have hnone : ledger.filter (·.1 = i) = [] := by
        refine List.filter_eq_nil_iff.mpr fun entry member same => hlt ?_
        exact of_decide_eq_true same ▸ listed.lt entry member
      unfold Hub.users Ledger.of
      rw [entries_of_le (Nat.le_of_not_lt hlt), hnone]
      rfl
  lt entry member := turns.keeps.core_lt (listed.lt entry member)

theorem Listed.register (listed : Listed ledger hub) {core : CoreSession β}
    {table : SlotTable Registration} (opened : hub.CoreOpen i core table) {callback : Callback}
    (user : callback.av? = none) :
    Listed (ledger ++ [(i, ⟨hub.registrations, callback⟩)])
      (hub.register core table i callback) where
  users {j} hopen := by
    have hlt : j < hub.cores.length := by
      have hlt := hopen.lt
      change j < (hub.cores.set i _).length at hlt
      rwa [List.length_set] at hlt
    have hkept := listed.users ((Keeps.register opened callback).isOpen hopen hlt)
    rw [Ledger.of_append, ← hkept]
    unfold Hub.users
    rw [entries_register opened, List.map_append, List.filter_append]
    split <;> simp [user]
  lt entry member := by
    change entry.1 < (hub.cores.set i _).length
    rw [List.length_set]
    rcases List.mem_append.mp member with member | member
    · exact listed.lt entry member
    · rw [List.mem_singleton.mp member]
      exact (List.getElem?_eq_some_iff.mp opened.1).1

/-- To use a handle is to take out the registration that it was given for. -/
theorem entries_useHandle (sound : Sound none [] hub) (linked : Linked Nobody hub) {name : String}
    {handle : Handle} (member : (name, handle) ∈ hub.handles) :
    (hub.entries handle.issuer).filter (·.1 ≠ handle.slot) =
      (hub.entries handle.issuer).filter (·.2.id ≠ handle.registration) := by
  refine List.filter_congr fun entry hentry => ?_
  obtain ⟨core, table, opened⟩ := isOpen_of_mem_entries hentry
  obtain ⟨r, hr, hid, -⟩ := (linked.handle member).mem_entries ⟨core, table, opened⟩
  have hnodup : ((hub.entries handle.issuer).map (·.2.id)).Nodup := by
    have hordered := sound.ordered opened
    rw [SlotTable.live_eq, List.map_map, ← entries_of_open opened] at hordered
    exact hordered.imp Nat.ne_of_lt
  -- Slots and numbers are both unique within a table.
  have hiff : entry.1 = handle.slot ↔ entry.2.id = handle.registration := by
    constructor
    · intro hslot
      have hsame : (handle.slot, entry.2) ∈ hub.entries handle.issuer := hslot ▸ hentry
      rw [entries_inj hsame hr, hid]
    · intro hsame
      rw [List.inj_on_of_nodup_map hnodup hentry hr (hsame.trans hid.symm)]
  simp [hiff]

theorem Listed.useHandle (listed : Listed ledger hub) (sound : Sound none [] hub)
    (linked : Linked Nobody hub) {name : String} {handle : Handle}
    (member : (name, handle) ∈ hub.handles) (handles : List (String × Handle)) :
    Listed (ledger.filter fun entry =>
        ¬ (entry.1 = handle.issuer ∧ entry.2.id = handle.registration))
      ({ hub with handles }.removeSlot handle.issuer handle.slot) where
  users {j} hopen := by
    have hopen' : ({ hub with handles } : Hub β).IsOpen j := isOpen_removeSlot.mp hopen
    have hkept : hub.users j = ledger.of j := listed.users hopen'
    rw [Ledger.of_filter, ← hkept]
    unfold Hub.users
    rw [entries_removeSlot]
    change
      ((if j = handle.issuer then (hub.entries j).filter _ else hub.entries j).map _).filter _ = _
    by_cases hj : j = handle.issuer
    · subst j
      rw [if_pos rfl, if_pos rfl, entries_useHandle sound linked member]
      simp only [List.filter_map, List.filter_filter, Function.comp_def, Bool.and_comm]
    · rw [if_neg hj, if_neg hj]
  lt entry hentry := by
    have hlt := listed.lt entry (List.mem_filter.mp hentry).1
    exact (Keeps.removeSlot { hub with handles } handle.issuer handle.slot).core_lt hlt

end Hub

structure Hub.Accounted (ledger : Ledger) (hub : Hub β) : Prop where
  sound : Hub.Sound none [] hub
  linked : Hub.Linked Hub.Nobody hub
  tenanted : Hub.Tenanted Hub.Nobody hub
  listed : Hub.Listed ledger hub

theorem Hub.Accounted.start : Hub.Accounted [] ({} : Hub β) where
  sound := .start
  linked := .start
  tenanted := .start
  listed := {
    users := fun ⟨core, table, found, _⟩ => by simp at found
    lt := by simp }

def Step.OfUser : Step β → Prop
  | .addCallback .. => True
  | .removeCallback .. => True
  | _ => False

namespace Meeting

variable [Source β] {m : Meeting β lam σ} {ledger : Ledger} (audience : Audience lam σ)

theorem enter_of_other {step : Step β} (other : ¬ step.OfUser) :
    m.enter audience step ledger = ledger := by
  cases step with
  | addCallback core label reaction => exact absurd trivial other
  | removeCallback core label => exact absurd trivial other
  | _ => rfl

theorem turns_perform (linked : m.hub.Linked Hub.Nobody) (tenanted : m.hub.Tenanted Hub.Nobody)
    {step : Step β} (other : ¬ step.OfUser) :
    let left := (m.perform audience step).2.hub
    left.Tenanted Hub.Nobody ∧ m.hub.Turns left := by
  let Turned (left : Hub β) : Prop := left.Tenanted Hub.Nobody ∧ m.hub.Turns left
  have hstay : Turned m.hub := tenanted.stay rfl rfl
  change Turned _
  cases step with
  | openCore name source => exact tenanted.openCore linked name source
  | openAv name core source =>
    refine withCore_of hstay fun i _ => ?_
    rw [outcome_hub]
    exact tenanted.openAv linked name i source
  | tickCore core =>
    refine withCore_of hstay fun i _ => ?_
    obtain ⟨log, hlog⟩ := m.receive_hub audience.core.receive (m.hub.tickCore i)
    rw [hlog]
    exact Hub.Tenanted.settle (tenanted.tickCore i) rfl rfl
  | tickAv av =>
    refine withAv_of hstay fun a => ?_
    obtain ⟨log, hlog⟩ := m.receive_hub audience.av.receive (m.hub.tickAv a)
    rw [hlog]
    exact Hub.Tenanted.settle (tenanted.tickAv a) rfl rfl
  | closeCore core => exact withCore_of hstay fun i _ => tenanted.closeCore linked i
  | closeAv av => exact withAv_of hstay fun a => tenanted.closeAv linked a
  | dropCore core =>
    refine withCore_of hstay fun i _ => ?_
    have hforgotten : Turned { m.hub with coreNames := forget core m.hub.coreNames } :=
      tenanted.stay rfl rfl
    obtain ⟨hclosed, hturns⟩ := hforgotten.1.closeCore { linked with } i
    exact ⟨hclosed, hforgotten.2.trans hturns⟩
  | dropAv av => exact withAv_of hstay fun a => tenanted.dropAv linked a
  | addCallback core label reaction => exact absurd trivial other
  | removeCallback core label => exact absurd trivial other
  | changeCall av friend flags =>
    refine withAv_of hstay fun a => ?_
    rw [outcome_hub]
    exact tenanted.changeCall a friend flags

theorem accounted_addCallback (accounted : m.hub.Accounted ledger) (core label : String)
    (reaction : Reaction Target) :
    let step : Step β := .addCallback core label reaction
    let left := (m.perform audience step).2.hub
    left.Tenanted Hub.Nobody ∧ left.Listed (m.enter audience step ledger) := by
  intro step left
  cases named : m.hub.core? core with
  | none =>
    have hperform : m.perform audience step = (.unknown, m) := by
      simp only [step, perform, withCore, named]
    simp only [left, enter, step, hperform]
    exact ⟨accounted.tenanted, accounted.listed⟩
  | some i =>
    rcases m.hub.core_cases i with ⟨session, table, opened⟩ | shut
    · let callback : Callback := .user label 0 (reaction.aim m.hub.target?)
      have htenanted : (m.hub.register session table i callback).Tenanted Hub.Nobody :=
        accounted.tenanted.add (fun _ => Hub.entries_register opened callback) id
          fun a ha => by cases ha
      have hlisted : (m.hub.register session table i callback).Listed
          (ledger ++ [(i, ⟨m.hub.registrations, callback⟩)]) := accounted.listed.register opened rfl
      have hperform : m.perform audience step = (.slot table.slots.length, { m with
          hub := { (m.hub.register session table i callback).note
            [SlotTable.addedRecord table.slots.length] with
              handles := rename label ⟨table.slots.length, i, m.hub.registrations⟩ m.hub.handles } }) := by
        simp only [step, perform, withCore, named, addCallback, Hub.addCallback_of_open opened]
        rfl
      simp only [left, enter, step, hperform, named]
      exact ⟨htenanted.of_eq (fun _ => rfl) rfl, { hlisted with }⟩
    · have hperform : m.perform audience step = (.rejected .sessionClosed, m) := by
        simp only [step, perform, withCore, named, addCallback, Hub.addCallback_of_shut shut]
      simp only [left, enter, step, hperform]
      exact ⟨accounted.tenanted, accounted.listed⟩

theorem accounted_removeCallback (accounted : m.hub.Accounted ledger) (core label : String)
    (fair : m.Fair (.removeCallback core label)) :
    let step : Step β := .removeCallback core label
    let left := (m.perform audience step).2.hub
    left.Tenanted Hub.Nobody ∧ left.Listed (m.enter audience step ledger) := by
  intro step left
  cases named : m.hub.core? core with
  | none =>
    have hperform : m.perform audience step = (.unknown, m) := by
      simp only [step, perform, withCore, named]
    simp only [left, enter, step, hperform]
    exact ⟨accounted.tenanted, accounted.listed⟩
  | some i =>
    cases held : m.hub.handles.lookup label with
    | none =>
      have hperform : m.perform audience step = (.noHandle, m) := by
        simp only [step, perform, withCore, named, removeCallback, held]
      simp only [left, enter, step, hperform]
      exact ⟨accounted.tenanted, accounted.listed⟩
    | some handle =>
      obtain rfl : handle.issuer = i := fair i named handle held
      have hperform : m.perform audience step = (.done, { m with
          hub := { m.hub with handles := forget label m.hub.handles }.removeSlot
            handle.issuer handle.slot }) := by
        simp only [step, perform, withCore, named, removeCallback, held]
      have hspent : Hub.Tenanted Hub.Nobody
          { m.hub with handles := forget label m.hub.handles } :=
        accounted.tenanted.of_eq (fun _ => rfl) rfl
      have hlisted := accounted.listed.useHandle accounted.sound accounted.linked
        (mem_of_lookup held) (forget label m.hub.handles)
      simp only [left, enter, step, hperform, held]
      refine ⟨hspent.removeSlot _ _, ?_⟩
      simpa using hlisted

theorem accounted_perform (accounted : m.hub.Accounted ledger) {step : Step β}
    (fair : m.Fair step) :
    (m.perform audience step).2.hub.Accounted (m.enter audience step ledger) := by
  have hmove := move_perform audience step m
  have hsound := accounted.sound.move hmove
  have hlinked := accounted.linked.move fair hmove
  by_cases huser : step.OfUser
  · cases step with
    | addCallback core label reaction =>
      obtain ⟨htenanted, hlisted⟩ := accounted_addCallback audience accounted core label reaction
      exact ⟨hsound, hlinked, htenanted, hlisted⟩
    | removeCallback core label =>
      obtain ⟨htenanted, hlisted⟩ := accounted_removeCallback audience accounted core label fair
      exact ⟨hsound, hlinked, htenanted, hlisted⟩
    | _ => cases huser
  · obtain ⟨htenanted, hturns⟩ :=
      turns_perform audience accounted.linked accounted.tenanted huser
    rw [enter_of_other audience huser]
    exact ⟨hsound, hlinked, htenanted, accounted.listed.turn hturns⟩

theorem accounted_after (accounted : m.hub.Accounted ledger) {steps : List (Step β)}
    (fair : FairRun audience steps m) :
    (m.after audience steps).hub.Accounted (ledgerAfter audience steps m ledger) := by
  induction steps generalizing m ledger with
  | nil => exact accounted
  | cons step steps ih => exact ih (accounted_perform audience accounted fair.1) fair.2

/-- The meeting can come about with every handle given to its own session, and users have added and
removed callbacks as in the ledger. -/
def ReachedWith (ledger : Ledger) (m : Meeting β lam σ) : Prop :=
  ∃ (steps : List (Step β)) (listener : lam) (state : σ),
    FairRun audience steps { listener, state } ∧ m = after audience steps { listener, state } ∧
      ledger = ledgerAfter audience steps { listener, state } []

/-- The tables mirror what is alive. Closing or dropping a session empties its own slot, and
whatever else closes sessions, too, takes out their callbacks and no others. -/
theorem tables_mirror (reached : m.ReachedWith audience ledger) :
    (∀ i, m.hub.isClosed i = false → m.hub.Mirrors ledger i) ∧
      (∀ name a, m.hub.av? name = some a →
        m.hub.Departs a (m.perform audience (.closeAv name)).2.hub ∧
        m.hub.Departs a (m.perform audience (.dropAv name)).2.hub) ∧
      ∀ step, ¬ step.OfUser → m.hub.Turns (m.perform audience step).2.hub := by
  obtain ⟨steps, listener, state, fair, rfl, rfl⟩ := reached
  have haccounted := accounted_after audience .start fair
  refine ⟨fun i hopen => ?_, fun name a named => ?_, fun step other => ?_⟩
  · exact Hub.mirrors_of haccounted.sound haccounted.linked haccounted.tenanted
      (haccounted.listed.users (Hub.exists_coreOpen hopen))
  · obtain ⟨av, found⟩ := Hub.av?_found named
    simp only [perform, withAv, named]
    exact ⟨Hub.departs_closeAv haccounted.linked haccounted.tenanted found,
      Hub.departs_dropAv haccounted.linked haccounted.tenanted found⟩
  · exact (turns_perform audience haccounted.linked haccounted.tenanted other).2

/-- Slots are used again, a name goes to another session, and a callback of one core session closes
a session of another. -/
theorem tables_mirror_reuse :
    let audience : Audience Transcript UInt32 :=
      ⟨Transcript.coreListener fun _ => true, Transcript.avListener (fun _ => true) true⟩
    let steps : List (Step Script) :=
      [.openCore "one" {}, .openCore "two" {}, .addCallback "one" "early" .none,
        .openAv "first" "one" {}, .openAv "second" "one" {}, .addCallback "one" "kept" .none,
        .addCallback "two" "closer" (.close "second"), .removeCallback "one" "early",
        .openAv "first" "one" {}, .closeCore "two", .openAv "third" "one" {}, .closeAv "third",
        .openAv "fourth" "one" {}]
    let m : Meeting Script Transcript UInt32 := after audience steps { listener := {}, state := 0 }
    let ledger := ledgerAfter audience steps
      ({ listener := {}, state := 0 } : Meeting Script Transcript UInt32) []
    m.ReachedWith audience ledger ∧ m.hub.isClosed 0 = false ∧
      m.hub.entries 0 = [(3, ⟨3, .user "kept" 0 .none⟩), (4, ⟨5, .release 2⟩),
        (5, ⟨7, .release 4⟩)] ∧
      ledger.of 0 = [⟨3, .user "kept" 0 .none⟩] ∧ m.hub.Mirrors ledger 0 ∧
      m.hub.Departs 2 (m.perform audience (.dropAv "first")).2.hub ∧
      m.hub.Turns (m.perform audience (.openAv "fourth" "one" {})).2.hub := by
  intro audience steps m ledger
  have fair : FairRun audience steps
      ({ listener := {}, state := 0 } : Meeting Script Transcript UInt32) := by decide +kernel
  have hopen : m.hub.isClosed 0 = false := by decide +kernel
  have named : m.hub.av? "first" = some 2 := by decide +kernel
  have reached : m.ReachedWith audience ledger := ⟨steps, {}, 0, fair, rfl, rfl⟩
  obtain ⟨mirrors, departs, turns⟩ := tables_mirror audience reached
  exact ⟨reached, hopen, by decide +kernel, by decide +kernel, mirrors 0 hopen,
    (departs "first" 2 named).2, turns (.openAv "fourth" "one" {}) id⟩

end Meeting

end ToxEvents
