import ToxEvents.Proofs.Session.Entries
import ToxEvents.Session.Meeting
set_option autoImplicit false

namespace ToxEvents.Hub

variable {β : Type} {hub : Hub β} {i a : Nat}

def CoreOpen (i : Nat) (core : CoreSession β) (table : SlotTable Registration) (hub : Hub β) :
    Prop :=
  hub.cores[i]? = some core ∧ core.onClose = some table

def CoreShut (i : Nat) (hub : Hub β) : Prop :=
  ∀ core, hub.cores[i]? = some core → core.onClose = none

def AvOpen (a : Nat) (av : AvSession β) (hub : Hub β) : Prop :=
  hub.avs[a]? = some av ∧ av.released = false

def AvShut (a : Nat) (hub : Hub β) : Prop :=
  ∀ av, hub.avs[a]? = some av → av.released = true

theorem core_cases (i : Nat) (hub : Hub β) :
    (∃ core table, hub.CoreOpen i core table) ∨ hub.CoreShut i := by
  cases found : hub.cores[i]? with
  | none => exact .inr fun core h => by rw [found] at h; cases h
  | some core =>
    cases opened : core.onClose with
    | none => exact .inr fun core' h => Option.some.inj (found.symm.trans h) ▸ opened
    | some table => exact .inl ⟨core, table, found, opened⟩

theorem exists_coreOpen (hopen : hub.isClosed i = false) :
    ∃ core table, hub.CoreOpen i core table := by
  refine (hub.core_cases i).resolve_right fun shut => ?_
  unfold isClosed at hopen
  split at hopen
  case h_1 core found =>
    rw [shut core found] at hopen
    cases hopen
  case h_2 => cases hopen

theorem av_cases (a : Nat) (hub : Hub β) : (∃ av, hub.AvOpen a av) ∨ hub.AvShut a := by
  cases found : hub.avs[a]? with
  | none => exact .inr fun av h => by rw [found] at h; cases h
  | some av =>
    cases released : av.released with
    | true => exact .inr fun av' h => Option.some.inj (found.symm.trans h) ▸ released
    | false => exact .inl ⟨av, found, released⟩

theorem slot_cases (a : Nat) (hub : Hub β) :
    (∀ av, hub.avs[a]? = some av → av.slot = none) ∨
      ∃ av slot, hub.avs[a]? = some av ∧ av.slot = some slot := by
  cases found : hub.avs[a]? with
  | none => exact .inl nofun
  | some av =>
    cases held : av.slot with
    | none => exact .inl fun av' h => Option.some.inj h ▸ held
    | some slot => exact .inr ⟨av, slot, rfl, held⟩

theorem toList_witness (h : Happening) :
    (hub.witness h).happenings.toList = hub.happenings.toList ++ [h] := Array.toList_push

theorem removeSlot_of_open {core : CoreSession β} {table : SlotTable Registration}
    (opened : hub.CoreOpen i core table) (slot : Nat) :
    hub.removeSlot i slot =
      (hub.setCore i { core with onClose := some (table.remove slot).1 }).note
        [(table.remove slot).2.record slot] := by
  unfold removeSlot
  simp only [opened.1, opened.2]

theorem removeSlot_of_shut (shut : hub.CoreShut i) (slot : Nat) :
    ∃ records, hub.removeSlot i slot = hub.note records := by
  unfold removeSlot
  cases found : hub.cores[i]? with
  | none => exact ⟨[], rfl⟩
  | some core =>
    simp only [shut core found]
    exact ⟨_, rfl⟩

theorem removeSlot_cases (i slot : Nat) (hub : Hub β) :
    (∃ core table, hub.CoreOpen i core table ∧ hub.removeSlot i slot =
      (hub.setCore i { core with onClose := some (table.remove slot).1 }).note
        [(table.remove slot).2.record slot]) ∨
      ∃ records, hub.removeSlot i slot = hub.note records := by
  rcases hub.core_cases i with ⟨core, table, opened⟩ | shut
  · exact .inl ⟨core, table, opened, removeSlot_of_open opened slot⟩
  · exact .inr (removeSlot_of_shut shut slot)

def register (core : CoreSession β) (table : SlotTable Registration) (i : Nat)
    (callback : Callback) (hub : Hub β) : Hub β :=
  let registration : Registration := ⟨hub.registrations, callback⟩
  { hub with registrations := hub.registrations + 1 }.setCore i
    { core with onClose := some (table.add registration).1 }

theorem addCallback_of_open {core : CoreSession β} {table : SlotTable Registration}
    (opened : hub.CoreOpen i core table) (callback : Callback) :
    hub.addCallback i callback = (.ok ⟨table.slots.length, i, hub.registrations⟩,
      (hub.register core table i callback).note [SlotTable.addedRecord table.slots.length]) := by
  unfold addCallback
  simp only [opened.1, opened.2]
  rfl

theorem addCallback_of_shut (shut : hub.CoreShut i) (callback : Callback) :
    hub.addCallback i callback = (.error .sessionClosed, hub) := by
  unfold addCallback
  split
  case h_1 => rfl
  case h_2 core found => rw [shut core found]

variable [Source β]

def drained (backend : Backend β) : Backend β :=
  { backend with source := (Source.release backend.source).2 }

theorem releaseAv_of_open {av : AvSession β} (opened : hub.AvOpen a av) :
    hub.releaseAv a = ((hub.witness (.released av.backend.id av.backend.label)).setAv a
      { av with backend := drained av.backend, released := true }).note
        (Source.release av.backend.source).1 := by
  unfold releaseAv
  simp only [opened.1, opened.2]
  rfl

theorem releaseAv_of_shut (shut : hub.AvShut a) : hub.releaseAv a = hub := by
  unfold releaseAv
  split
  case h_1 => rfl
  case h_2 av found => rw [if_pos (shut av found)]

/-- A session that has given its slot back is only released. -/
theorem closeAv_of_idle (idle : ∀ av, hub.avs[a]? = some av → av.slot = none) :
    hub.closeAv a = hub.releaseAv a := by
  unfold closeAv
  cases found : hub.avs[a]? with
  | none =>
    refine (releaseAv_of_shut fun av h => ?_).symm
    rw [found] at h
    cases h
  | some av => simp only [idle av found]

theorem closeAv_of_held {av : AvSession β} {slot : Nat} (found : hub.avs[a]? = some av)
    (held : av.slot = some slot) :
    hub.closeAv a =
      ((hub.setAv a { av with slot := none }).removeSlot av.core slot).releaseAv a := by
  unfold closeAv
  simp only [found, held]

theorem closeAv_cases (a : Nat) (hub : Hub β) :
    hub.closeAv a = hub.releaseAv a ∨ ∃ av slot, hub.avs[a]? = some av ∧ av.slot = some slot ∧
      hub.closeAv a =
        ((hub.setAv a { av with slot := none }).removeSlot av.core slot).releaseAv a := by
  rcases hub.slot_cases a with idle | ⟨av, slot, found, held⟩
  · exact .inl (closeAv_of_idle idle)
  · exact .inr ⟨av, slot, found, held, closeAv_of_held found held⟩

theorem dropAv_cases (a : Nat) (hub : Hub β) :
    hub.dropAv a = hub.closeAv a ∨ ∃ av, hub.avs[a]? = some av ∧
      hub.dropAv a = (hub.setAv a { av with dropped := true }).closeAv a := by
  unfold dropAv
  cases found : hub.avs[a]? with
  | none =>
    left
    unfold closeAv
    rw [found]
  | some av => exact .inr ⟨av, rfl, rfl⟩

/-- What closing and dropping sessions leaves true, a reaction leaves true. -/
theorem react_of {P : Hub β → Prop} (close : ∀ hub a, P hub → P (hub.closeAv a))
    (drop : ∀ hub a, P hub → P (hub.dropAv a)) (reaction : Reaction Nat) (holds : P hub) :
    P (hub.react reaction) := by
  induction reaction generalizing hub with
  | none => exact holds
  | close a => exact close hub a holds
  | drop a => exact drop hub a holds
  | both first second ih₁ ih₂ => exact ih₂ (ih₁ holds)

theorem call_of_release {r : Registration} (callback : r.callback = .release a) :
    (hub.call r).2 = { hub with invoked := hub.invoked.push r.id }.releaseAv a := by
  unfold call runCallback
  rw [callback]

theorem call_of_user {r : Registration} {label : String} {count : Nat} {reaction : Reaction Nat}
    (callback : r.callback = .user label count reaction) :
    (hub.call r).2 = ({ hub with invoked := hub.invoked.push r.id }.witness
      (.ran label (count + 1))).react reaction := by
  unfold call runCallback
  rw [callback]

def callEach (registrations : List Registration) (hub : Hub β) : Hub β :=
  registrations.foldl (fun hub r => (hub.call r).2) hub

/-- The hub once a core session has begun to close: its table belongs to it no longer. -/
def detach (i : Nat) (core : CoreSession β) (table : SlotTable Registration) (hub : Hub β) :
    Hub β :=
  (hub.setCore i { core with onClose := none }).note
    [⟨.debug, .session, s!"Closing session, running {table.live.length} on-close callback(s)"⟩]

theorem closeCore_of_open {core : CoreSession β} {table : SlotTable Registration}
    (opened : hub.CoreOpen i core table) :
    hub.closeCore i =
      ((((hub.detach i core table).callEach table.live).witness
        (.released core.backend.id core.backend.label)).setCore i
          ⟨drained core.backend, none⟩).note (Source.release core.backend.source).1 := by
  unfold closeCore
  simp only [opened.1, opened.2]
  rw [SlotTable.invoke_snd]
  rfl

theorem closeCore_of_shut (shut : hub.CoreShut i) : hub.closeCore i = hub := by
  unfold closeCore
  split
  case h_1 => rfl
  case h_2 core found => simp only [shut core found]

def ticked (backend : Backend β) : Backend β :=
  { backend with source := (Source.next backend.source).2 }

theorem tickCore_of_open {core : CoreSession β} {table : SlotTable Registration}
    (opened : hub.CoreOpen i core table) :
    hub.tickCore i = (.ok (Source.next core.backend.source).1,
      (hub.witness (.ticked core.backend.id core.backend.label)).setCore i
        { core with backend := ticked core.backend }) := by
  unfold tickCore
  simp only [opened.1, opened.2]
  rfl

theorem tickCore_of_shut (shut : hub.CoreShut i) :
    hub.tickCore i = (.error .sessionClosed, hub) := by
  unfold tickCore
  split
  case h_1 => rfl
  case h_2 core found => rw [shut core found]; rfl

theorem tickAv_of_open {av : AvSession β} (opened : hub.AvOpen a av) :
    hub.tickAv a = (.ok (Source.next av.backend.source).1,
      (hub.witness (.ticked av.backend.id av.backend.label)).setAv a
        { av with backend := ticked av.backend }) := by
  unfold tickAv
  simp only [opened.1, opened.2]
  rfl

theorem tickAv_of_shut (shut : hub.AvShut a) : hub.tickAv a = (.error .sessionClosed, hub) := by
  unfold tickAv
  split
  case h_1 => rfl
  case h_2 av found => rw [if_pos (shut av found)]

theorem changeCall_of_open {av : AvSession β} (opened : hub.AvOpen a av) (friend : FriendNumber)
    (flags : CallFlags) :
    hub.changeCall a friend flags = (.ok (),
      ((hub.witness (.callChanged av.backend.id av.backend.label friend flags.mask)).setAv a
        { av with backend := { av.backend with
            source := (Source.changeCall friend flags.mask av.backend.source).2 } }).note
        (Source.changeCall friend flags.mask av.backend.source).1) := by
  unfold changeCall
  simp only [opened.1, opened.2]
  rfl

theorem changeCall_of_shut (shut : hub.AvShut a) (friend : FriendNumber) (flags : CallFlags) :
    hub.changeCall a friend flags = (.error .sessionClosed, hub) := by
  unfold changeCall
  split
  case h_1 => rfl
  case h_2 av found => rw [if_pos (shut av found)]

def withCore (name : String) (source : β) (hub : Hub β) : Hub β :=
  { hub with
    cores := hub.cores ++ [⟨⟨hub.backends, name, source⟩, some {}⟩]
    coreNames := rename name hub.cores.length hub.coreNames
    backends := hub.backends + 1 }

theorem openCore_eq (name : String) (source : β) (hub : Hub β) :
    hub.openCore name source =
      (hub.core? name).elim (hub.withCore name source) (hub.withCore name source).closeCore := by
  unfold openCore
  cases hub.core? name <;> rfl

def withAv (name : String) (core : CoreSession β) (table : SlotTable Registration) (i : Nat)
    (source : β) (hub : Hub β) : Hub β :=
  { (({ hub with backends := hub.backends + 1 }.register core table i
      (.release hub.avs.length)).note [SlotTable.addedRecord table.slots.length]) with
    avs := hub.avs ++ [{ backend := ⟨hub.backends, name, source⟩, core := i,
                         slot := some table.slots.length }]
    avNames := rename name hub.avs.length hub.avNames }

theorem openAv_of_open {core : CoreSession β} {table : SlotTable Registration}
    (opened : hub.CoreOpen i core table) (name : String) (source : β) :
    hub.openAv name i source = (.ok (), (hub.av? name).elim
      (hub.withAv name core table i source) (hub.withAv name core table i source).dropAv) := by
  have hopen : ({ hub with backends := hub.backends + 1 } : Hub β).CoreOpen i core table := opened
  have hadd := addCallback_of_open hopen (.release hub.avs.length)
  unfold openAv
  dsimp only
  rw [hadd]
  dsimp only
  split
  case h_1 unnamed =>
    have hold : hub.av? name = none := unnamed
    rw [hold]
    rfl
  case h_2 old named =>
    have hold : hub.av? name = some old := named
    rw [hold]
    rfl

theorem openAv_of_shut (shut : hub.CoreShut i) (name : String) (source : β) :
    hub.openAv name i source =
      (.error .sessionClosed, { hub with backends := hub.backends + 1 }) := by
  have hshut : ({ hub with backends := hub.backends + 1 } : Hub β).CoreShut i := shut
  have hadd := addCallback_of_shut hshut (.release hub.avs.length)
  unfold openAv
  dsimp only
  rw [hadd]

end ToxEvents.Hub
