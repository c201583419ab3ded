import Mathlib.Data.List.Perm.Subperm
import ToxEvents.Proofs.Session.Continuity
set_option autoImplicit false

/-!
# Nothing twice

A hub is sound if no backend is asked for anything after its release and no registration is counted
twice among those that were called, those that a closing session has yet to call and those in the
tables. Each change that operations make to a hub keeps this.
-/
namespace ToxEvents

namespace Happening

def backend? : Happening → Option Nat
  | ticked b _ => some b
  | released b _ => some b
  | callChanged b .. => some b
  | ran .. => none

def Releases (b : Nat) (h : Happening) : Prop := ∃ label, h = released b label

/-- After a backend is released nothing more is asked of it. -/
def Allows (earlier later : Happening) : Prop := ∀ b, earlier.Releases b → later.backend? ≠ some b

end Happening

def Callback.Unrun : Callback → Prop
  | release _ => True
  | user _ count _ => count = 0

def CoreSession.live {β : Type} (core : CoreSession β) : List Registration :=
  core.onClose.elim [] SlotTable.live

namespace Hub

variable {β : Type}

def owners (hub : Hub β) : List Nat :=
  hub.cores.map (·.backend.id) ++ hub.avs.map (·.backend.id)

/-- The registrations in the tables of all open sessions. -/
def registered (hub : Hub β) : List Registration := hub.cores.flatMap CoreSession.live

def Released (b : Nat) (hub : Hub β) : Prop :=
  ∃ label, .released b label ∈ hub.happenings.toList

/-- The core session `closing` is about to release its source, when it has called the registrations
in `pending`. -/
structure Sound (closing : Option Nat) (pending : List Registration) (hub : Hub β) : Prop where
  owners : ∀ b, hub.owners.count b ≤ if b < hub.backends then 1 else 0
  registered : ∀ n, (hub.invoked.toList ++ pending.map (·.id) ++ hub.registered.map (·.id)).count n
    ≤ if n < hub.registrations then 1 else 0
  /-- Tables hold their registrations in the order in which they were made. -/
  ordered : ∀ {i core table}, hub.CoreOpen i core table →
    (table.live.map (·.id)).Pairwise (· < ·)
  unrun : ∀ r ∈ pending ++ hub.registered, r.callback.Unrun
  ran : ∀ {label count}, .ran label count ∈ hub.happenings.toList → count = 1
  quiet : hub.happenings.toList.Pairwise Happening.Allows
  released_lt : ∀ {b}, hub.Released b → b < hub.backends
  core_open : ∀ {i : Nat} {core : CoreSession β}, hub.cores[i]? = some core →
    core.onClose.isSome ∨ closing = some i → ¬ hub.Released core.backend.id
  av_open : ∀ {a av}, hub.AvOpen a av → ¬ hub.Released av.backend.id
  av_released : ∀ {a : Nat} {av : AvSession β}, hub.avs[a]? = some av → av.released = true →
    .released av.backend.id av.backend.label ∈ hub.happenings.toList

variable {hub : Hub β} {closing : Option Nat} {pending : List Registration}

theorem released_witness {h : Happening} {b : Nat} :
    (hub.witness h).Released b ↔ hub.Released b ∨ h.Releases b := by
  unfold Released Happening.Releases
  simp only [toList_witness, List.mem_append, List.mem_singleton, exists_or]
  simp only [eq_comm]

theorem released_witness_released {b b' : Nat} {label : String} :
    (hub.witness (.released b label)).Released b' ↔ hub.Released b' ∨ b' = b := by
  rw [released_witness]
  simp [Happening.Releases, eq_comm]

theorem owner_core {i : Nat} {core : CoreSession β} (found : hub.cores[i]? = some core) :
    core.backend.id ∈ hub.owners :=
  List.mem_append_left _ (List.mem_map_of_mem (List.mem_of_getElem? found))

theorem owner_av {a : Nat} {av : AvSession β} (found : hub.avs[a]? = some av) :
    av.backend.id ∈ hub.owners :=
  List.mem_append_right _ (List.mem_map_of_mem (List.mem_of_getElem? found))

theorem live_of_open {i : Nat} {core : CoreSession β} {table : SlotTable Registration}
    (opened : hub.CoreOpen i core table) : core.live = table.live := by
  rw [CoreSession.live, opened.2]
  rfl

theorem mem_registered {i : Nat} {core : CoreSession β} {table : SlotTable Registration}
    (opened : hub.CoreOpen i core table) {r : Registration} (live : r ∈ table.live) :
    r ∈ hub.registered := by
  refine List.mem_flatMap.mpr ⟨core, List.mem_of_getElem? opened.1, ?_⟩
  rw [live_of_open opened]
  exact live

namespace Sound

theorem start : Sound none [] ({} : Hub β) where
  owners b := by simp [Hub.owners]
  registered n := by simp [Hub.registered]
  ordered opened := by simp [CoreOpen] at opened
  unrun r member := by simp [Hub.registered] at member
  ran member := by simp at member
  quiet := .nil
  released_lt := by simp [Released]
  core_open found := by simp at found
  av_open opened := by simp [AvOpen] at opened
  av_released found := by simp at found

theorem note (sound : Sound closing pending hub) (records : List LogRecord) :
    Sound closing pending (hub.note records) := { sound with }

theorem nodup_owners (sound : Sound closing pending hub) : hub.owners.Nodup := by
  refine List.nodup_iff_count_le_one.mpr fun b => ?_
  have hcount := sound.owners b
  split at hcount <;> omega

theorem owner_lt (sound : Sound closing pending hub) {b : Nat} (owner : b ∈ hub.owners) :
    b < hub.backends := by
  have hcount := sound.owners b
  have hpos := List.count_pos_iff.mpr owner
  split at hcount <;> omega

theorem core_ne_av (sound : Sound closing pending hub) {i a : Nat} {core : CoreSession β}
    {av : AvSession β} (hcore : hub.cores[i]? = some core) (hav : hub.avs[a]? = some av) :
    core.backend.id ≠ av.backend.id := by
  have hdisjoint := (List.nodup_append.mp sound.nodup_owners).2.2
  exact hdisjoint _ (List.mem_map_of_mem (List.mem_of_getElem? hcore)) _
    (List.mem_map_of_mem (List.mem_of_getElem? hav))

theorem av_inj (sound : Sound closing pending hub) {a a' : Nat} {av av' : AvSession β}
    (hav : hub.avs[a]? = some av) (hav' : hub.avs[a']? = some av')
    (same : av.backend.id = av'.backend.id) : a = a' :=
  getElem?_inj_of_nodup_map (List.nodup_append.mp sound.nodup_owners).2.1 hav hav' same

theorem core_inj (sound : Sound closing pending hub) {i i' : Nat} {core core' : CoreSession β}
    (hcore : hub.cores[i]? = some core) (hcore' : hub.cores[i']? = some core')
    (same : core.backend.id = core'.backend.id) : i = i' :=
  getElem?_inj_of_nodup_map (List.nodup_append.mp sound.nodup_owners).1 hcore hcore' same

theorem invoked_nodup (sound : Sound closing pending hub) :
    (hub.invoked.toList ++ pending.map (·.id) ++ hub.registered.map (·.id)).Nodup := by
  refine List.nodup_iff_count_le_one.mpr fun n => ?_
  have hcount := sound.registered n
  split at hcount <;> omega

theorem registered_lt (sound : Sound closing pending hub) {r : Registration}
    (member : r ∈ hub.registered) : r.id < hub.registrations := by
  have hcount := sound.registered r.id
  have hpos := List.count_pos_iff.mpr (List.mem_map_of_mem (f := fun r => r.id) member)
  rw [List.count_append] at hcount
  split at hcount <;> omega

theorem owners_new (sound : Sound closing pending hub) {owners : List Nat}
    (perm : owners.Perm (hub.backends :: hub.owners)) (b : Nat) :
    owners.count b ≤ if b < hub.backends + 1 then 1 else 0 := by
  have hcount := sound.owners b
  rw [perm.count_eq, List.count_cons]
  simp only [beq_iff_eq]
  split at hcount <;> split <;> split <;> omega

theorem setAv (sound : Sound closing pending hub) {a : Nat} {av av' : AvSession β}
    (found : hub.avs[a]? = some av) (same : av.backend.Same av'.backend)
    (released : av'.released = av.released) : Sound closing pending (hub.setAv a av') := by
  exact { sound with
    owners := by
      have howners : (hub.setAv a av').owners = hub.owners :=
        congrArg (hub.cores.map (·.backend.id) ++ ·) (map_set_of_eq found same.1)
      rw [howners]
      exact sound.owners
    av_open := fun ⟨h, hopen⟩ => by
      rcases getElem?_set_cases h with ⟨-, rfl⟩ | ⟨-, h⟩
      · rw [same.1]
        exact sound.av_open ⟨found, released ▸ hopen⟩
      · exact sound.av_open ⟨h, hopen⟩
    av_released := fun h hclosed => by
      rcases getElem?_set_cases h with ⟨-, rfl⟩ | ⟨-, h⟩
      · rw [same.1, same.2]
        exact sound.av_released found (released ▸ hclosed)
      · exact sound.av_released h hclosed }

/-- A change of a core session that keeps its backend's number and opens nothing. Registrations may
be dropped, and may go between its table and those still to be called. -/
theorem setCore (sound : Sound closing pending hub) {i : Nat} {core core' : CoreSession β}
    {closing' : Option Nat} {pending' : List Registration}
    (found : hub.cores[i]? = some core) (same : core.backend.Same core'.backend)
    (kept : (pending' ++ core'.live).Subperm (pending ++ core.live))
    (ordered : ∀ table, core'.onClose = some table → (table.live.map (·.id)).Pairwise (· < ·))
    (opened : core'.onClose.isSome ∨ closing' = some i → core.onClose.isSome ∨ closing = some i)
    (others : ∀ j, j ≠ i → closing' = some j → closing = some j) :
    Sound closing' pending' (hub.setCore i core') := by
  obtain ⟨before, after, hcores, hset⟩ := exists_split found
  obtain ⟨kept, perm, sub⟩ := kept
  -- All other tables stay; this one is weighed together with `pending`.
  have hold : hub.registered = before.flatMap CoreSession.live ++ core.live ++
      after.flatMap CoreSession.live := by
    rw [Hub.registered, hcores, List.flatMap_append, List.flatMap_cons, List.append_assoc]
  have hnew : (hub.setCore i core').registered = before.flatMap CoreSession.live ++ core'.live ++
      after.flatMap CoreSession.live := by
    change (hub.cores.set i core').flatMap CoreSession.live = _
    rw [hset, List.flatMap_append, List.flatMap_cons, List.append_assoc]
  exact { sound with
    owners := by
      have howners : (hub.setCore i core').owners = hub.owners :=
        congrArg (· ++ hub.avs.map (·.backend.id)) (map_set_of_eq found same.1)
      rw [howners]
      exact sound.owners
    registered := fun n => by
      have hcount := sound.registered n
      have hperm := (perm.map (·.id)).count_eq n
      have hsub := (sub.map (·.id)).count_le n
      rw [hold] at hcount
      rw [hnew]
      change _ ≤ if n < hub.registrations then 1 else 0
      refine Nat.le_trans ?_ hcount
      simp only [List.map_append, List.count_append] at hperm hsub ⊢
      change List.count n hub.invoked.toList + _ + _ ≤ _
      omega
    ordered := fun ⟨h, htable⟩ => by
      rcases getElem?_set_cases h with ⟨-, rfl⟩ | ⟨-, h⟩
      · exact ordered _ htable
      · exact sound.ordered ⟨h, htable⟩
    unrun := fun r member => by
      refine sound.unrun r ?_
      have hkept (member : r ∈ pending' ++ core'.live) : r ∈ pending ++ core.live :=
        sub.subset (perm.mem_iff.mpr member)
      rw [hnew] at member
      rw [hold]
      simp only [List.mem_append] at member hkept ⊢
      tauto
    core_open := fun h hopen => by
      rcases getElem?_set_cases h with ⟨rfl, rfl⟩ | ⟨hj, h⟩
      · rw [same.1]
        exact sound.core_open found (opened hopen)
      · exact sound.core_open h (hopen.imp_right (others _ hj)) }

theorem setTable (sound : Sound closing pending hub) {i : Nat} {core : CoreSession β}
    {table table' : SlotTable Registration} {pending' : List Registration}
    (opened : hub.CoreOpen i core table)
    (kept : (pending' ++ table'.live).Subperm (pending ++ table.live))
    (ordered : (table'.live.map (·.id)).Pairwise (· < ·)) :
    Sound closing pending' (hub.setCore i { core with onClose := some table' }) := by
  refine sound.setCore opened.1 (.refl _) ?_ ?_ (fun _ => .inl ?_) fun _ _ h => h
  · rw [live_of_open opened]
    exact kept
  · rintro _ ⟨⟩
    exact ordered
  · rw [opened.2]
    rfl

theorem removeSlot (sound : Sound closing pending hub) (i slot : Nat) :
    Sound closing pending (hub.removeSlot i slot) := by
  rcases hub.removeSlot_cases i slot with ⟨core, table, opened, hremove⟩ | ⟨records, hremove⟩
  · have hsub : (table.remove slot).1.live.Sublist table.live := by
      rw [SlotTable.live_eq, SlotTable.live_eq, SlotTable.entries_remove]
      exact List.filter_sublist.map Prod.snd
    have hset : Sound closing pending
        (hub.setCore i { core with onClose := some (table.remove slot).1 }) :=
      sound.setTable opened ⟨_, .refl _, hsub.append_left pending⟩
        ((sound.ordered opened).sublist (hsub.map _))
    rw [hremove]
    exact hset.note _
  · rw [hremove]
    exact sound.note _

/-- A registration gets its number before it goes into a table. -/
theorem issue (sound : Sound closing pending hub) {callback : Callback} (unrun : callback.Unrun) :
    Sound closing (⟨hub.registrations, callback⟩ :: pending)
      { hub with registrations := hub.registrations + 1 } :=
  { sound with
    registered := fun n => by
      have hcount := sound.registered n
      change (hub.invoked.toList ++ hub.registrations :: pending.map (·.id) ++
        hub.registered.map (·.id)).count n ≤ if n < hub.registrations + 1 then 1 else 0
      simp only [List.count_append, List.count_cons, beq_iff_eq] at hcount ⊢
      split at hcount <;> split <;> split <;> omega
    unrun := fun r member => by
      rcases List.mem_cons.mp member with rfl | member
      · exact unrun
      · exact sound.unrun r member }

theorem register (sound : Sound closing pending hub) {i : Nat} {core : CoreSession β}
    {table : SlotTable Registration} (opened : hub.CoreOpen i core table) {callback : Callback}
    (unrun : callback.Unrun) : Sound closing pending (hub.register core table i callback) := by
  have hlive : (table.add ⟨hub.registrations, callback⟩).1.live =
      table.live ++ [⟨hub.registrations, callback⟩] := by
    simp [SlotTable.live_eq, SlotTable.entries_add]
  have hopen : ({ hub with registrations := hub.registrations + 1 } : Hub β).CoreOpen i core
      table := opened
  refine (sound.issue unrun).setTable hopen ?_ ?_
  · rw [hlive, ← List.append_assoc]
    exact (List.perm_append_singleton _ _).subperm
  · rw [hlive, List.map_append]
    refine List.pairwise_append.mpr ⟨sound.ordered opened, List.pairwise_singleton _ _, ?_⟩
    rintro n hn _ hnew
    obtain ⟨r, live, rfl⟩ := List.mem_map.mp hn
    rw [List.mem_singleton.mp hnew]
    exact sound.registered_lt (mem_registered opened live)

theorem detach (sound : Sound none [] hub) {i : Nat} {core : CoreSession β}
    {table : SlotTable Registration} (opened : hub.CoreOpen i core table) :
    Sound (some i) table.live (hub.detach i core table) := by
  have hset : Sound (some i) table.live (hub.setCore i { core with onClose := none }) := by
    refine sound.setCore opened.1 (.refl _) ?_ (by simp) (fun _ => .inl ?_) ?_
    · rw [live_of_open opened]
      exact (List.append_nil table.live).symm ▸ .refl _
    · rw [opened.2]
      rfl
    · rintro j hj ⟨⟩
      exact absurd rfl hj
  exact hset.note _

theorem withCore (sound : Sound none [] hub) (name : String) (source : β) :
    Sound none [] (hub.withCore name source) := by
  have hregistered : (hub.withCore name source).registered = hub.registered :=
    List.flatMap_append.trans (List.append_nil _)
  have howners : (hub.withCore name source).owners.Perm (hub.backends :: hub.owners) := by
    change (List.map _ (hub.cores ++ _) ++ _).Perm _
    rw [List.map_append]
    exact (List.perm_append_singleton hub.backends _).append_right _
  exact {
    owners := sound.owners_new howners
    registered := fun n => hregistered ▸ sound.registered n
    ordered := fun ⟨found, opened⟩ => by
      rcases getElem?_concat_cases found with found | ⟨-, rfl⟩
      · exact sound.ordered ⟨found, opened⟩
      · obtain rfl := Option.some.inj opened
        exact .nil
    unrun := fun r member => sound.unrun r (hregistered ▸ member)
    ran := sound.ran
    quiet := sound.quiet
    released_lt := fun hb => Nat.lt_succ_of_lt (sound.released_lt hb)
    core_open := fun found hopen hb => by
      rcases getElem?_concat_cases found with found | ⟨-, rfl⟩
      · exact sound.core_open found hopen hb
      · exact Nat.lt_irrefl _ (sound.released_lt hb)
    av_open := sound.av_open
    av_released := sound.av_released }

theorem appendAv (sound : Sound none [] hub) {av : AvSession β}
    (new : av.backend.id = hub.backends) (unreleased : av.released = false) :
    Sound none [] { hub with avs := hub.avs ++ [av], backends := hub.backends + 1 } := by
  have howners : (hub.cores.map (·.backend.id) ++ (hub.avs ++ [av]).map (·.backend.id)).Perm
      (hub.backends :: hub.owners) := by
    rw [List.map_append, List.map_singleton, new, ← List.append_assoc]
    exact List.perm_append_singleton hub.backends _
  exact {
    owners := sound.owners_new howners
    registered := sound.registered
    ordered := sound.ordered
    unrun := sound.unrun
    ran := sound.ran
    quiet := sound.quiet
    released_lt := fun hb => Nat.lt_succ_of_lt (sound.released_lt hb)
    core_open := sound.core_open
    av_open := fun ⟨found, hopen⟩ hb => by
      rcases getElem?_concat_cases found with found | ⟨-, rfl⟩
      · exact sound.av_open ⟨found, hopen⟩ hb
      · rw [new] at hb
        exact Nat.lt_irrefl _ (sound.released_lt hb)
    av_released := fun found released => by
      rcases getElem?_concat_cases found with found | ⟨-, rfl⟩
      · exact sound.av_released found released
      · rw [unreleased] at released
        cases released }

theorem withAv (sound : Sound none [] hub) {i : Nat} {core : CoreSession β}
    {table : SlotTable Registration} (opened : hub.CoreOpen i core table) (name : String)
    (source : β) : Sound none [] (hub.withAv name core table i source) := by
  let av : AvSession β :=
    { backend := ⟨hub.backends, name, source⟩, core := i, slot := some table.slots.length }
  have hnew : Sound none []
      { hub with avs := hub.avs ++ [av], backends := hub.backends + 1 } := sound.appendAv rfl rfl
  have hopen : ({ hub with avs := hub.avs ++ [av], backends := hub.backends + 1 } :
      Hub β).CoreOpen i core table := opened
  have hunrun : (Callback.release hub.avs.length).Unrun := trivial
  exact { hnew.register hopen hunrun with }

theorem quiet_witness (sound : Sound closing pending hub) {h : Happening}
    (alive : ∀ b, h.backend? = some b → ¬ hub.Released b) :
    (hub.witness h).happenings.toList.Pairwise Happening.Allows := by
  rw [toList_witness, List.pairwise_append]
  refine ⟨sound.quiet, List.pairwise_singleton _ _, fun earlier member later hlater b => ?_⟩
  rw [List.mem_singleton.mp hlater]
  rintro ⟨label, rfl⟩ hb
  exact alive b hb ⟨label, member⟩

theorem ran_witness (sound : Sound closing pending hub) {h : Happening}
    (once : ∀ {label count}, h = .ran label count → count = 1) {label : String} {count : Nat}
    (member : .ran label count ∈ (hub.witness h).happenings.toList) : count = 1 := by
  rw [toList_witness, List.mem_append, List.mem_singleton] at member
  exact member.elim sound.ran fun hh => once hh.symm

theorem av_released_witness (sound : Sound closing pending hub) (h : Happening) {a : Nat}
    {av : AvSession β} (found : hub.avs[a]? = some av) (released : av.released = true) :
    .released av.backend.id av.backend.label ∈ (hub.witness h).happenings.toList := by
  rw [toList_witness]
  exact List.mem_append_left _ (sound.av_released found released)

/-- What happens to a backend that is in use may be anything but its release. -/
theorem witness (sound : Sound closing pending hub) {h : Happening}
    (keeps : ∀ b, ¬ h.Releases b) (alive : ∀ b, h.backend? = some b → ¬ hub.Released b)
    (once : ∀ {label count}, h = .ran label count → count = 1) :
    Sound closing pending (hub.witness h) := by
  have hreleased {b : Nat} : (hub.witness h).Released b ↔ hub.Released b :=
    released_witness.trans (or_iff_left (keeps b))
  exact { sound with
    ran := sound.ran_witness once
    quiet := sound.quiet_witness alive
    released_lt := fun hb => sound.released_lt (hreleased.mp hb)
    core_open := fun found hopen hb => sound.core_open found hopen (hreleased.mp hb)
    av_open := fun hopen hb => sound.av_open hopen (hreleased.mp hb)
    av_released := sound.av_released_witness h }

theorem release_core (sound : Sound none pending hub) {i : Nat} {core : CoreSession β}
    (found : hub.cores[i]? = some core) (closed : core.onClose = none)
    (unreleased : ¬ hub.Released core.backend.id) (label : String) :
    Sound none pending (hub.witness (.released core.backend.id label)) where
  owners := sound.owners
  registered := sound.registered
  ordered := sound.ordered
  unrun := sound.unrun
  ran := sound.ran_witness (by simp)
  quiet := sound.quiet_witness fun b hb => by
    rw [← Option.some.inj hb]
    exact unreleased
  released_lt hb := (released_witness_released.mp hb).elim sound.released_lt fun same =>
    sound.owner_lt (same ▸ owner_core found)
  core_open {j core'} found' hopen hb := by
    rcases released_witness_released.mp hb with hb | same
    · exact sound.core_open found' hopen hb
    -- Nobody else has this backend, and its own session is closed.
    · obtain rfl := sound.core_inj found' found same
      obtain rfl := Option.some.inj (found.symm.trans found')
      simp [closed] at hopen
  av_open opened hb := (released_witness_released.mp hb).elim (sound.av_open opened)
    fun same => sound.core_ne_av found opened.1 same.symm
  av_released := sound.av_released_witness _

theorem release_av (sound : Sound closing pending hub) {a : Nat} {av av' : AvSession β}
    (opened : hub.AvOpen a av) (same : av.backend.Same av'.backend)
    (released : av'.released = true) :
    Sound closing pending
      ((hub.witness (.released av.backend.id av.backend.label)).setAv a av') where
  owners := by
    have howners : ((hub.witness (.released av.backend.id av.backend.label)).setAv a av').owners =
        hub.owners := congrArg (hub.cores.map (·.backend.id) ++ ·) (map_set_of_eq opened.1 same.1)
    rw [howners]
    exact sound.owners
  registered := sound.registered
  ordered := sound.ordered
  unrun := sound.unrun
  ran := sound.ran_witness (by simp)
  quiet := sound.quiet_witness fun b hb => by
    rw [← Option.some.inj hb]
    exact sound.av_open opened
  released_lt hb := (released_witness_released.mp hb).elim sound.released_lt fun same =>
    sound.owner_lt (same ▸ owner_av opened.1)
  core_open found' hopen' hb := (released_witness_released.mp hb).elim
    (sound.core_open found' hopen') (sound.core_ne_av found' opened.1)
  av_open {a' session} := fun ⟨found', hopen'⟩ hb => by
    rcases getElem?_set_cases found' with ⟨-, rfl⟩ | ⟨hne, found'⟩
    · rw [released] at hopen'
      cases hopen'
    · rcases released_witness_released.mp hb with hb | same
      · exact sound.av_open ⟨found', hopen'⟩ hb
      · exact hne (sound.av_inj found' opened.1 same)
  av_released {a' session} found' hreleased := by
    rcases getElem?_set_cases found' with ⟨-, rfl⟩ | ⟨-, found'⟩
    · rw [same.1, same.2]
      change _ ∈ (hub.witness _).happenings.toList
      rw [toList_witness]
      exact List.mem_append_right _ (List.mem_singleton_self _)
    · exact sound.av_released_witness _ found' hreleased

end Sound

end Hub

end ToxEvents
