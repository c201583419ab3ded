import ToxEvents.Proofs.Session.Finality
import ToxEvents.Proofs.Session.Linked
set_option autoImplicit false

namespace ToxEvents

def Callback.av? : Callback → Option Nat
  | release a => some a
  | user .. => none

theorem Callback.av?_eq_some {callback : Callback} {a : Nat} :
    callback.av? = some a ↔ callback = .release a := by
  cases callback <;> simp [av?]

namespace Hub

variable {β : Type} {hub left : Hub β} {i j s a b : Nat}

def entries (i : Nat) (hub : Hub β) : List (Nat × Registration) :=
  (hub.cores[i]?.bind (·.onClose)).elim [] SlotTable.entries

theorem entries_of_open {core : CoreSession β} {table : SlotTable Registration}
    (opened : hub.CoreOpen i core table) : hub.entries i = table.entries := by
  unfold entries
  rw [opened.1, Option.bind_some, opened.2]
  rfl

theorem entries_of_shut (shut : hub.CoreShut i) : hub.entries i = [] := by
  unfold entries
  cases found : hub.cores[i]? with
  | none => rfl
  | some core =>
    rw [Option.bind_some, shut core found]
    rfl

theorem entries_setCore {core core' : CoreSession β} (found : hub.cores[j]? = some core) :
    (hub.setCore j core').entries i =
      if i = j then core'.onClose.elim [] SlotTable.entries else hub.entries i := by
  unfold entries
  change ((hub.cores.set j core')[i]?.bind _).elim _ _ = _
  by_cases hij : i = j
  · subst i
    rw [List.getElem?_set_self (List.getElem?_eq_some_iff.mp found).1, if_pos rfl]
    rfl
  · rw [List.getElem?_set_ne (Ne.symm hij), if_neg hij]

theorem entries_append (backend : Backend β)
    (appended : left.cores = hub.cores ++ [⟨backend, some {}⟩]) :
    left.entries i = hub.entries i := by
  unfold entries
  rw [appended]
  rcases Nat.lt_trichotomy i hub.cores.length with hlt | rfl | hgt
  · rw [List.getElem?_append_left hlt]
  · rw [List.getElem?_concat_length, List.getElem?_eq_none (Nat.le_refl _)]
    rfl
  · have hbeyond : (hub.cores ++ [(⟨backend, some {}⟩ : CoreSession β)]).length ≤ i := by
      rw [List.length_append]
      exact hgt
    rw [List.getElem?_eq_none hbeyond, List.getElem?_eq_none (Nat.le_of_lt hgt)]

theorem entries_removeSlot (i j slot : Nat) (hub : Hub β) :
    (hub.removeSlot j slot).entries i =
      if i = j then (hub.entries i).filter (·.1 ≠ slot) else hub.entries i := by
  rcases hub.core_cases j with ⟨core, table, opened⟩ | shut
  · rw [removeSlot_of_open opened]
    change (hub.setCore j _).entries i = _
    rw [entries_setCore opened.1]
    by_cases hij : i = j
    · subst i
      rw [if_pos rfl, if_pos rfl, entries_of_open opened, ← SlotTable.entries_remove]
      rfl
    · rw [if_neg hij, if_neg hij]
  · obtain ⟨records, hremove⟩ := removeSlot_of_shut shut slot
    rw [hremove]
    change hub.entries i = _
    by_cases hij : i = j
    · subst i
      rw [if_pos rfl, entries_of_shut shut, List.filter_nil]
    · rw [if_neg hij]

theorem sublist_entries_removeSlot (i j slot : Nat) (hub : Hub β) :
    ((hub.removeSlot j slot).entries i).Sublist (hub.entries i) := by
  rw [entries_removeSlot]
  split
  · exact List.filter_sublist
  · exact .refl _

theorem entries_register {core : CoreSession β} {table : SlotTable Registration}
    (opened : hub.CoreOpen j core table) (callback : Callback) :
    (hub.register core table j callback).entries i = hub.entries i ++
      if i = j then [(table.slots.length, ⟨hub.registrations, callback⟩)] else [] := by
  change (hub.setCore j { core with
    onClose := some (table.add ⟨hub.registrations, callback⟩).1 }).entries i = _
  rw [entries_setCore opened.1]
  by_cases hij : i = j
  · subst i
    rw [if_pos rfl, if_pos rfl, entries_of_open opened]
    exact SlotTable.entries_add table _
  · rw [if_neg hij, if_neg hij, List.append_nil]

theorem entries_withAv {core : CoreSession β} {table : SlotTable Registration}
    (opened : hub.CoreOpen j core table) (name : String) (source : β) :
    (hub.withAv name core table j source).entries i = hub.entries i ++
      if i = j then
        [(table.slots.length, ⟨hub.registrations, .release hub.avs.length⟩)]
      else [] :=
  entries_register opened (.release hub.avs.length)

theorem Holds.mem_entries {P : Registration → Prop} (holds : hub.Holds i s P)
    (hopen : hub.IsOpen i) : ∃ r, (s, r) ∈ hub.entries i ∧ P r := by
  obtain ⟨core, table, opened⟩ := hopen
  rw [entries_of_open opened]
  exact holds.2 core table opened

theorem isOpen_of_mem_entries {entry : Nat × Registration} (member : entry ∈ hub.entries i) :
    hub.IsOpen i := by
  refine (hub.core_cases i).resolve_right fun shut => ?_
  rw [entries_of_shut shut] at member
  cases member

theorem entries_inj {r r' : Registration} (member : (s, r) ∈ hub.entries i)
    (member' : (s, r') ∈ hub.entries i) : r = r' := by
  obtain ⟨core, table, opened⟩ := isOpen_of_mem_entries member
  rw [entries_of_open opened] at member member'
  have hsame := (SlotTable.mem_entries.mp member).symm.trans (SlotTable.mem_entries.mp member')
  exact Option.some.inj (Option.some.inj hsame)

def users (i : Nat) (hub : Hub β) : List Registration :=
  ((hub.entries i).map Prod.snd).filter (·.callback.av?.isNone)

/-- The callback is a user's, or of a session that is not closed. -/
def Wants (hub : Hub β) (callback : Callback) : Prop := ∀ a ∈ callback.av?, ¬ hub.AvClosed a

instance (hub : Hub β) (callback : Callback) : Decidable (hub.Wants callback) :=
  inferInstanceAs (Decidable (∀ a ∈ callback.av?, ¬ hub.AvClosed a))

/-- The callbacks of sessions that are closed leave the tables, those of new sessions come last, and
all others stay in their slots and in order. -/
structure Turns (before after : Hub β) : Prop where
  keeps : before.Keeps after
  entries : ∀ {i}, after.IsOpen i → ∃ new,
    after.entries i = (before.entries i).filter (after.Wants ·.2.callback) ++ new ∧
      ∀ entry ∈ new, ∃ a, entry.2.callback = .release a ∧ before.avs.length ≤ a

theorem IsOpen.lt (hopen : hub.IsOpen i) : i < hub.cores.length := by
  obtain ⟨core, table, found, -⟩ := hopen
  exact (List.getElem?_eq_some_iff.mp found).1

theorem entries_of_le (beyond : hub.cores.length ≤ i) : hub.entries i = [] := by
  unfold entries
  rw [List.getElem?_eq_none beyond]
  rfl

theorem Keeps.core_lt (keeps : hub.Keeps left) (hlt : i < hub.cores.length) :
    i < left.cores.length := by
  obtain ⟨core', found', -⟩ := keeps.core (List.getElem?_eq_getElem hlt)
  exact (List.getElem?_eq_some_iff.mp found').1

theorem Keeps.isOpen (keeps : hub.Keeps left) (hopen : left.IsOpen i)
    (hlt : i < hub.cores.length) : hub.IsOpen i := by
  refine (hub.core_cases i).resolve_right fun shut => ?_
  obtain ⟨core, table, found, htable⟩ := hopen
  have found₀ := List.getElem?_eq_getElem hlt
  obtain ⟨core', found', kept⟩ := keeps.core found₀
  obtain rfl := Option.some.inj (found.symm.trans found')
  rw [kept.closed (shut _ found₀)] at htable
  cases htable

theorem Keeps.avs_le (keeps : hub.Keeps left) : hub.avs.length ≤ left.avs.length := by
  apply Nat.le_of_not_lt
  intro hlt
  obtain ⟨av, found, -⟩ := keeps.av (List.getElem?_eq_getElem hlt)
  rw [List.getElem?_eq_none (Nat.le_refl _)] at found
  cases found

/-- What is closed stays closed, so what is wanted later was wanted before. -/
theorem filter_wants (keeps : hub.Keeps left) (entries : List (Nat × Registration)) :
    (entries.filter (hub.Wants ·.2.callback)).filter (left.Wants ·.2.callback) =
      entries.filter (left.Wants ·.2.callback) := by
  rw [List.filter_filter]
  refine List.filter_congr fun entry _ => ?_
  have hbefore (wanted : left.Wants entry.2.callback) : hub.Wants entry.2.callback :=
    fun a ha closed => wanted a ha (keeps.avClosed closed)
  by_cases hwanted : left.Wants entry.2.callback
  · simp [hwanted, hbefore hwanted]
  · simp [hwanted]

namespace Turns

theorem trans {third : Hub β} (first : hub.Turns left) (second : left.Turns third) :
    hub.Turns third where
  keeps := first.keeps.trans second.keeps
  entries {i} hopen := by
    obtain ⟨new', heq', hnew'⟩ := second.entries hopen
    have hlater (entry : Nat × Registration) (member : entry ∈ new') :
        ∃ a, entry.2.callback = .release a ∧ hub.avs.length ≤ a := by
      obtain ⟨a, ha, hle⟩ := hnew' entry member
      exact ⟨a, ha, Nat.le_trans first.keeps.avs_le hle⟩
    by_cases hlt : i < left.cores.length
    · obtain ⟨new, heq, hnew⟩ := first.entries (second.keeps.isOpen hopen hlt)
      refine ⟨new.filter (third.Wants ·.2.callback) ++ new', ?_, fun entry member => ?_⟩
      · rw [heq', heq, List.filter_append, filter_wants second.keeps, List.append_assoc]
      · rcases List.mem_append.mp member with member | member
        · exact hnew entry (List.mem_filter.mp member).1
        · exact hlater entry member
    -- A core session that is new has no table before.
    · have hnew : ¬ i < hub.cores.length := fun h => hlt (first.keeps.core_lt h)
      rw [entries_of_le (Nat.le_of_not_lt hlt)] at heq'
      rw [entries_of_le (Nat.le_of_not_lt hnew)]
      exact ⟨new', heq', hlater⟩

theorem users (turns : hub.Turns left) (hopen : left.IsOpen i) : left.users i = hub.users i := by
  obtain ⟨new, heq, hnew⟩ := turns.entries hopen
  have hnone : (new.map Prod.snd).filter (·.callback.av?.isNone) = [] := by
    refine List.filter_eq_nil_iff.mpr fun r member => ?_
    obtain ⟨entry, hentry, rfl⟩ := List.mem_map.mp member
    obtain ⟨a, ha, -⟩ := hnew entry hentry
    simp [ha, Callback.av?]
  unfold Hub.users
  rw [heq, List.map_append, List.filter_append, hnone, List.append_nil, List.filter_map,
    List.filter_map, List.filter_filter]
  congr 1
  refine List.filter_congr fun entry _ => ?_
  cases hav : entry.2.callback.av? <;> simp [hav, Wants]

end Turns

theorem avs_removeSlot (j slot : Nat) (hub : Hub β) : (hub.removeSlot j slot).avs = hub.avs := by
  rcases hub.removeSlot_cases j slot with ⟨core, table, -, hremove⟩ | ⟨records, hremove⟩
  · rw [hremove]
    rfl
  · rw [hremove]
    rfl

theorem av?_found {name : String} (named : hub.av? name = some a) :
    ∃ av, hub.avs[a]? = some av := by
  have hany := (Option.filter_eq_some_iff.mp named).2
  cases found : hub.avs[a]? with
  | none => simp [found] at hany
  | some av => exact ⟨av, rfl⟩

variable [Source β]

theorem entries_releaseAv (i a : Nat) (hub : Hub β) :
    (hub.releaseAv a).entries i = hub.entries i := by
  rcases hub.av_cases a with ⟨av, opened⟩ | shut
  · rw [releaseAv_of_open opened]
    rfl
  · rw [releaseAv_of_shut shut]

theorem avs_releaseAv_of_ne (ne : b ≠ a) : (hub.releaseAv a).avs[b]? = hub.avs[b]? := by
  rcases hub.av_cases a with ⟨av, opened⟩ | shut
  · rw [releaseAv_of_open opened]
    exact List.getElem?_set_ne (Ne.symm ne)
  · rw [releaseAv_of_shut shut]

theorem avs_closeAv_of_ne (ne : b ≠ a) : (hub.closeAv a).avs[b]? = hub.avs[b]? := by
  rcases hub.slot_cases a with idle | ⟨av, slot, found, held⟩
  · rw [closeAv_of_idle idle]
    exact avs_releaseAv_of_ne ne
  · have hset : (hub.setAv a { av with slot := none }).avs[b]? = hub.avs[b]? :=
      List.getElem?_set_ne (Ne.symm ne)
    rw [closeAv_of_held found held, avs_releaseAv_of_ne ne, avs_removeSlot]
    exact hset

theorem avClosed_releaseAv {av : AvSession β} (found : hub.avs[a]? = some av) :
    (hub.releaseAv a).AvClosed a := by
  rw [avClosed_iff]
  rcases hub.av_cases a with ⟨av', opened⟩ | shut
  · have hlt := (List.getElem?_eq_some_iff.mp found).1
    rw [releaseAv_of_open opened]
    exact ⟨_, List.getElem?_set_self hlt, rfl⟩
  · rw [releaseAv_of_shut shut]
    exact ⟨av, found, shut av found⟩

theorem avClosed_closeAv {av : AvSession β} (found : hub.avs[a]? = some av) :
    (hub.closeAv a).AvClosed a := by
  rcases hub.slot_cases a with idle | ⟨av', s, found', held⟩
  · rw [closeAv_of_idle idle]
    exact avClosed_releaseAv found
  · have hremoved : ((hub.setAv a { av' with slot := none }).removeSlot av'.core s).avs[a]? =
        some { av' with slot := none } := by
      rw [avs_removeSlot]
      exact List.getElem?_set_self (List.getElem?_eq_some_iff.mp found).1
    rw [closeAv_of_held found' held]
    exact avClosed_releaseAv hremoved

theorem avClosed_dropAv {av : AvSession β} (found : hub.avs[a]? = some av) :
    (hub.dropAv a).AvClosed a := by
  rcases hub.dropAv_cases a with hdrop | ⟨av', found', hdrop⟩
  · rw [hdrop]
    exact avClosed_closeAv found
  · have hset : (hub.setAv a { av' with dropped := true }).avs[a]? =
        some { av' with dropped := true } :=
      List.getElem?_set_self (List.getElem?_eq_some_iff.mp found').1
    rw [hdrop]
    exact avClosed_closeAv hset

/-- After the callbacks the tables do not change. -/
theorem entries_closeCore {core : CoreSession β} {table : SlotTable Registration}
    (opened : hub.CoreOpen i core table) (j : Nat) :
    (hub.closeCore i).entries j = ((hub.detach i core table).callEach table.live).entries j := by
  obtain ⟨core', found, -, closed⟩ := Keeps.closing opened table.live
  rw [closeCore_of_open opened]
  change (((hub.detach i core table).callEach table.live).setCore i _).entries j = _
  rw [entries_setCore found]
  split
  case isTrue same =>
    have hshut : ((hub.detach i core table).callEach table.live).CoreShut j := by
      subst j
      intro core'' found'
      rw [← Option.some.inj (found.symm.trans found')]
      exact closed
    exact (entries_of_shut hshut).symm
  case isFalse => rfl

theorem Keeps.close_released {core : CoreSession β} {table : SlotTable Registration}
    (opened : hub.CoreOpen i core table) :
    ((hub.detach i core table).callEach table.live).Keeps (hub.closeCore i) := by
  obtain ⟨core', found, same, -⟩ := Keeps.closing opened table.live
  have hset : ((hub.detach i core table).callEach table.live).Keeps
      (((hub.detach i core table).callEach table.live).setCore i ⟨drained core.backend, none⟩) :=
    .setCore found ⟨⟨same.1.symm, same.2.symm⟩, fun _ => rfl⟩
  rw [closeCore_of_open opened]
  exact hset.trans (.of_eq rfl rfl)

theorem avs_closeCore {core : CoreSession β} {table : SlotTable Registration}
    (opened : hub.CoreOpen i core table) :
    (hub.closeCore i).avs = ((hub.detach i core table).callEach table.live).avs := by
  rw [closeCore_of_open opened]
  rfl

end Hub

end ToxEvents
