import Mathlib.Data.List.Nodup
import ToxEvents.Proofs.Session.Operations
set_option autoImplicit false

namespace ToxEvents

theorem getElem?_set_cases {α : Type} {l : List α} {i j : Nat} {x y : α}
    (found : (l.set i y)[j]? = some x) : (j = i ∧ x = y) ∨ (j ≠ i ∧ l[j]? = some x) := by
  rw [List.getElem?_set] at found
  split at found
  case isTrue hi =>
    split at found
    · exact .inl ⟨hi.symm, (Option.some.inj found).symm⟩
    · cases found
  case isFalse hi => exact .inr ⟨Ne.symm hi, found⟩

theorem exists_split {α : Type} {l : List α} {i : Nat} {x : α} (found : l[i]? = some x) :
    ∃ before after, l = before ++ x :: after ∧ ∀ y, l.set i y = before ++ y :: after := by
  obtain ⟨hi, hx⟩ := List.getElem?_eq_some_iff.mp found
  refine ⟨l.take i, l.drop (i + 1), ?_, fun y => ?_⟩
  · rw [← hx, ← List.drop_eq_getElem_cons hi, List.take_append_drop]
  · rw [List.set_eq_take_append_cons_drop, if_pos hi]

theorem map_set_of_eq {α γ : Type} {f : α → γ} {l : List α} {i : Nat} {x y : α}
    (found : l[i]? = some x) (same : f y = f x) : (l.set i y).map f = l.map f := by
  obtain ⟨before, after, hl, hset⟩ := exists_split found
  rw [hset, hl, List.map_append, List.map_append, List.map_cons, List.map_cons, same]

theorem getElem?_concat_cases {α : Type} {l : List α} {i : Nat} {x y : α}
    (found : (l ++ [y])[i]? = some x) : l[i]? = some x ∨ (i = l.length ∧ x = y) := by
  rcases Nat.lt_trichotomy i l.length with hlt | rfl | hgt
  · rw [List.getElem?_append_left hlt] at found
    exact .inl found
  · rw [List.getElem?_concat_length] at found
    exact .inr ⟨rfl, (Option.some.inj found).symm⟩
  · have hlength : (l ++ [y]).length ≤ i := by
      rw [List.length_append, List.length_singleton]
      omega
    rw [List.getElem?_eq_none hlength] at found
    cases found

theorem getElem?_inj_of_nodup_map {α γ : Type} {f : α → γ} {l : List α} (nodup : (l.map f).Nodup)
    {i j : Nat} {x y : α} (hi : l[i]? = some x) (hj : l[j]? = some y) (same : f x = f y) :
    i = j := by
  have hlt : i < (l.map f).length := by
    rw [List.length_map]
    exact (List.getElem?_eq_some_iff.mp hi).1
  refine (List.getElem?_inj hlt nodup).mp ?_
  rw [List.getElem?_map, List.getElem?_map, hi, hj, Option.map_some, Option.map_some, same]

namespace Backend

variable {β : Type}

/-- The same backend, whatever its source has done. -/
def Same (before after : Backend β) : Prop := after.id = before.id ∧ after.label = before.label

theorem Same.refl (backend : Backend β) : Same backend backend := ⟨rfl, rfl⟩

theorem Same.trans {a b c : Backend β} (first : Same a b) (second : Same b c) : Same a c :=
  ⟨second.1.trans first.1, second.2.trans first.2⟩

end Backend

structure CoreSession.Keeps {β : Type} (before after : CoreSession β) : Prop where
  backend : before.backend.Same after.backend
  closed : before.onClose = none → after.onClose = none

structure AvSession.Keeps {β : Type} (before after : AvSession β) : Prop where
  backend : before.backend.Same after.backend
  core : after.core = before.core
  released : before.released = true → after.released = true

namespace Hub

variable {β : Type}

structure Keeps (before after : Hub β) : Prop where
  core : ∀ {i : Nat} {core : CoreSession β}, before.cores[i]? = some core →
    ∃ core', after.cores[i]? = some core' ∧ core.Keeps core'
  av : ∀ {a : Nat} {av : AvSession β}, before.avs[a]? = some av →
    ∃ av', after.avs[a]? = some av' ∧ av.Keeps av'

namespace Keeps

variable {hub : Hub β}

theorem of_eq {before after : Hub β} (cores : after.cores = before.cores)
    (avs : after.avs = before.avs) : Keeps before after where
  core found := ⟨_, cores ▸ found, ⟨.refl _, fun h => h⟩⟩
  av found := ⟨_, avs ▸ found, ⟨.refl _, rfl, fun h => h⟩⟩

theorem trans {first second third : Hub β} (h : Keeps first second) (h' : Keeps second third) :
    Keeps first third where
  core found := by
    obtain ⟨core', found', keeps⟩ := h.core found
    obtain ⟨core'', found'', keeps'⟩ := h'.core found'
    exact ⟨core'', found'', keeps.backend.trans keeps'.backend,
      fun closed => keeps'.closed (keeps.closed closed)⟩
  av found := by
    obtain ⟨av', found', keeps⟩ := h.av found
    obtain ⟨av'', found'', keeps'⟩ := h'.av found'
    exact ⟨av'', found'', keeps.backend.trans keeps'.backend, keeps'.core.trans keeps.core,
      fun released => keeps'.released (keeps.released released)⟩

theorem setCore {i : Nat} {core core' : CoreSession β} (found : hub.cores[i]? = some core)
    (keeps : core.Keeps core') : Keeps hub (hub.setCore i core') where
  core {j session} found' := by
    by_cases hj : i = j
    · subst j
      obtain rfl := Option.some.inj (found.symm.trans found')
      have hlt := (List.getElem?_eq_some_iff.mp found).1
      exact ⟨core', List.getElem?_set_self hlt, keeps⟩
    · exact ⟨session, (List.getElem?_set_ne hj).trans found', ⟨.refl _, fun h => h⟩⟩
  av found := ⟨_, found, ⟨.refl _, rfl, fun h => h⟩⟩

theorem setAv {a : Nat} {av av' : AvSession β} (found : hub.avs[a]? = some av)
    (keeps : av.Keeps av') : Keeps hub (hub.setAv a av') where
  core found := ⟨_, found, ⟨.refl _, fun h => h⟩⟩
  av {b session} found' := by
    by_cases hb : a = b
    · subst b
      obtain rfl := Option.some.inj (found.symm.trans found')
      have hlt := (List.getElem?_eq_some_iff.mp found).1
      exact ⟨av', List.getElem?_set_self hlt, keeps⟩
    · exact ⟨session, (List.getElem?_set_ne hb).trans found', ⟨.refl _, rfl, fun h => h⟩⟩

theorem append (cores : List (CoreSession β)) (avs : List (AvSession β)) {after : Hub β}
    (hcores : after.cores = hub.cores ++ cores) (havs : after.avs = hub.avs ++ avs) :
    Keeps hub after where
  core {i core} found := by
    have hlt := (List.getElem?_eq_some_iff.mp found).1
    refine ⟨core, ?_, ⟨.refl _, fun h => h⟩⟩
    rw [hcores, List.getElem?_append_left hlt, found]
  av {a av} found := by
    have hlt := (List.getElem?_eq_some_iff.mp found).1
    refine ⟨av, ?_, ⟨.refl _, rfl, fun h => h⟩⟩
    rw [havs, List.getElem?_append_left hlt, found]

theorem setCore_of_open {i : Nat} {core core' : CoreSession β} {table : SlotTable Registration}
    (opened : hub.CoreOpen i core table) (same : core.backend.Same core'.backend) :
    Keeps hub (hub.setCore i core') :=
  .setCore opened.1 ⟨same, by simp [opened.2]⟩

theorem setTable {i : Nat} {core : CoreSession β} {table : SlotTable Registration}
    (opened : hub.CoreOpen i core table) (table' : Option (SlotTable Registration)) :
    Keeps hub (hub.setCore i { core with onClose := table' }) :=
  setCore_of_open opened (.refl _)

theorem register {i : Nat} {core : CoreSession β} {table : SlotTable Registration}
    (opened : hub.CoreOpen i core table) (callback : Callback) :
    Keeps hub (hub.register core table i callback) :=
  (setTable opened _).trans (.of_eq rfl rfl)

theorem detach {i : Nat} {core : CoreSession β} {table : SlotTable Registration}
    (opened : hub.CoreOpen i core table) : Keeps hub (hub.detach i core table) :=
  (setTable opened none).trans (.of_eq rfl rfl)

theorem removeSlot (hub : Hub β) (i slot : Nat) : Keeps hub (hub.removeSlot i slot) := by
  rcases hub.removeSlot_cases i slot with ⟨core, table, opened, hremove⟩ | ⟨records, hremove⟩
  · rw [hremove]
    exact (setTable opened _).trans (.of_eq rfl rfl)
  · rw [hremove]
    exact .of_eq rfl rfl

theorem addCallback (hub : Hub β) (i : Nat) (callback : Callback) :
    Keeps hub (hub.addCallback i callback).2 := by
  rcases hub.core_cases i with ⟨core, table, opened⟩ | shut
  · rw [addCallback_of_open opened]
    exact (register opened callback).trans (.of_eq rfl rfl)
  · rw [addCallback_of_shut shut]
    exact .of_eq rfl rfl

variable [Source β]

theorem releaseAv (hub : Hub β) (a : Nat) : Keeps hub (hub.releaseAv a) := by
  rcases hub.av_cases a with ⟨av, opened⟩ | shut
  · have hset : Keeps hub
        (hub.setAv a { av with backend := drained av.backend, released := true }) :=
      .setAv opened.1 ⟨⟨rfl, rfl⟩, rfl, fun _ => rfl⟩
    rw [releaseAv_of_open opened]
    exact hset.trans (.of_eq rfl rfl)
  · rw [releaseAv_of_shut shut]
    exact .of_eq rfl rfl

theorem closeAv (hub : Hub β) (a : Nat) : Keeps hub (hub.closeAv a) := by
  rcases hub.closeAv_cases a with hclose | ⟨av, slot, found, -, hclose⟩
  · rw [hclose]
    exact releaseAv hub a
  · have hset : Keeps hub (hub.setAv a { av with slot := none }) :=
      .setAv found ⟨.refl _, rfl, fun h => h⟩
    rw [hclose]
    exact (hset.trans (removeSlot _ av.core slot)).trans (releaseAv _ a)

theorem dropAv (hub : Hub β) (a : Nat) : Keeps hub (hub.dropAv a) := by
  rcases hub.dropAv_cases a with hdrop | ⟨av, found, hdrop⟩
  · rw [hdrop]
    exact closeAv hub a
  · have hset : Keeps hub (hub.setAv a { av with dropped := true }) :=
      .setAv found ⟨.refl _, rfl, fun h => h⟩
    rw [hdrop]
    exact hset.trans (closeAv _ a)

theorem react (hub : Hub β) (reaction : Reaction Nat) : Keeps hub (hub.react reaction) := by
  have hstart : Keeps hub hub := .of_eq rfl rfl
  refine react_of ?_ ?_ reaction hstart
  · intro left a keeps
    exact keeps.trans (closeAv left a)
  · intro left a keeps
    exact keeps.trans (dropAv left a)

theorem call (hub : Hub β) (r : Registration) : Keeps hub (hub.call r).2 := by
  cases hcallback : r.callback with
  | release a =>
    have hinvoked : Keeps hub { hub with invoked := hub.invoked.push r.id } := .of_eq rfl rfl
    rw [call_of_release hcallback]
    exact hinvoked.trans (releaseAv _ a)
  | user label count reaction =>
    have hran : Keeps hub
        (Hub.witness (.ran label (count + 1)) { hub with invoked := hub.invoked.push r.id }) :=
      .of_eq rfl rfl
    rw [call_of_user hcallback]
    exact hran.trans (react _ reaction)

theorem callEach (hub : Hub β) (rs : List Registration) : Keeps hub (hub.callEach rs) := by
  induction rs generalizing hub with
  | nil => exact .of_eq rfl rfl
  | cons r rs ih => exact (call hub r).trans (ih _)

theorem closing {i : Nat} {core : CoreSession β} {table : SlotTable Registration}
    (opened : hub.CoreOpen i core table) (rs : List Registration) :
    ∃ core', ((hub.detach i core table).callEach rs).cores[i]? = some core' ∧
      core.backend.Same core'.backend ∧ core'.onClose = none := by
  have hlt := (List.getElem?_eq_some_iff.mp opened.1).1
  have hdetached : (hub.detach i core table).cores[i]? = some { core with onClose := none } :=
    List.getElem?_set_self hlt
  obtain ⟨core', found, keeps⟩ := (callEach (hub.detach i core table) rs).core hdetached
  exact ⟨core', found, keeps.backend, keeps.closed rfl⟩

theorem closeCore (hub : Hub β) (i : Nat) : Keeps hub (hub.closeCore i) := by
  rcases hub.core_cases i with ⟨core, table, opened⟩ | shut
  · obtain ⟨core', found, same, closed⟩ := closing opened table.live
    have hcalled := (detach opened).trans (callEach _ table.live)
    have hset : Keeps ((hub.detach i core table).callEach table.live)
        (((hub.detach i core table).callEach table.live).setCore i ⟨drained core.backend, none⟩) :=
      .setCore found ⟨⟨same.1.symm, same.2.symm⟩, fun _ => rfl⟩
    rw [closeCore_of_open opened]
    exact (hcalled.trans hset).trans (.of_eq rfl rfl)
  · rw [closeCore_of_shut shut]
    exact .of_eq rfl rfl

theorem openCore (hub : Hub β) (name : String) (source : β) :
    Keeps hub (hub.openCore name source) := by
  have hnew : Keeps hub (hub.withCore name source) :=
    .append _ [] rfl (List.append_nil _).symm
  rw [openCore_eq]
  cases hub.core? name with
  | none => exact hnew
  | some old => exact hnew.trans (closeCore _ old)

theorem openAv (hub : Hub β) (name : String) (i : Nat) (source : β) :
    Keeps hub (hub.openAv name i source).2 := by
  rcases hub.core_cases i with ⟨core, table, opened⟩ | shut
  · have hnew : Keeps hub (hub.withAv name core table i source) :=
      (register opened (.release hub.avs.length)).trans
        (.append [] _ (List.append_nil _).symm rfl)
    rw [openAv_of_open opened]
    cases hub.av? name with
    | none => exact hnew
    | some old => exact hnew.trans (dropAv _ old)
  · rw [openAv_of_shut shut]
    exact .of_eq rfl rfl

theorem tickCore (hub : Hub β) (i : Nat) : Keeps hub (hub.tickCore i).2 := by
  rcases hub.core_cases i with ⟨core, table, opened⟩ | shut
  · have hset : Keeps hub (hub.setCore i { core with backend := ticked core.backend }) :=
      setCore_of_open opened ⟨rfl, rfl⟩
    rw [tickCore_of_open opened]
    exact hset.trans (.of_eq rfl rfl)
  · rw [tickCore_of_shut shut]
    exact .of_eq rfl rfl

theorem tickAv (hub : Hub β) (a : Nat) : Keeps hub (hub.tickAv a).2 := by
  rcases hub.av_cases a with ⟨av, opened⟩ | shut
  · have hset : Keeps hub (hub.setAv a { av with backend := ticked av.backend }) :=
      .setAv opened.1 ⟨⟨rfl, rfl⟩, rfl, fun h => h⟩
    rw [tickAv_of_open opened]
    exact hset.trans (.of_eq rfl rfl)
  · rw [tickAv_of_shut shut]
    exact .of_eq rfl rfl

theorem changeCall (hub : Hub β) (a : Nat) (friend : FriendNumber) (flags : CallFlags) :
    Keeps hub (hub.changeCall a friend flags).2 := by
  rcases hub.av_cases a with ⟨av, opened⟩ | shut
  · have hset : Keeps hub (hub.setAv a { av with backend := { av.backend with
        source := (Source.changeCall friend flags.mask av.backend.source).2 } }) :=
      .setAv opened.1 ⟨⟨rfl, rfl⟩, rfl, fun h => h⟩
    rw [changeCall_of_open opened]
    exact hset.trans (.of_eq rfl rfl)
  · rw [changeCall_of_shut shut]
    exact .of_eq rfl rfl

end Keeps

end Hub

end ToxEvents
