import ToxEvents.Proofs.Session.Move
import ToxEvents.Proofs.Session.Sound
set_option autoImplicit false

namespace ToxEvents.Hub.Sound

variable {β : Type} [Source β] {hub : Hub β} {closing : Option Nat} {pending : List Registration}

theorem releaseAv (sound : Sound closing pending hub) (a : Nat) :
    Sound closing pending (hub.releaseAv a) := by
  rcases hub.av_cases a with ⟨av, opened⟩ | shut
  · have hset : Sound closing pending
        ((hub.witness (.released av.backend.id av.backend.label)).setAv a
          { av with backend := drained av.backend, released := true }) :=
      sound.release_av opened ⟨rfl, rfl⟩ rfl
    rw [releaseAv_of_open opened]
    exact hset.note _
  · rw [releaseAv_of_shut shut]
    exact sound

theorem closeAv (sound : Sound closing pending hub) (a : Nat) :
    Sound closing pending (hub.closeAv a) := by
  rcases hub.closeAv_cases a with hclose | ⟨av, slot, found, -, hclose⟩
  · rw [hclose]
    exact sound.releaseAv a
  · have hset : Sound closing pending (hub.setAv a { av with slot := none }) :=
      sound.setAv found (.refl _) rfl
    rw [hclose]
    exact (hset.removeSlot av.core slot).releaseAv a

theorem dropAv (sound : Sound closing pending hub) (a : Nat) :
    Sound closing pending (hub.dropAv a) := by
  rcases hub.dropAv_cases a with hdrop | ⟨av, found, hdrop⟩
  · rw [hdrop]
    exact sound.closeAv a
  · have hset : Sound closing pending (hub.setAv a { av with dropped := true }) :=
      sound.setAv found (.refl _) rfl
    rw [hdrop]
    exact hset.closeAv a

theorem react (sound : Sound closing pending hub) (reaction : Reaction Nat) :
    Sound closing pending (hub.react reaction) := by
  refine react_of ?_ ?_ reaction sound
  · intro hub a sound
    exact sound.closeAv a
  · intro hub a sound
    exact sound.dropAv a

/-- A call takes the registration from those still to be called to those that have been. -/
theorem call {r : Registration} (sound : Sound closing (r :: pending) hub) :
    Sound closing pending (hub.call r).2 := by
  have hinvoked : Sound closing pending { hub with invoked := hub.invoked.push r.id } :=
    { sound with
      registered := fun n => by
        refine Nat.le_trans (Nat.le_of_eq ?_) (sound.registered n)
        change List.count n ((hub.invoked.push r.id).toList ++ _ ++ _) = _
        rw [Array.toList_push, List.map_cons, List.append_assoc hub.invoked.toList [r.id]]
        rfl
      unrun := fun r' member => sound.unrun r' (List.mem_cons_of_mem r member) }
  cases hcallback : r.callback with
  | release a =>
    rw [call_of_release hcallback]
    exact hinvoked.releaseAv a
  | user label count reaction =>
    have hcount : count = 0 := by
      have hunrun := sound.unrun r (List.mem_append_left _ (List.mem_cons_self ..))
      rwa [hcallback] at hunrun
    have hran := hinvoked.witness (h := .ran label (count + 1)) (by simp [Happening.Releases])
      (by simp [Happening.backend?]) (by rintro _ _ ⟨⟩; omega)
    rw [call_of_user hcallback]
    exact hran.react reaction

theorem callEach {rs : List Registration} (sound : Sound closing (rs ++ pending) hub) :
    Sound closing pending (hub.callEach rs) := by
  induction rs generalizing hub with
  | nil => exact sound
  | cons r rs ih => exact ih sound.call

theorem closeCore (sound : Sound none [] hub) (i : Nat) : Sound none [] (hub.closeCore i) := by
  rcases hub.core_cases i with ⟨core, table, opened⟩ | shut
  · obtain ⟨core', found, same, closed⟩ := Keeps.closing opened table.live
    have hdetached := sound.detach opened
    have hcalled : Sound (some i) [] ((hub.detach i core table).callEach table.live) := by
      rw [← List.append_nil table.live] at hdetached
      exact hdetached.callEach
    have hunreleased := hcalled.core_open found (.inr rfl)
    -- The order of the release and of the last change of the session makes no difference.
    have hset : Sound none []
        (((hub.detach i core table).callEach table.live).setCore i ⟨drained core.backend, none⟩) :=
      hcalled.setCore found ⟨same.1.symm, same.2.symm⟩ List.nil_subperm (by simp) (by simp)
        (by simp)
    have hlt := (List.getElem?_eq_some_iff.mp found).1
    have hreleased := hset.release_core (List.getElem?_set_self hlt) rfl
      (same.1 ▸ hunreleased) core.backend.label
    rw [closeCore_of_open opened]
    exact hreleased.note _
  · rw [closeCore_of_shut shut]
    exact sound

theorem openCore (sound : Sound none [] hub) (name : String) (source : β) :
    Sound none [] (hub.openCore name source) := by
  rw [openCore_eq]
  cases hub.core? name with
  | none => exact sound.withCore name source
  | some old => exact (sound.withCore name source).closeCore old

theorem openAv (sound : Sound none [] hub) (name : String) (i : Nat) (source : β) :
    Sound none [] (hub.openAv name i source).2 := by
  rcases hub.core_cases i with ⟨core, table, opened⟩ | shut
  · rw [openAv_of_open opened]
    cases hub.av? name with
    | none => exact sound.withAv opened name source
    | some old => exact (sound.withAv opened name source).dropAv old
  · have howners (b : Nat) : hub.owners.count b ≤ if b < hub.backends + 1 then 1 else 0 := by
      have hcount := sound.owners b
      split at hcount <;> split <;> omega
    rw [openAv_of_shut shut]
    exact { sound with
      owners := howners
      released_lt := fun hb => Nat.lt_succ_of_lt (sound.released_lt hb) }

theorem tickCore (sound : Sound none [] hub) (i : Nat) : Sound none [] (hub.tickCore i).2 := by
  rcases hub.core_cases i with ⟨core, table, opened⟩ | shut
  · have hunreleased := sound.core_open opened.1 (.inl (by rw [opened.2]; rfl))
    have hticked : Sound none [] (hub.witness (.ticked core.backend.id core.backend.label)) :=
      sound.witness (by simp [Happening.Releases]) (by simpa [Happening.backend?]) (by simp)
    rw [tickCore_of_open opened]
    exact hticked.setCore opened.1 ⟨rfl, rfl⟩ (.refl _) (fun _ h => sound.ordered ⟨opened.1, h⟩)
      id fun _ _ h => h
  · rw [tickCore_of_shut shut]
    exact sound

theorem tickAv (sound : Sound closing pending hub) (a : Nat) :
    Sound closing pending (hub.tickAv a).2 := by
  rcases hub.av_cases a with ⟨av, opened⟩ | shut
  · have hunreleased := sound.av_open opened
    have hticked : Sound closing pending
        (hub.witness (.ticked av.backend.id av.backend.label)) :=
      sound.witness (by simp [Happening.Releases]) (by simpa [Happening.backend?]) (by simp)
    rw [tickAv_of_open opened]
    exact hticked.setAv opened.1 ⟨rfl, rfl⟩ rfl
  · rw [tickAv_of_shut shut]
    exact sound

theorem changeCall (sound : Sound closing pending hub) (a : Nat) (friend : FriendNumber)
    (flags : CallFlags) : Sound closing pending (hub.changeCall a friend flags).2 := by
  rcases hub.av_cases a with ⟨av, opened⟩ | shut
  · have hunreleased := sound.av_open opened
    have hchanged : Sound closing pending
        (hub.witness (.callChanged av.backend.id av.backend.label friend flags.mask)) :=
      sound.witness (by simp [Happening.Releases]) (by simpa [Happening.backend?]) (by simp)
    rw [changeCall_of_open opened]
    have hset : Sound closing pending
        ((hub.witness (.callChanged av.backend.id av.backend.label friend flags.mask)).setAv a
          { av with backend := { av.backend with
              source := (Source.changeCall friend flags.mask av.backend.source).2 } }) :=
      hchanged.setAv opened.1 ⟨rfl, rfl⟩ rfl
    exact hset.note _
  · rw [changeCall_of_shut shut]
    exact sound

/-- Every move keeps a hub sound, fair or not. -/
theorem move {fair : Prop} {left : Hub β} (sound : Sound none [] hub) (move : hub.Move fair left) :
    Sound none [] left := by
  cases move with
  | stay => exact sound
  | openCore name source => exact sound.openCore name source
  | openAv name i source => exact sound.openAv name i source
  | tickCore i log => exact { sound.tickCore i with }
  | tickAv a log => exact { sound.tickAv a with }
  | closeCore coreNames i =>
    have hnames : Sound none [] { hub with coreNames } := { sound with }
    exact hnames.closeCore i
  | closeAv a => exact sound.closeAv a
  | dropAv a => exact sound.dropAv a
  | @addCallback left handle i label reaction added =>
    rcases hub.core_cases i with ⟨core, table, opened⟩ | shut
    · rw [addCallback_of_open opened] at added
      obtain ⟨-, rfl⟩ := Prod.mk.inj added
      have hunrun : (Callback.user label 0 reaction).Unrun := rfl
      exact { sound.register opened hunrun with }
    · rw [addCallback_of_shut shut] at added
      cases added
  | @removeCallback handle i label held issued =>
    have hhandles : Sound none [] { hub with handles := forget label hub.handles } :=
      { sound with }
    exact hhandles.removeSlot i handle.slot
  | changeCall a friend flags => exact sound.changeCall a friend flags

end ToxEvents.Hub.Sound
