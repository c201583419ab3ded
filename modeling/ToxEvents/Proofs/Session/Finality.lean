import ToxEvents.Delivery.Transcript
import ToxEvents.Proofs.Session.Safety
set_option autoImplicit false

namespace ToxEvents

variable {β lam σ : Type}

def Happening.released? : Happening → Option Nat
  | released b _ => some b
  | _ => none

namespace Hub

def CoreClosed (i : Nat) (hub : Hub β) : Prop :=
  hub.cores[i]?.any fun core => core.onClose.isNone

def AvClosed (a : Nat) (hub : Hub β) : Prop :=
  hub.avs[a]?.any fun av => av.released

instance (i : Nat) (hub : Hub β) : Decidable (hub.CoreClosed i) :=
  inferInstanceAs (Decidable (_ = true))

instance (a : Nat) (hub : Hub β) : Decidable (hub.AvClosed a) :=
  inferInstanceAs (Decidable (_ = true))

structure Once (hub : Hub β) : Prop where
  released : (hub.happenings.toList.filterMap Happening.released?).Nodup
  quiet : hub.happenings.toList.Pairwise Happening.Allows
  invoked : hub.invoked.toList.Nodup
  ran : ∀ label count, .ran label count ∈ hub.happenings.toList → count = 1

variable {hub left : Hub β}

theorem coreClosed_iff {i : Nat} :
    hub.CoreClosed i ↔ ∃ core, hub.cores[i]? = some core ∧ core.onClose = none := by
  unfold CoreClosed
  cases hub.cores[i]? <;> simp

theorem avClosed_iff {a : Nat} :
    hub.AvClosed a ↔ ∃ av, hub.avs[a]? = some av ∧ av.released = true := by
  unfold AvClosed
  cases hub.avs[a]? <;> simp

theorem CoreClosed.shut {i : Nat} (closed : hub.CoreClosed i) : hub.CoreShut i := by
  obtain ⟨core, found, hclosed⟩ := coreClosed_iff.mp closed
  intro core' found'
  obtain rfl := Option.some.inj (found.symm.trans found')
  exact hclosed

theorem AvClosed.shut {a : Nat} (closed : hub.AvClosed a) : hub.AvShut a := by
  obtain ⟨av, found, hclosed⟩ := avClosed_iff.mp closed
  intro av' found'
  obtain rfl := Option.some.inj (found.symm.trans found')
  exact hclosed

theorem Keeps.coreClosed (keeps : hub.Keeps left) {i : Nat} (closed : hub.CoreClosed i) :
    left.CoreClosed i := by
  obtain ⟨core, found, hclosed⟩ := coreClosed_iff.mp closed
  obtain ⟨core', found', kept⟩ := keeps.core found
  exact coreClosed_iff.mpr ⟨core', found', kept.closed hclosed⟩

theorem Keeps.avClosed (keeps : hub.Keeps left) {a : Nat} (closed : hub.AvClosed a) :
    left.AvClosed a := by
  obtain ⟨av, found, hclosed⟩ := avClosed_iff.mp closed
  obtain ⟨av', found', kept⟩ := keeps.av found
  exact avClosed_iff.mpr ⟨av', found', kept.released hclosed⟩

theorem Sound.once (sound : Sound none [] hub) : hub.Once where
  released := by
    refine List.pairwise_filterMap.mpr (sound.quiet.imp ?_)
    intro earlier later allows b hb b' hb' same
    subst b'
    cases earlier with
    | released c label =>
      obtain rfl := Option.some.inj hb
      cases later with
      | released c' label' => exact allows c ⟨label, rfl⟩ hb'
      | _ => cases hb'
    | _ => cases hb
  quiet := sound.quiet
  invoked := by
    have hnodup := sound.invoked_nodup
    rw [List.map_nil, List.append_nil] at hnodup
    exact (List.nodup_append.mp hnodup).1
  ran _ _ := sound.ran

variable [Source β]

theorem Keeps.of_move {fair : Prop} (move : hub.Move fair left) : hub.Keeps left := by
  cases move with
  | stay => exact .of_eq rfl rfl
  | openCore name source => exact .openCore hub name source
  | openAv name i source => exact .openAv hub name i source
  | tickCore i log => exact (Keeps.tickCore hub i).trans (.of_eq rfl rfl)
  | tickAv a log => exact (Keeps.tickAv hub a).trans (.of_eq rfl rfl)
  | closeCore coreNames i =>
    have hnames : hub.Keeps { hub with coreNames } := .of_eq rfl rfl
    exact hnames.trans (.closeCore _ i)
  | closeAv a => exact .closeAv hub a
  | dropAv a => exact .dropAv hub a
  | @addCallback added' handle i label reaction added =>
    have hadded := Keeps.addCallback hub i (.user label 0 reaction)
    rw [added] at hadded
    exact hadded.trans (.of_eq rfl rfl)
  | @removeCallback handle i label held issued =>
    have hhandles : hub.Keeps { hub with handles := forget label hub.handles } := .of_eq rfl rfl
    exact hhandles.trans (.removeSlot _ i handle.slot)
  | changeCall a friend flags => exact .changeCall hub a friend flags

end Hub

namespace Meeting

variable [Source β]

/-- What is asked of the core session of this name is refused, and nothing comes of it. -/
structure CoreRefuses (audience : Audience lam σ) (name : String) (m : Meeting β lam σ) : Prop where
  tick : m.perform audience (.tickCore name) = (.stopped .sessionClosed, m)
  addCallback : ∀ label reaction, m.perform audience (.addCallback name label reaction) =
    (.rejected .sessionClosed, m)
  /-- The source had a number by then. -/
  openAv : ∀ av source, m.perform audience (.openAv av name source) =
    (.rejected .sessionClosed,
      { m with hub := { m.hub with backends := m.hub.backends + 1 } })
  close : m.perform audience (.closeCore name) = (.done, m)

structure AvRefuses (audience : Audience lam σ) (name : String) (m : Meeting β lam σ) : Prop where
  tick : m.perform audience (.tickAv name) = (.stopped .sessionClosed, m)
  changeCall : ∀ friend flags, m.perform audience (.changeCall name friend flags) =
    (.rejected .sessionClosed, m)

variable {m : Meeting β lam σ} (audience : Audience lam σ)

theorem coreRefuses_of_closed {i : Nat} (closed : m.hub.CoreClosed i) {name : String}
    (named : m.hub.core? name = some i) : m.CoreRefuses audience name where
  tick := by
    simp only [perform, withCore, named, Hub.tickCore_of_shut closed.shut, receive]
  addCallback label reaction := by
    simp only [perform, withCore, named, addCallback, Hub.addCallback_of_shut closed.shut]
  openAv av source := by
    simp only [perform, withCore, named, Hub.openAv_of_shut closed.shut, outcome]
  close := by
    simp only [perform, withCore, named, Hub.closeCore_of_shut closed.shut]

theorem avRefuses_of_closed {a : Nat} (closed : m.hub.AvClosed a) {name : String}
    (named : m.hub.av? name = some a) : m.AvRefuses audience name where
  tick := by
    simp only [perform, withAv, named, Hub.tickAv_of_shut closed.shut, receive]
  changeCall friend flags := by
    simp only [perform, withAv, named, Hub.changeCall_of_shut closed.shut, outcome]

theorem sound_after (sound : m.hub.Sound none []) (steps : List (Step β)) :
    (m.after audience steps).hub.Sound none [] := by
  induction steps generalizing m with
  | nil => exact sound
  | cons step steps ih => exact ih (sound.move (move_perform audience step m))

theorem keeps_after (m : Meeting β lam σ) (steps : List (Step β)) :
    m.hub.Keeps (m.after audience steps).hub := by
  induction steps generalizing m with
  | nil => exact .of_eq rfl rfl
  | cons step steps ih => exact (Hub.Keeps.of_move (move_perform audience step m)).trans (ih _)

/-- After any steps everything has happened once, and what is closed then is closed, and refuses,
after any later steps. -/
theorem closing_final (steps later : List (Step β)) (listener : lam) (state : σ) :
    let m : Meeting β lam σ := after audience steps { listener, state }
    let left := m.after audience later
    m.hub.Once ∧
      (∀ i, m.hub.CoreClosed i → left.hub.CoreClosed i ∧
        ∀ name, left.hub.core? name = some i → left.CoreRefuses audience name) ∧
      ∀ a, m.hub.AvClosed a → left.hub.AvClosed a ∧
        ∀ name, left.hub.av? name = some a → left.AvRefuses audience name := by
  intro m left
  have hsound : m.hub.Sound none [] := sound_after audience .start steps
  have hkeeps : m.hub.Keeps left.hub := keeps_after audience m later
  refine ⟨hsound.once, fun i closed => ?_, fun a closed => ?_⟩
  · have hclosed := hkeeps.coreClosed closed
    exact ⟨hclosed, fun name named => coreRefuses_of_closed audience hclosed named⟩
  · have hclosed := hkeeps.avClosed closed
    exact ⟨hclosed, fun name named => avRefuses_of_closed audience hclosed named⟩

/-- A callback drops a session of the core session that closes, which is then used by its name. -/
theorem closing_final_dropped :
    let audience : Audience Transcript UInt32 :=
      ⟨Transcript.coreListener fun _ => true, Transcript.avListener (fun _ => true) true⟩
    let steps : List (Step Script) :=
      [.openCore "core" {}, .openAv "kept" "core" {}, .openAv "left" "core" {},
        .addCallback "core" "callback" (.drop "left"), .closeCore "core"]
    let m : Meeting Script Transcript UInt32 := after audience steps { listener := {}, state := 0 }
    let left := m.after audience [.closeAv "kept", .openCore "next" {}]
    m.hub.invoked = #[0, 1, 2] ∧
      m.hub.Once ∧ left.CoreRefuses audience "core" ∧ left.AvRefuses audience "kept" := by
  intro audience steps m left
  obtain ⟨once, cores, avs⟩ := closing_final audience steps
    [.closeAv "kept", .openCore "next" {}] ({} : Transcript) 0
  have hcore : m.hub.CoreClosed 0 ∧ left.hub.core? "core" = some 0 := by decide +kernel
  have hav : m.hub.AvClosed 0 ∧ left.hub.av? "kept" = some 0 := by decide +kernel
  exact ⟨by decide +kernel, once, (cores 0 hcore.1).2 "core" hcore.2,
    (avs 0 hav.1).2 "kept" hav.2⟩

end Meeting

end ToxEvents
