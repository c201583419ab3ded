import Mathlib.Data.List.Nodup
import ToxEvents.Proofs.Batch.Concatenation
import ToxEvents.Proofs.Delivery.SingleFold
set_option autoImplicit false

namespace ToxEvents
open Wire

theorem flatMap_append_of_apart {α β : Type} {f g : α → List β} {xs : List α}
    (apart : xs.Pairwise fun x later => g x = [] ∨ f later = []) :
    xs.flatMap (fun x => f x ++ g x) = xs.flatMap f ++ xs.flatMap g := by
  induction xs with
  | nil => rfl
  | cons x xs ih =>
    rw [List.pairwise_cons] at apart
    -- Either there is nothing to move, or nothing to move it across.
    have hswap : g x ++ xs.flatMap f = xs.flatMap f ++ g x := by
      by_cases hnone : g x = []
      · rw [hnone, List.nil_append, List.append_nil]
      · have hothers : xs.flatMap f = [] :=
          List.flatMap_eq_nil_iff.mpr fun later h => (apart.1 later h).resolve_left hnone
        rw [hothers, List.nil_append, List.append_nil]
    calc
      (x :: xs).flatMap (fun x => f x ++ g x) = f x ++ (g x ++ xs.flatMap f) ++ xs.flatMap g := by
        simp only [List.flatMap_cons, ih apart.2, List.append_assoc]
      _ = (x :: xs).flatMap f ++ (x :: xs).flatMap g := by
        simp only [hswap, List.flatMap_cons, List.append_assoc]

theorem Surface.pairwise_idxOf {C : Type} [DecidableEq C] [Surface C] :
    (Surface.all (C := C)).Pairwise fun c later =>
      (Surface.all (C := C)).idxOf c < (Surface.all (C := C)).idxOf later := by
  rw [List.pairwise_iff_getElem]
  intro i j hi hj hij
  rw [Surface.all_nodup.idxOf_getElem, Surface.all_nodup.idxOf_getElem]
  exact hij

namespace Batch

variable {C : Type} [DecidableEq C] [Surface C] {first second : Batch C}

/-- No category with a record in the first batch comes after one with a record in the second; it
may be the same. -/
def Precedes (first second : Batch C) : Prop :=
  ∀ c c', first c ≠ [] → second c' ≠ [] →
    (Surface.all (C := C)).idxOf c ≤ (Surface.all (C := C)).idxOf c'

instance (first second : Batch C) : Decidable (first.Precedes second) :=
  decidable_of_iff (∀ c ∈ Surface.all (C := C), ∀ c' ∈ Surface.all (C := C),
      first c ≠ [] → second c' ≠ [] →
        (Surface.all (C := C)).idxOf c ≤ (Surface.all (C := C)).idxOf c')
    ⟨fun h c c' => h c (Surface.mem_all c) c' (Surface.mem_all c'), fun h c _ c' _ => h c c'⟩

theorem Precedes.pairwise (precedes : first.Precedes second) :
    (Surface.all (C := C)).Pairwise fun c later => second c = [] ∨ first later = [] := by
  refine Surface.pairwise_idxOf.imp fun {c later} earlier => ?_
  by_contra both
  rw [not_or] at both
  exact absurd (precedes later c both.2 both.1) (Nat.not_le.mpr earlier)

theorem Precedes.toEntries_append (precedes : first.Precedes second) :
    (first.append second).toEntries = first.toEntries ++ second.toEntries := by
  rw [toEntries, toEntries, toEntries, ← flatMap_append_of_apart]
  · simp only [append, List.map_append]
  · exact precedes.pairwise.imp (Or.imp List.map_eq_nil_iff.mpr List.map_eq_nil_iff.mpr)

end Batch

theorem Handler.agree_append {C ε lam σ : Type} [DecidableEq C] [Surface C]
    {h : Handler C ε lam σ} {pass : Option Bytes → σ → Pass lam σ} (delivers : h.Delivers pass)
    {front back : Bytes} {first second : Batch C} (hfirst : Batch.decode C front = .ok first)
    (hsecond : Batch.decode C back = .ok second) (precedes : first.Precedes second) (state : σ) :
    (pass (some (front ++ back)) state).Agree (do
      let mid ← pass (some front) state
      pass (some back) mid) := by
  have joined : Batch.decode C (front ++ back) = .ok (first.append second) := by
    rw [Batch.decode_append hfirst, hsecond]
    rfl
  have hwhole := delivers.decoded state joined
  rw [precedes.toEntries_append, List.foldlM_append] at hwhole
  exact hwhole.agree
    ((delivers.decoded state hfirst).bind fun mid => delivers.decoded mid hsecond)

/-- Delivering two batches of which the second goes on where the first ends, or further on, is the
same as delivering them joined: for the listener, and for the calls that it gets. -/
theorem receive_append :
    (∀ {front back : Bytes} {first second : CoreBatch},
      Batch.decode CoreCategory front = .ok first → Batch.decode CoreCategory back = .ok second →
        first.Precedes second → ∀ {lam σ : Type} (listener : CoreListener lam σ) (state : σ),
          (listener.receive (some (front ++ back)) state).Agree (do
            let mid ← listener.receive (some front) state
            listener.receive (some back) mid) ∧
          (listener.traced.receive (some (front ++ back)) state).Agree (do
            let mid ← listener.traced.receive (some front) state
            listener.traced.receive (some back) mid)) ∧
    (∀ {front back : Bytes} {first second : AvBatch},
      Batch.decode AvCategory front = .ok first → Batch.decode AvCategory back = .ok second →
        first.Precedes second → ∀ {lam σ : Type} (listener : AvListener lam σ) (state : σ),
          (listener.receive (some (front ++ back)) state).Agree (do
            let mid ← listener.receive (some front) state
            listener.receive (some back) mid) ∧
          (listener.traced.receive (some (front ++ back)) state).Agree (do
            let mid ← listener.traced.receive (some front) state
            listener.traced.receive (some back) mid)) := by
  refine ⟨fun hfirst hsecond precedes _ _ listener state => ⟨?_, ?_⟩,
    fun hfirst hsecond precedes _ _ listener state => ⟨?_, ?_⟩⟩
  · exact Handler.agree_append listener.delivers hfirst hsecond precedes state
  · exact Handler.agree_append listener.traced.delivers hfirst hsecond precedes state
  · exact Handler.agree_append listener.delivers hfirst hsecond precedes state
  · exact Handler.agree_append listener.traced.delivers hfirst hsecond precedes state

/-- The batches share a category, and the second is rejected at its second record; a call is
followed by a frame for which buffers are asked. -/
theorem receive_append_samples :
    let names : CoreBatch := fun
      | .friendName => [⟨7, [0x68]⟩]
      | .friendStatus => [⟨7, 0⟩]
      | _ => []
    let statuses : CoreBatch := fun
      | .friendStatus => [⟨8, 1⟩, ⟨7, 9⟩]
      | .friendTyping => [⟨7, true⟩]
      | _ => []
    let call : AvBatch := fun
      | .call => [⟨9, true, false⟩]
      | .callState => [⟨9, [4, 8]⟩]
      | _ => []
    let frame : AvBatch := fun
      | .callState => [{}]
      | .videoFrame => [{ friend := 9, width := 2, height := 1, y := [1, 2], yStride := 2 }]
      | _ => []
    let core := Transcript.coreListener fun _ => true
    let av := Transcript.avListener (fun _ => true) true
    (Batch.decode CoreCategory names.encode = .ok names ∧
      Batch.decode CoreCategory statuses.encode = .ok statuses ∧ names.Precedes statuses ∧
      (core.receive (some (names.encode ++ statuses.encode)) 1).Agree (do
        let mid ← core.receive (some names.encode) 1
        core.receive (some statuses.encode) mid)) ∧
    (Batch.decode AvCategory call.encode = .ok call ∧
      Batch.decode AvCategory frame.encode = .ok frame ∧ call.Precedes frame ∧
      (av.traced.receive (some (call.encode ++ frame.encode)) 1).Agree (do
        let mid ← av.traced.receive (some call.encode) 1
        av.traced.receive (some frame.encode) mid)) := by
  intro names statuses call frame core av
  have hnames : Batch.decode CoreCategory names.encode = .ok names :=
    Batch.decode_encode CoreCategory.lawful names (by decide +kernel)
  have hstatuses : Batch.decode CoreCategory statuses.encode = .ok statuses :=
    Batch.decode_encode CoreCategory.lawful statuses (by decide +kernel)
  have hcall : Batch.decode AvCategory call.encode = .ok call :=
    Batch.decode_encode AvCategory.lawful call (by decide +kernel)
  have hframe : Batch.decode AvCategory frame.encode = .ok frame :=
    Batch.decode_encode AvCategory.lawful frame (by decide +kernel)
  have coreOrder : names.Precedes statuses := by decide +kernel
  have avOrder : call.Precedes frame := by decide +kernel
  obtain ⟨onCore, onAv⟩ := receive_append
  exact ⟨⟨hnames, hstatuses, coreOrder, (onCore hnames hstatuses coreOrder core 1).1⟩,
    ⟨hcall, hframe, avOrder, (onAv hcall hframe avOrder av 1).2⟩⟩

end ToxEvents
