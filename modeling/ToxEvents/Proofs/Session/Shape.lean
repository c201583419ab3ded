import Mathlib.Data.Set.Card
import ToxEvents.Proofs.Session.Entries
set_option autoImplicit false

namespace ToxEvents.SlotTable

variable {κ s : Type}

/-- What happens to a table. The slot that a removal names may be any number, such as one that
another table gave out. -/
inductive Change (κ : Type) where
  | add (callback : κ)
  | remove (slot : Nat)
  | invoke

/-- A callback that is run may change itself and the state. -/
def enact (run : κ → s → κ × s) (before : SlotTable κ × s) : Change κ → SlotTable κ × s
  | .add k => ((before.1.add k).1, before.2)
  | .remove slot => ((before.1.remove slot).1, before.2)
  | .invoke => before.1.invoke run before.2

def history (run : κ → s → κ × s) (changes : List (Change κ)) (state : s) : SlotTable κ × s :=
  changes.foldl (enact run) ({}, state)

def LiveAt (t : SlotTable κ) (i : Nat) (k : κ) : Prop := t.slots[i]? = some (some k)

/-- What a table tells of itself, in terms of its live slots. -/
structure Shape (t : SlotTable κ) : Prop where
  size : (t.size = 0 ∧ ∀ i k, ¬ t.LiveAt i k) ∨
    ∃ i k, t.LiveAt i k ∧ (∀ j k', t.LiveAt j k' → j ≤ i) ∧ t.size = i + 1
  count : t.live.length = {i | ∃ k, t.LiveAt i k}.ncard
  isEmpty : t.isEmpty = true ↔ ∀ i k, ¬ t.LiveAt i k

/-- What adding and removing do to a table, seen in its live slots. -/
structure Edits (t : SlotTable κ) : Prop where
  added : ∀ k, (t.add k).2 = t.size ∧
    ∀ j k', (t.add k).1.LiveAt j k' ↔ t.LiveAt j k' ∨ (j = t.size ∧ k' = k)
  beyond : ∀ i, t.size ≤ i → t.remove i = (t, .beyond t.size)
  vacant : ∀ i, t.slots[i]? = some none → t.remove i = (t, .vacant)
  removed : ∀ i k, t.LiveAt i k → (t.remove i).2 = .removed ∧
    ∀ j k', (t.remove i).1.LiveAt j k' ↔ t.LiveAt j k' ∧ j ≠ i

def Tidy (t : SlotTable κ) : Prop := t.slots.getLast? ≠ some none

variable {t : SlotTable κ}

theorem LiveAt.lt_size {i : Nat} {k : κ} (live : t.LiveAt i k) : i < t.size :=
  (List.getElem?_eq_some_iff.mp live).1

theorem mem_entries_iff_liveAt {i : Nat} {k : κ} : (i, k) ∈ t.entries ↔ t.LiveAt i k := mem_entries

theorem getLast?_trim (slots : List (Option κ)) : (trim slots).getLast? ≠ some none := by
  induction slots with
  | nil => simp [trim]
  | cons slot rest ih =>
    cases htrim : trim rest with
    | nil => cases slot <;> simp [trim, htrim]
    | cons slot' rest' =>
      rw [htrim] at ih
      cases slot <;> simpa [trim, htrim] using ih

theorem getLast?_runAll (run : κ → s → κ × s) (slots : List (Option κ)) (state : s) :
    (runAll run slots state).1.getLast? = some none ↔ slots.getLast? = some none := by
  have hlast (slots : List (Option κ)) :
      slots.getLast? = some none ↔ (slots.map Option.isSome).getLast? = some false := by
    rw [List.getLast?_map]
    rcases slots.getLast? with _ | _ | k <;> simp
  rw [hlast, hlast, map_isSome_runAll]

namespace Tidy

theorem empty : Tidy ({} : SlotTable κ) := nofun

theorem add (k : κ) : (t.add k).1.Tidy := by
  simp [Tidy, SlotTable.add]

theorem remove (tidy : t.Tidy) (slot : Nat) : (t.remove slot).1.Tidy := by
  unfold SlotTable.remove
  split
  case h_1 => exact tidy
  case h_2 => exact tidy
  case h_3 => exact getLast?_trim _

theorem invoke (tidy : t.Tidy) (run : κ → s → κ × s) (state : s) :
    (t.invoke run state).1.Tidy :=
  mt (getLast?_runAll run t.slots state).mp tidy

theorem enact {run : κ → s → κ × s} {before : SlotTable κ × s} (tidy : before.1.Tidy)
    (change : Change κ) : (enact run before change).1.Tidy := by
  cases change with
  | add k => exact add k
  | remove slot => exact tidy.remove slot
  | invoke => exact tidy.invoke run before.2

theorem history (run : κ → s → κ × s) (changes : List (Change κ)) (state : s) :
    (history run changes state).1.Tidy := by
  unfold SlotTable.history
  generalize hbefore : (({}, state) : SlotTable κ × s) = before
  have tidy : before.1.Tidy := hbefore ▸ empty
  clear hbefore
  induction changes generalizing before with
  | nil => exact tidy
  | cons change later ih => exact ih _ (tidy.enact change)

theorem size_eq (tidy : t.Tidy) :
    (t.size = 0 ∧ ∀ i k, ¬ t.LiveAt i k) ∨
      ∃ i k, t.LiveAt i k ∧ (∀ j k', t.LiveAt j k' → j ≤ i) ∧ t.size = i + 1 := by
  rcases hlast : t.slots.getLast? with _ | _ | k
  · have hnil : t.size = 0 := List.length_eq_zero_iff.mpr (List.getLast?_eq_none_iff.mp hlast)
    refine .inl ⟨hnil, fun i k live => ?_⟩
    have := live.lt_size
    omega
  · exact absurd hlast tidy
  · rw [List.getLast?_eq_getElem?] at hlast
    have hlive : t.LiveAt (t.size - 1) k := hlast
    have hpos := hlive.lt_size
    refine .inr ⟨t.size - 1, k, hlive, fun j k' live => ?_, by omega⟩
    have := live.lt_size
    omega

end Tidy

theorem length_live (t : SlotTable κ) : t.live.length = {i | ∃ k, t.LiveAt i k}.ncard := by
  have hindices : {i | ∃ k, t.LiveAt i k} = ((t.entries.map Prod.fst).toFinset : Set Nat) := by
    ext i
    simp [mem_entries_iff_liveAt]
  have hnodup : (t.entries.map Prod.fst).Nodup :=
    List.pairwise_map.mpr (t.pairwise_entries.imp Nat.ne_of_lt)
  rw [hindices, Set.ncard_coe_finset, List.toFinset_card_of_nodup hnodup, live_eq,
    List.length_map, List.length_map]

theorem isEmpty_iff (t : SlotTable κ) : t.isEmpty = true ↔ ∀ i k, ¬ t.LiveAt i k := by
  unfold isEmpty
  rw [List.isEmpty_iff, live_eq, List.map_eq_nil_iff, List.eq_nil_iff_forall_not_mem]
  simp only [Prod.forall, mem_entries_iff_liveAt]

theorem liveAt_add (k : κ) {j : Nat} {k' : κ} :
    (t.add k).1.LiveAt j k' ↔ t.LiveAt j k' ∨ (j = t.size ∧ k' = k) := by
  rw [← mem_entries_iff_liveAt, entries_add, List.mem_append, mem_entries_iff_liveAt,
    List.mem_singleton, Prod.mk.injEq]
  rfl

theorem liveAt_remove (i : Nat) {j : Nat} {k : κ} :
    (t.remove i).1.LiveAt j k ↔ t.LiveAt j k ∧ j ≠ i := by
  rw [← mem_entries_iff_liveAt, entries_remove, List.mem_filter, mem_entries_iff_liveAt,
    decide_eq_true_eq]

theorem edits (t : SlotTable κ) : Edits t where
  added k := ⟨rfl, fun _ _ => liveAt_add k⟩
  beyond i past := by
    unfold remove
    rw [List.getElem?_eq_none past]
    rfl
  vacant i empty := by
    unfold remove
    rw [empty]
  removed i k live :=
    ⟨remove_snd_of_mem (mem_entries_iff_liveAt.mpr live), fun _ _ => liveAt_remove i⟩

/-- After any history, misdirected handles included, the live slots of a table tell its size, and
adding and removing touch one slot. -/
theorem shape_after_history (run : κ → s → κ × s) (changes : List (Change κ)) (state : s) :
    Shape (history run changes state).1 ∧ Edits (history run changes state).1 := by
  have tidy := Tidy.history run changes state
  exact ⟨⟨tidy.size_eq, length_live _, isEmpty_iff _⟩, edits _⟩

/-- The table ends where its last live slot is, though slots were removed in another order. -/
example : (history (fun k log => (k, log ++ [k]))
    [.add 'a', .add 'b', .add 'c', .remove 1, .remove 7, .invoke, .remove 2] []).1.slots =
      [some 'a'] := rfl

end ToxEvents.SlotTable
