import Mathlib.Data.List.Nodup
import ToxEvents.Proofs.Session.Entries
set_option autoImplicit false

/-!
# The table as an ordered list of registrations

A roll holds the live registrations in the order in which they were made, each under its own number,
and knows nothing of slots. As long as every handle is given back to its own table, and only once, a
table and the handles it issued behave as a roll does.
-/
namespace ToxEvents.SlotTable

/-- What is asked of a table. A registration goes by its number among all that were made. -/
inductive Request (κ : Type) where
  | add (callback : κ)
  | remove (number : Nat)
  | invoke

/-- A table in use, with the handles that it issued, oldest first. -/
structure Desk (κ s : Type) where
  table : SlotTable κ := {}
  handles : List Nat := []
  removals : List Removal := []
  state : s

structure Roll (κ s : Type) where
  issued : Nat := 0
  live : List (Nat × κ) := []
  state : s

/-- Each handle is given back at most once, after it was issued. -/
def Legal {κ : Type} : Nat → List Nat → List (Request κ) → Prop
  | _, _, [] => True
  | issued, given, .add _ :: later => Legal (issued + 1) given later
  | issued, given, .remove n :: later =>
    n < issued ∧ n ∉ given ∧ Legal issued (n :: given) later
  | issued, given, .invoke :: later => Legal issued given later

variable {κ s : Type} (run : κ → s → κ × s)

def Desk.perform (desk : Desk κ s) : Request κ → Desk κ s
  | .add k =>
    let (table, slot) := desk.table.add k
    { desk with table, handles := desk.handles ++ [slot] }
  | .remove n =>
    match desk.handles[n]? with
    | none => desk
    | some slot =>
      let (table, removal) := desk.table.remove slot
      { desk with table, removals := desk.removals ++ [removal] }
  | .invoke =>
    let (table, state) := desk.table.invoke run desk.state
    { desk with table, state }

def Roll.perform (roll : Roll κ s) : Request κ → Roll κ s
  | .add k => { roll with issued := roll.issued + 1, live := roll.live ++ [(roll.issued, k)] }
  | .remove n => { roll with live := roll.live.filter (·.1 ≠ n) }
  | .invoke =>
    let (live, state) := callAll run roll.live roll.state
    { roll with live, state }

def Desk.after (requests : List (Request κ)) (desk : Desk κ s) : Desk κ s :=
  requests.foldl (Desk.perform run) desk

def Roll.after (requests : List (Request κ)) (roll : Roll κ s) : Roll κ s :=
  requests.foldl (Roll.perform run) roll

/-- The desk stands as the roll does, after the handles in `given` have come back. -/
structure Stands (given : List Nat) (desk : Desk κ s) (roll : Roll κ s) : Prop where
  issued : desk.handles.length = roll.issued
  entries : desk.table.entries.map (fun entry => (some entry.1, entry.2)) =
    roll.live.map fun call => (desk.handles[call.1]?, call.2)
  numbers : ∀ n, n ∈ roll.live.map Prod.fst ↔ n < roll.issued ∧ n ∉ given
  given_lt : ∀ n ∈ given, n < roll.issued
  ordered : roll.live.Pairwise (·.1 < ·.1)
  removals : ∀ removal ∈ desk.removals, removal = .removed
  state : desk.state = roll.state

/-- What a table does for its users after these requests, in terms of the roll alone. -/
structure Serves (requests : List (Request κ)) (desk : Desk κ s) (roll : Roll κ s) : Prop where
  /-- Live are the registrations whose handles have not come back, in the order they were made. -/
  live : desk.table.live = roll.live.map Prod.snd ∧ roll.live.Pairwise (·.1 < ·.1) ∧
    ∀ n, n ∈ roll.live.map Prod.fst ↔ n < desk.handles.length ∧ .remove n ∉ requests
  distinct : ∀ n ∈ roll.live.map Prod.fst, ∀ m ∈ roll.live.map Prod.fst,
    desk.handles[n]? = desk.handles[m]? → n = m
  addressed : ∀ n k, (n, k) ∈ roll.live →
    ∃ slot, desk.handles[n]? = some slot ∧ desk.table.slots[slot]? = some (some k)
  /-- A handle takes away its own registration and no other. -/
  removed : ∀ n k slot, (n, k) ∈ roll.live → desk.handles[n]? = some slot →
    (desk.table.remove slot).2 = .removed ∧
      (desk.table.remove slot).1.live = (roll.live.filter (·.1 ≠ n)).map Prod.snd
  removals : ∀ removal ∈ desk.removals, removal = .removed
  /-- Each live callback runs once, in order, and stays in its slot. -/
  invoked : ∀ {s' : Type} (run : κ → s' → κ × s') (state : s'),
    (desk.table.invoke run state).2 = (callAll run roll.live state).2 ∧
    (desk.table.invoke run state).1.live = (callAll run roll.live state).1.map Prod.snd ∧
    (desk.table.invoke run state).1.slots.map Option.isSome =
      desk.table.slots.map Option.isSome ∧
    ((∀ k state, (run k state).1 = k) → (desk.table.invoke run state).1 = desk.table)
  state : desk.state = roll.state

variable {given : List Nat} {desk : Desk κ s} {roll : Roll κ s}

namespace Stands

theorem addressed (stands : Stands given desk roll) {n : Nat} {k : κ}
    (live : (n, k) ∈ roll.live) :
    ∃ slot, desk.handles[n]? = some slot ∧ (slot, k) ∈ desk.table.entries := by
  have hmem : (desk.handles[n]?, k) ∈
      desk.table.entries.map (fun entry => (some entry.1, entry.2)) := by
    rw [stands.entries]
    exact List.mem_map.mpr ⟨(n, k), live, rfl⟩
  obtain ⟨⟨slot, k'⟩, member, heq⟩ := List.mem_map.mp hmem
  obtain ⟨hslot, rfl⟩ := Prod.mk.inj heq
  exact ⟨slot, hslot.symm, member⟩

theorem ascending (stands : Stands given desk roll) :
    roll.live.Pairwise fun call call' =>
      ∃ slot slot', desk.handles[call.1]? = some slot ∧ desk.handles[call'.1]? = some slot' ∧
        slot < slot' := by
  have hentries : (desk.table.entries.map fun entry => (some entry.1, entry.2)).Pairwise
      fun a b => ∃ slot slot', a.1 = some slot ∧ b.1 = some slot' ∧ slot < slot' := by
    rw [List.pairwise_map]
    exact desk.table.pairwise_entries.imp fun hlt => ⟨_, _, rfl, rfl, hlt⟩
  rw [stands.entries, List.pairwise_map] at hentries
  exact hentries

theorem handle_inj (stands : Stands given desk roll) {call call' : Nat × κ}
    (live : call ∈ roll.live) (live' : call' ∈ roll.live)
    (same : desk.handles[call.1]? = desk.handles[call'.1]?) : call = call' := by
  have hnodup : (roll.live.map fun call => desk.handles[call.1]?).Nodup := by
    refine List.pairwise_map.mpr (stands.ascending.imp ?_)
    rintro a b ⟨slot, slot', ha, hb, hlt⟩ hab
    rw [ha, hb, Option.some.injEq] at hab
    omega
  exact List.inj_on_of_nodup_map hnodup live live' same

theorem live_table (stands : Stands given desk roll) :
    desk.table.live = roll.live.map Prod.snd := by
  have hsnd := congrArg (List.map Prod.snd) stands.entries
  rw [live_eq]
  simpa [Function.comp_def] using hsnd

theorem entries_remove (stands : Stands given desk roll) {n slot : Nat} {k : κ}
    (live : (n, k) ∈ roll.live) (held : desk.handles[n]? = some slot) :
    (desk.table.remove slot).1.entries.map (fun entry => (some entry.1, entry.2)) =
      (roll.live.filter (·.1 ≠ n)).map fun call => (desk.handles[call.1]?, call.2) := by
  have hleft : (desk.table.entries.filter (·.1 ≠ slot)).map
        (fun entry => (some entry.1, entry.2)) =
      (desk.table.entries.map fun entry => (some entry.1, entry.2)).filter
        (·.1 ≠ some slot) := by
    rw [List.filter_map]
    simp [Function.comp_def]
  have hright : (roll.live.map fun call => (desk.handles[call.1]?, call.2)).filter
        (·.1 ≠ some slot) =
      (roll.live.filter (·.1 ≠ n)).map fun call => (desk.handles[call.1]?, call.2) := by
    rw [List.filter_map]
    congr 1
    refine List.filter_congr fun call member => ?_
    -- Another registration has another handle, since both are live.
    have hiff : desk.handles[call.1]? = some slot ↔ call.1 = n := by
      constructor
      · intro same
        exact congrArg Prod.fst (stands.handle_inj member live (same.trans held.symm))
      · rintro rfl
        exact held
    simp [hiff]
  rw [SlotTable.entries_remove, hleft, stands.entries, hright]

theorem callAll_live (stands : Stands given desk roll) {s' : Type} (run : κ → s' → κ × s')
    (state : s') :
    (desk.table.invoke run state).1.entries.map (fun entry => (some entry.1, entry.2)) =
        (callAll run roll.live state).1.map (fun call => (desk.handles[call.1]?, call.2)) ∧
      (desk.table.invoke run state).2 = (callAll run roll.live state).2 := by
  have htable := desk.table.entries_invoke run state
  have hentries := callAll_map run some desk.table.entries state
  have hroll := callAll_map run (fun n => desk.handles[n]?) roll.live state
  rw [stands.entries, hroll, htable] at hentries
  obtain ⟨hlive, hstate⟩ := Prod.mk.inj hentries
  exact ⟨hlive.symm, hstate.symm⟩

theorem serves (stands : Stands given desk roll) {requests : List (Request κ)}
    (returned : ∀ n, n ∈ given ↔ .remove n ∈ requests) : Serves requests desk roll where
  live := by
    refine ⟨stands.live_table, stands.ordered, fun n => ?_⟩
    rw [stands.numbers, stands.issued, returned]
  distinct n hn m hm same := by
    obtain ⟨call, live, rfl⟩ := List.mem_map.mp hn
    obtain ⟨call', live', rfl⟩ := List.mem_map.mp hm
    exact congrArg Prod.fst (stands.handle_inj live live' same)
  addressed n k live := by
    obtain ⟨slot, held, member⟩ := stands.addressed live
    exact ⟨slot, held, mem_entries.mp member⟩
  removed n k slot live held := by
    obtain ⟨slot', held', member⟩ := stands.addressed live
    obtain rfl : slot = slot' := Option.some.inj (held.symm.trans held')
    refine ⟨remove_snd_of_mem member, ?_⟩
    have hsnd := congrArg (List.map Prod.snd) (stands.entries_remove live held)
    rw [live_eq]
    simpa [Function.comp_def] using hsnd
  removals := stands.removals
  invoked run state := by
    obtain ⟨hlive, hstate⟩ := stands.callAll_live run state
    have hsnd := congrArg (List.map Prod.snd) hlive
    refine ⟨hstate, ?_, map_isSome_runAll run _ _, fun unchanging => ?_⟩
    · rw [live_eq]
      simpa [Function.comp_def] using hsnd
    · exact congrArg SlotTable.mk (runAll_of_unchanging unchanging desk.table.slots state)
  state := stands.state

theorem start (state : s) : Stands [] ({ state } : Desk κ s) ({ state } : Roll κ s) where
  issued := rfl
  entries := rfl
  numbers n := by simp
  given_lt n := by simp
  ordered := .nil
  removals := by simp
  state := rfl

theorem lt_issued (stands : Stands given desk roll) {call : Nat × κ} (live : call ∈ roll.live) :
    call.1 < roll.issued :=
  ((stands.numbers call.1).mp (List.mem_map_of_mem live)).1

theorem add (stands : Stands given desk roll) (k : κ) :
    Stands given (desk.perform run (.add k)) (roll.perform run (.add k)) where
  issued := by simp [Desk.perform, Roll.perform, stands.issued]
  entries := by
    have hold : roll.live.map (fun call => ((desk.handles ++ [(desk.table.add k).2])[call.1]?,
        call.2)) = roll.live.map fun call => (desk.handles[call.1]?, call.2) := by
      refine List.map_congr_left fun call live => ?_
      have hlt : call.1 < desk.handles.length := stands.issued ▸ stands.lt_issued live
      rw [List.getElem?_append_left hlt]
    have hnew : (desk.handles ++ [(desk.table.add k).2])[roll.issued]? =
        some (desk.table.add k).2 := by
      rw [← stands.issued, List.getElem?_concat_length]
    change (desk.table.add k).1.entries.map _ = (roll.live ++ [(roll.issued, k)]).map
      fun call => ((desk.handles ++ [(desk.table.add k).2])[call.1]?, call.2)
    rw [entries_add, List.map_append, List.map_append, hold, stands.entries]
    simp [hnew]
  numbers n := by
    have hnumbers := stands.numbers n
    have hgiven := stands.given_lt n
    have hmap : (roll.perform run (.add k)).live.map Prod.fst =
        roll.live.map Prod.fst ++ [roll.issued] := by
      simp [Roll.perform]
    change n ∈ (roll.perform run (.add k)).live.map Prod.fst ↔ n < roll.issued + 1 ∧ n ∉ given
    rw [hmap, List.mem_append, List.mem_singleton, hnumbers]
    constructor
    · rintro (⟨hlt, hnew⟩ | rfl)
      · exact ⟨by omega, hnew⟩
      · exact ⟨by omega, fun hmem => absurd (hgiven hmem) (by omega)⟩
    · rintro ⟨hlt, hnew⟩
      by_cases hn : n = roll.issued
      · exact .inr hn
      · exact .inl ⟨by omega, hnew⟩
  given_lt n hmem := Nat.lt_succ_of_lt (stands.given_lt n hmem)
  ordered := by
    refine List.pairwise_append.mpr ⟨stands.ordered, List.pairwise_singleton _ _, ?_⟩
    intro call live new hnew
    rw [List.mem_singleton.mp hnew]
    exact stands.lt_issued live
  removals := stands.removals
  state := stands.state

theorem remove (stands : Stands given desk roll) {n : Nat} (issued : n < roll.issued)
    (new : n ∉ given) :
    Stands (n :: given) (desk.perform run (.remove n)) (roll.perform run (.remove n)) := by
  obtain ⟨⟨m, k⟩, live, hm⟩ := List.mem_map.mp ((stands.numbers n).mpr ⟨issued, new⟩)
  obtain rfl : n = m := hm.symm
  obtain ⟨slot, held, member⟩ := stands.addressed live
  simp only [Desk.perform, held]
  exact {
    issued := stands.issued
    entries := stands.entries_remove live held
    numbers := fun m => by
      have hfilter : (roll.live.filter (·.1 ≠ n)).map Prod.fst =
          (roll.live.map Prod.fst).filter (· ≠ n) := by
        rw [List.filter_map]
        rfl
      change m ∈ (roll.live.filter (·.1 ≠ n)).map Prod.fst ↔ m < roll.issued ∧ m ∉ n :: given
      rw [hfilter, List.mem_filter, stands.numbers]
      simp only [decide_eq_true_eq, List.mem_cons, not_or, ne_eq]
      tauto
    given_lt := fun m hm => by
      rcases List.mem_cons.mp hm with rfl | hm
      · exact issued
      · exact stands.given_lt m hm
    ordered := stands.ordered.filter _
    removals := fun removal hmem => by
      rcases List.mem_append.mp hmem with hmem | hmem
      · exact stands.removals removal hmem
      · rw [List.mem_singleton.mp hmem]
        exact remove_snd_of_mem member
    state := stands.state }

theorem invoke (stands : Stands given desk roll) :
    Stands given (desk.perform run .invoke) (roll.perform run .invoke) := by
  obtain ⟨hlive, hstate⟩ := stands.callAll_live run desk.state
  have hnumbers := map_fst_callAll run roll.live desk.state
  have hroll' : roll.perform run .invoke =
      { roll with live := (callAll run roll.live desk.state).1
                  state := (callAll run roll.live desk.state).2 } := by
    simp only [Roll.perform, stands.state]
  rw [hroll']
  exact {
    issued := stands.issued
    entries := hlive
    numbers := fun n => by
      change n ∈ (callAll run roll.live desk.state).1.map Prod.fst ↔ _
      rw [hnumbers]
      exact stands.numbers n
    given_lt := stands.given_lt
    ordered := by
      have hordered := List.pairwise_map.mpr stands.ordered
      rw [← hnumbers] at hordered
      exact List.pairwise_map.mp hordered
    removals := stands.removals
    state := hstate }

theorem after (stands : Stands given desk roll) (requests : List (Request κ))
    (legal : Legal roll.issued given requests) :
    ∃ given', (∀ n, n ∈ given' ↔ n ∈ given ∨ .remove n ∈ requests) ∧
      Stands given' (desk.after run requests) (roll.after run requests) := by
  induction requests generalizing given desk roll with
  | nil => exact ⟨given, by simp, stands⟩
  | cons request later ih =>
    cases request with
    | add k =>
      obtain ⟨given', hgiven, hstands⟩ := ih (stands.add run k) legal
      exact ⟨given', fun n => by simp [hgiven], hstands⟩
    | remove n =>
      obtain ⟨issued, new, legal⟩ := legal
      obtain ⟨given', hgiven, hstands⟩ := ih (stands.remove run issued new) legal
      exact ⟨given', fun m => by simp [hgiven, or_assoc, or_left_comm], hstands⟩
    | invoke =>
      obtain ⟨given', hgiven, hstands⟩ := ih (stands.invoke run) legal
      exact ⟨given', fun n => by simp [hgiven], hstands⟩

end Stands

/-- Whatever is added, given back and invoked, a table serves its users as a roll would. -/
theorem serves_after {κ s : Type} (run : κ → s → κ × s) (requests : List (Request κ)) (state : s)
    (legal : Legal 0 [] requests) :
    Serves requests (Desk.after run requests { state }) (Roll.after run requests { state }) := by
  obtain ⟨given, hgiven, stands⟩ := (Stands.start state).after run requests legal
  exact stands.serves fun n => by simp [hgiven]

/-- A middle slot is emptied, the two at the end are given back, and one of them is used again. -/
theorem serves_after_reuse :
    let requests : List (Request Char) :=
      [.add 'a', .add 'b', .add 'c', .remove 1, .invoke, .remove 2, .add 'd', .invoke]
    let run : Char → List Char → Char × List Char := fun k log => (k, log ++ [k])
    Legal 0 [] requests ∧
      (Desk.after run requests { state := [] }).handles = [0, 1, 2, 1] ∧
      (Desk.after run requests { state := [] }).state = ['a', 'c', 'a', 'd'] ∧
      Serves requests (Desk.after run requests { state := [] })
        (Roll.after run requests { state := [] }) := by
  intro requests run
  have legal : Legal 0 [] requests := by simp [requests, Legal]
  exact ⟨legal, rfl, rfl, serves_after run requests [] legal⟩

end ToxEvents.SlotTable
