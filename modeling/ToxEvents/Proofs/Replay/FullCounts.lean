import ToxEvents.Proofs.Replay.SortedTable
import ToxEvents.Replay.Report
set_option autoImplicit false

namespace ToxEvents

theorem categoryNames_nodup : categoryNames.Nodup := by decide

namespace CountTable

variable {entries table : List (String × Nat)} {names : List String} {name key : String} {n : Nat}

theorem putCount_eq_alter (name : String) (n : Nat) (table : List (String × Nat)) :
    putCount name n table = alter (fun _ => n) name table := by
  induction table with
  | nil => rfl
  | cons first rest ih =>
    obtain ⟨other, m⟩ := first
    rw [putCount, alter, ih]

theorem pairwise_putCount (sorted : table.Pairwise (·.1 < ·.1)) :
    (putCount name n table).Pairwise (·.1 < ·.1) := by
  rw [putCount_eq_alter]
  exact pairwise_alter sorted

theorem lookup_putCount (sorted : table.Pairwise (·.1 < ·.1)) :
    (putCount name n table).lookup key = if key = name then some n else table.lookup key := by
  rw [putCount_eq_alter]
  exact lookup_alter sorted

theorem lookup_eq_none_of_not_mem (fresh : key ∉ table.map Prod.fst) :
    table.lookup key = none :=
  Option.not_isSome_iff_eq_none.mp (mt mem_names_iff.mpr fresh)

def putAll (entries table : List (String × Nat)) : List (String × Nat) :=
  entries.foldl (fun table entry => putCount entry.1 entry.2 table) table

theorem pairwise_putAll (sorted : table.Pairwise (·.1 < ·.1)) :
    (putAll entries table).Pairwise (·.1 < ·.1) := by
  induction entries generalizing table with
  | nil => exact sorted
  | cons entry entries ih => exact ih (pairwise_putCount sorted)

theorem lookup_putAll (sorted : table.Pairwise (·.1 < ·.1))
    (distinct : (entries.map Prod.fst).Nodup) :
    (putAll entries table).lookup key = (entries.lookup key).or (table.lookup key) := by
  induction entries generalizing table with
  | nil => rfl
  | cons entry entries ih =>
    obtain ⟨name, n⟩ := entry
    obtain ⟨hfresh, hdistinct⟩ := List.nodup_cons.mp distinct
    have hlater : (putAll ((name, n) :: entries) table).lookup key =
        (entries.lookup key).or ((putCount name n table).lookup key) :=
      ih (pairwise_putCount sorted) hdistinct
    rw [hlater, lookup_putCount sorted, lookup_cons_eq_ite]
    split
    case isTrue same => rw [same, lookup_eq_none_of_not_mem hfresh, Option.none_or, Option.some_or]
    case isFalse => rfl

theorem lookup_zeros : (names.map fun name => (name, 0)).lookup key =
    if key ∈ names then some 0 else none := by
  induction names with
  | nil => rfl
  | cons name names ih =>
    rw [List.map_cons, lookup_cons_eq_ite, ih]
    by_cases same : key = name <;> simp [same]

end CountTable

namespace Report
open CountTable

variable {counts : List (String × Nat)} {key : String}

theorem fullCounts_eq (counts : List (String × Nat)) :
    fullCounts counts = putAll counts (putAll (categoryNames.map fun name => (name, 0)) []) := by
  simp [fullCounts, putAll, List.foldl_map]

theorem pairwise_fullCounts (counts : List (String × Nat)) :
    (fullCounts counts).Pairwise (·.1 < ·.1) := by
  rw [fullCounts_eq]
  exact pairwise_putAll (pairwise_putAll .nil)

theorem lookup_fullCounts (distinct : (counts.map Prod.fst).Nodup) :
    (fullCounts counts).lookup key =
      (counts.lookup key).or (if key ∈ categoryNames then some 0 else none) := by
  have hzeros : ((categoryNames.map fun name => (name, 0)).map Prod.fst).Nodup := by
    rw [List.map_map]
    exact (List.map_id categoryNames).symm ▸ categoryNames_nodup
  rw [fullCounts_eq, lookup_putAll (pairwise_putAll .nil) distinct, lookup_putAll .nil hzeros,
    lookup_zeros, List.lookup_nil, Option.or_none]

end Report

end ToxEvents
