import Mathlib.Algebra.GroupWithZero.Nat
import ToxEvents.Replay.Tally
set_option autoImplicit false

namespace ToxEvents

namespace CountTable

def alter (change : Option Nat → Nat) (name : String) :
    List (String × Nat) → List (String × Nat)
  | [] => [(name, change none)]
  | (other, n) :: rest =>
    if name = other then (other, change (some n)) :: rest
    else if name < other then (name, change none) :: (other, n) :: rest
    else (other, n) :: alter change name rest

variable {table : List (String × Nat)} {change : Option Nat → Nat} {name key : String}

theorem mem_alter {entry : String × Nat} (member : entry ∈ alter change name table) :
    entry.1 = name ∨ ∃ old ∈ table, old.1 = entry.1 := by
  induction table with
  | nil => exact .inl (congrArg Prod.fst (List.mem_singleton.mp member))
  | cons first rest ih =>
    obtain ⟨other, n⟩ := first
    unfold alter at member
    split at member
    case isTrue same =>
      rcases List.mem_cons.mp member with rfl | member
      · exact .inl same.symm
      · exact .inr ⟨entry, List.mem_cons_of_mem _ member, rfl⟩
    case isFalse =>
      split at member
      · rcases List.mem_cons.mp member with rfl | member
        · exact .inl rfl
        · exact .inr ⟨entry, member, rfl⟩
      · rcases List.mem_cons.mp member with rfl | member
        · exact .inr ⟨_, List.mem_cons_self .., rfl⟩
        · rcases ih member with same | ⟨old, hold, same⟩
          · exact .inl same
          · exact .inr ⟨old, List.mem_cons_of_mem _ hold, same⟩

theorem pairwise_alter (sorted : table.Pairwise (·.1 < ·.1)) :
    (alter change name table).Pairwise (·.1 < ·.1) := by
  induction table with
  | nil => exact List.pairwise_singleton _ _
  | cons first rest ih =>
    obtain ⟨other, n⟩ := first
    obtain ⟨hfirst, hrest⟩ := List.pairwise_cons.mp sorted
    unfold alter
    split
    case isTrue => exact .cons hfirst hrest
    case isFalse hne =>
      split
      case isTrue hlt =>
        refine .cons (fun entry member => ?_) sorted
        rcases List.mem_cons.mp member with rfl | member
        · exact hlt
        · exact String.lt_trans hlt (hfirst entry member)
      case isFalse hge =>
        have hother : other < name := by
          by_cases hlt : other < name
          · exact hlt
          · exact absurd (String.le_antisymm (String.not_lt.mp hlt) (String.not_lt.mp hge)) hne
        refine .cons (fun entry member => ?_) (ih hrest)
        rcases mem_alter member with same | ⟨old, hold, same⟩
        · exact same.symm ▸ hother
        · exact same ▸ hfirst old hold

theorem lookup_eq_none_of_lt (below : ∀ entry ∈ table, name < entry.1) :
    table.lookup name = none := by
  refine List.lookup_eq_none_iff.mpr fun entry member => ?_
  have hne : name ≠ entry.1 := by
    intro same
    have hlt := below entry member
    rw [← same] at hlt
    exact String.lt_irrefl _ hlt
  simpa using hne

theorem lookup_cons_eq_ite (key name : String) (n : Nat) (rest : List (String × Nat)) :
    ((name, n) :: rest).lookup key = if key = name then some n else rest.lookup key := by
  rw [List.lookup_cons]
  by_cases hkey : key = name
  · rw [beq_iff_eq.mpr hkey, if_pos hkey]
  · rw [beq_eq_false_iff_ne.mpr hkey, if_neg hkey]

theorem lookup_alter (sorted : table.Pairwise (·.1 < ·.1)) :
    (alter change name table).lookup key =
      if key = name then some (change (table.lookup name)) else table.lookup key := by
  induction table with
  | nil => exact lookup_cons_eq_ite key name _ []
  | cons first rest ih =>
    obtain ⟨other, n⟩ := first
    obtain ⟨hfirst, hrest⟩ := List.pairwise_cons.mp sorted
    unfold alter
    split
    case isTrue same =>
      subst other
      simp only [lookup_cons_eq_ite, if_true]
      split <;> rfl
    case isFalse hne =>
      split
      case isTrue hlt =>
        have hnone : ((other, n) :: rest).lookup name = none := by
          refine lookup_eq_none_of_lt fun entry member => ?_
          rcases List.mem_cons.mp member with rfl | member
          · exact hlt
          · exact String.lt_trans hlt (hfirst entry member)
        rw [lookup_cons_eq_ite key name, hnone]
      case isFalse =>
        rw [lookup_cons_eq_ite, lookup_cons_eq_ite, lookup_cons_eq_ite, ih hrest, if_neg hne]
        by_cases hother : key = other
        · have hkey : key ≠ name := fun same => hne (same.symm.trans hother)
          rw [if_pos hother, if_neg hkey, if_pos hother]
        · rw [if_neg hother, if_neg hother]

theorem mem_names_iff : key ∈ table.map Prod.fst ↔ (table.lookup key).isSome := by
  induction table with
  | nil => simp
  | cons first rest ih =>
    obtain ⟨other, n⟩ := first
    rw [lookup_cons_eq_ite, List.map_cons, List.mem_cons, ih]
    split <;> simp [*]

theorem nodup_names (sorted : table.Pairwise (·.1 < ·.1)) : (table.map Prod.fst).Nodup := by
  refine List.pairwise_map.mpr (sorted.imp fun {first second} before same => ?_)
  rw [same] at before
  exact String.lt_irrefl _ before

theorem map_lookup (distinct : (table.map Prod.fst).Nodup) :
    (table.map Prod.fst).map (fun name => (table.lookup name).getD 0) = table.map Prod.snd := by
  induction table with
  | nil => rfl
  | cons first rest ih =>
    obtain ⟨other, n⟩ := first
    obtain ⟨hfresh, hrest⟩ := List.nodup_cons.mp distinct
    have hlater : (rest.map Prod.fst).map (fun name => (((other, n) :: rest).lookup name).getD 0) =
        (rest.map Prod.fst).map fun name => (rest.lookup name).getD 0 := by
      refine List.map_congr_left fun name member => ?_
      have hne : name ≠ other := fun same => hfresh (same ▸ member)
      rw [lookup_cons_eq_ite, if_neg hne]
    rw [List.map_cons, List.map_cons, hlater, ih hrest, lookup_cons_eq_ite, if_pos rfl]
    rfl

theorem not_lt_first {other : String} {m n : Nat} {rest : List (String × Nat)}
    (first : ∀ entry ∈ rest, other < entry.1)
    (found : ((other, m) :: rest).lookup name = some n) : ¬ name < other := by
  intro hlt
  have hnone : ((other, m) :: rest).lookup name = none :=
    lookup_eq_none_of_lt (List.forall_mem_cons.mpr
      ⟨hlt, fun entry member => String.lt_trans hlt (first entry member)⟩)
  rw [hnone] at found
  cases found

/-- A table in order is known by what it says of each name. -/
theorem eq_of_lookup {first second : List (String × Nat)} (sorted : first.Pairwise (·.1 < ·.1))
    (sorted' : second.Pairwise (·.1 < ·.1))
    (same : ∀ key, first.lookup key = second.lookup key) : first = second := by
  induction first generalizing second with
  | nil =>
    cases second with
    | nil => rfl
    | cons entry rest =>
      have hname := same entry.1
      rw [List.lookup_cons_self] at hname
      cases hname
  | cons entry rest ih =>
    obtain ⟨name, n⟩ := entry
    obtain ⟨hfirst, hrest⟩ := List.pairwise_cons.mp sorted
    have hname := (same name).symm.trans List.lookup_cons_self
    cases second with
    | nil => cases hname
    | cons entry' rest' =>
      obtain ⟨name', n'⟩ := entry'
      obtain ⟨hfirst', hrest'⟩ := List.pairwise_cons.mp sorted'
      have hname' := (same name').trans List.lookup_cons_self
      have hle := String.not_lt.mp (not_lt_first hfirst' hname)
      have hge := String.not_lt.mp (not_lt_first hfirst hname')
      obtain rfl := String.le_antisymm hge hle
      rw [List.lookup_cons_self] at hname
      obtain rfl := Option.some.inj hname
      refine congrArg _ (ih hrest hrest' fun key => ?_)
      have hkey := same key
      rw [lookup_cons_eq_ite, lookup_cons_eq_ite] at hkey
      by_cases hsame : key = name
      · subst key
        rw [lookup_eq_none_of_lt hfirst, lookup_eq_none_of_lt hfirst']
      · rwa [if_neg hsame, if_neg hsame] at hkey

end CountTable

end ToxEvents
