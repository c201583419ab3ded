import ToxEvents.Session.Slots
set_option autoImplicit false

namespace ToxEvents.SlotTable

variable {κ s : Type}

def entriesFrom : Nat → List (Option κ) → List (Nat × κ)
  | _, [] => []
  | i, none :: rest => entriesFrom (i + 1) rest
  | i, some k :: rest => (i, k) :: entriesFrom (i + 1) rest

def entries (t : SlotTable κ) : List (Nat × κ) := entriesFrom 0 t.slots

def callAll {ι : Type} (run : κ → s → κ × s) : List (ι × κ) → s → List (ι × κ) × s
  | [], state => ([], state)
  | (i, k) :: rest, state =>
    let (k, state) := run k state
    let (rest, state) := callAll run rest state
    ((i, k) :: rest, state)

theorem entriesFrom_append (i : Nat) (xs ys : List (Option κ)) :
    entriesFrom i (xs ++ ys) = entriesFrom i xs ++ entriesFrom (i + xs.length) ys := by
  induction xs generalizing i with
  | nil => rfl
  | cons slot xs ih =>
    have hi : i + (xs.length + 1) = i + 1 + xs.length := by omega
    cases slot with
    | none => rw [List.length_cons, hi]; exact ih (i + 1)
    | some k => rw [List.length_cons, hi]; exact congrArg ((i, k) :: ·) (ih (i + 1))

theorem entriesFrom_trim (i : Nat) (slots : List (Option κ)) :
    entriesFrom i (trim slots) = entriesFrom i slots := by
  induction slots generalizing i with
  | nil => rfl
  | cons slot rest ih =>
    have hrest := ih (i + 1)
    cases slot with
    | some k => exact congrArg ((i, k) :: ·) hrest
    | none =>
      cases htrim : trim rest with
      | nil =>
        rw [htrim] at hrest
        simpa only [trim, htrim, entriesFrom] using hrest
      | cons slot' rest' =>
        rw [htrim] at hrest
        simpa only [trim, htrim, entriesFrom] using hrest

theorem mem_entriesFrom {i j : Nat} {k : κ} {slots : List (Option κ)} :
    (j, k) ∈ entriesFrom i slots ↔ ∃ n, j = i + n ∧ slots[n]? = some (some k) := by
  induction slots generalizing i with
  | nil => simp [entriesFrom]
  | cons slot rest ih =>
    have hrest : (∃ n, j = i + n ∧ (slot :: rest)[n]? = some (some k)) ↔
        (j = i ∧ slot = some k) ∨ ∃ n, j = i + 1 + n ∧ rest[n]? = some (some k) := by
      constructor
      · rintro ⟨n, hj, hn⟩
        cases n with
        | zero => exact .inl ⟨hj, by simpa using hn⟩
        | succ n => exact .inr ⟨n, by omega, by simpa using hn⟩
      · rintro (⟨hj, hslot⟩ | ⟨n, hj, hn⟩)
        · exact ⟨0, hj, by simp [hslot]⟩
        · exact ⟨n + 1, by omega, by simpa using hn⟩
    rw [hrest]
    cases slot with
    | none => simpa [entriesFrom] using ih
    | some k' => simp [entriesFrom, ih, eq_comm]

theorem pairwise_entriesFrom (i : Nat) (slots : List (Option κ)) :
    (entriesFrom i slots).Pairwise (·.1 < ·.1) := by
  induction slots generalizing i with
  | nil => exact .nil
  | cons slot rest ih =>
    cases slot with
    | none => exact ih (i + 1)
    | some k =>
      refine .cons (fun entry later => ?_) (ih (i + 1))
      obtain ⟨n, hn, -⟩ := mem_entriesFrom.mp later
      change i < entry.1
      omega

theorem entriesFrom_set_none (i n : Nat) (slots : List (Option κ)) :
    entriesFrom i (slots.set n none) = (entriesFrom i slots).filter (·.1 ≠ i + n) := by
  induction slots generalizing i n with
  | nil => rfl
  | cons slot rest ih =>
    cases n with
    | zero =>
      -- Every index of the rest lies beyond the slot that is emptied.
      have hkeep : (entriesFrom (i + 1) rest).filter (·.1 ≠ i + 0) = entriesFrom (i + 1) rest := by
        refine List.filter_eq_self.mpr fun entry later => ?_
        obtain ⟨m, hm, -⟩ := mem_entriesFrom.mp later
        have : entry.1 ≠ i + 0 := by omega
        simpa using this
      cases slot with
      | none => exact hkeep.symm
      | some k => simpa [entriesFrom] using hkeep.symm
    | succ n =>
      have hn : i + (n + 1) = i + 1 + n := by omega
      rw [List.set_cons_succ, hn]
      cases slot with
      | none => exact ih (i + 1) n
      | some k =>
        have hk : i ≠ i + 1 + n := by omega
        simp [entriesFrom, ih, hk]

theorem map_snd_entriesFrom (i : Nat) (slots : List (Option κ)) :
    (entriesFrom i slots).map Prod.snd = slots.filterMap id := by
  induction slots generalizing i with
  | nil => rfl
  | cons slot rest ih =>
    cases slot with
    | none => simpa [entriesFrom] using ih (i + 1)
    | some k => simpa [entriesFrom] using ih (i + 1)

variable (run : κ → s → κ × s)

theorem callAll_entriesFrom (i : Nat) (slots : List (Option κ)) (state : s) :
    callAll run (entriesFrom i slots) state =
      (entriesFrom i (runAll run slots state).1, (runAll run slots state).2) := by
  induction slots generalizing i state with
  | nil => rfl
  | cons slot rest ih =>
    cases slot with
    | none => exact ih (i + 1) state
    | some k =>
      have hrest := ih (i + 1) (run k state).2
      simp only [entriesFrom, callAll, runAll, hrest]

theorem map_isSome_runAll (slots : List (Option κ)) (state : s) :
    (runAll run slots state).1.map Option.isSome = slots.map Option.isSome := by
  induction slots generalizing state with
  | nil => rfl
  | cons slot rest ih =>
    cases slot with
    | none => simpa [runAll] using ih state
    | some k => simpa [runAll] using ih (run k state).2

theorem runAll_of_unchanging {run : κ → s → κ × s} (unchanging : ∀ k state, (run k state).1 = k)
    (slots : List (Option κ)) (state : s) : (runAll run slots state).1 = slots := by
  induction slots generalizing state with
  | nil => rfl
  | cons slot rest ih =>
    cases slot with
    | none => simpa [runAll] using ih state
    | some k => simpa [runAll, unchanging] using ih (run k state).2

section
variable {ι ι' : Type}

theorem callAll_map (rename : ι → ι') (calls : List (ι × κ)) (state : s) :
    callAll run (calls.map fun call => (rename call.1, call.2)) state =
      ((callAll run calls state).1.map fun call => (rename call.1, call.2),
        (callAll run calls state).2) := by
  induction calls generalizing state with
  | nil => rfl
  | cons call calls ih => simp only [List.map_cons, callAll, ih]

theorem map_fst_callAll (calls : List (ι × κ)) (state : s) :
    (callAll run calls state).1.map Prod.fst = calls.map Prod.fst := by
  induction calls generalizing state with
  | nil => rfl
  | cons call calls ih => simp only [callAll, List.map_cons, ih]

end

variable (t : SlotTable κ)

theorem mem_entries {t : SlotTable κ} {i : Nat} {k : κ} :
    (i, k) ∈ t.entries ↔ t.slots[i]? = some (some k) := by
  simp [entries, mem_entriesFrom]

theorem pairwise_entries : t.entries.Pairwise (·.1 < ·.1) := pairwise_entriesFrom 0 t.slots

theorem live_eq : t.live = t.entries.map Prod.snd := (map_snd_entriesFrom 0 t.slots).symm

theorem entries_add (k : κ) : (t.add k).1.entries = t.entries ++ [((t.add k).2, k)] := by
  simp [add, entries, entriesFrom_append, entriesFrom]

/-- Whatever slot is named, its entry goes and all others stay. -/
theorem entries_remove (i : Nat) : (t.remove i).1.entries = t.entries.filter (·.1 ≠ i) := by
  have hnone (vacant : ∀ k, t.slots[i]? ≠ some (some k)) :
      t.entries.filter (·.1 ≠ i) = t.entries := by
    refine List.filter_eq_self.mpr fun entry member => ?_
    have hne : entry.1 ≠ i := by
      rintro rfl
      exact vacant entry.2 (mem_entries.mp member)
    simpa using hne
  unfold remove
  split
  case h_1 beyond => exact (hnone (by simp [beyond])).symm
  case h_2 vacant => exact (hnone (by simp [vacant])).symm
  case h_3 k live =>
    unfold entries
    rw [entriesFrom_trim, entriesFrom_set_none, Nat.zero_add]

theorem remove_snd_of_mem {t : SlotTable κ} {i : Nat} {k : κ} (member : (i, k) ∈ t.entries) :
    (t.remove i).2 = .removed := by
  unfold remove
  rw [mem_entries.mp member]

theorem runAll_snd (slots : List (Option κ)) (state : s) :
    (runAll run slots state).2 =
      (slots.filterMap id).foldl (fun state k => (run k state).2) state := by
  induction slots generalizing state with
  | nil => rfl
  | cons slot rest ih =>
    cases slot with
    | none => exact ih state
    | some k => exact ih (run k state).2

/-- Seen from outside, invoking a table is one fold over its live callbacks. -/
theorem invoke_snd (state : s) :
    (t.invoke run state).2 = t.live.foldl (fun state k => (run k state).2) state :=
  runAll_snd run t.slots state

theorem entries_invoke (state : s) :
    callAll run t.entries state = ((t.invoke run state).1.entries, (t.invoke run state).2) :=
  callAll_entriesFrom run 0 t.slots state

end ToxEvents.SlotTable
