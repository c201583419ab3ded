import ToxEvents.Proofs.Wire.Form
set_option autoImplicit false

/-!
# Recognition

A reader recognizes a form if it accepts exactly the bytes of that form, wherever they stand in the
buffer and whatever follows them, and leaves what follows. Each combinator of readers has one lemma
that gives the form of the combination, so the forms of whole records come out step by step.
-/
namespace ToxEvents.Wire

/-- Success on `input` means that bytes of the form stand in front of what is left. -/
def Reader.Recognizes {α : Type} (reader : Reader α) (form : Bytes → α → Prop) : Prop :=
  ∀ (input rest : Input) (x : α),
    reader input = .ok (x, rest) ↔ ∃ bytes, input.bytes = bytes ++ rest.bytes ∧ form bytes x

theorem return_eq_ok_iff {ε α β : Type} {result : Except ε α} {f : α → β} {y : β} :
    (do return f (← result) : Except ε β) = .ok y ↔ ∃ x, result = .ok x ∧ y = f x := by
  cases result with
  | error e =>
    change Except.error e = Except.ok y ↔ _
    simp
  | ok x =>
    change Except.ok (f x) = Except.ok y ↔ _
    simp [eq_comm]

def Consumes {α : Type} (form : Bytes → α → Prop) : Prop :=
  ∀ ⦃bytes : Bytes⦄ ⦃x : α⦄, form bytes x → bytes ≠ []

theorem Sequence.eq_nil {α : Type} {form : Bytes → α → Prop} (hform : Consumes form)
    {xs : List α} (h : Sequence form [] xs) : xs = [] := by
  generalize hb : ([] : Bytes) = bytes at h
  cases h with
  | nil => rfl
  | cons first _ => exact absurd (List.append_eq_nil_iff.mp hb.symm).1 (hform first)

theorem sequence_iff_parts {α : Type} {form : Bytes → α → Prop} {bytes : Bytes} {xs : List α} :
    Sequence form bytes xs ↔
      ∃ parts : List (Bytes × α), bytes = parts.flatMap Prod.fst ∧ xs = parts.map Prod.snd ∧
        ∀ part ∈ parts, form part.1 part.2 := by
  constructor
  · intro h
    induction h with
    | nil => exact ⟨[], rfl, rfl, by simp⟩
    | @cons head tail x xs first others ih =>
      obtain ⟨parts, rfl, rfl, formed⟩ := ih
      refine ⟨(head, x) :: parts, rfl, rfl, fun part hpart => ?_⟩
      rcases List.mem_cons.mp hpart with rfl | hpart
      · exact first
      · exact formed part hpart
  · rintro ⟨parts, rfl, rfl, formed⟩
    induction parts with
    | nil => exact .nil
    | cons part parts ih =>
      have htail := ih fun part hpart => formed part (List.mem_cons_of_mem _ hpart)
      exact .cons (formed part List.mem_cons_self) htail

namespace Reader

variable {α β : Type} {reader : Reader α} {form : Bytes → α → Prop}

theorem bind_eq_ok_iff {next : α → Reader β} {input rest : Input} {y : β} :
    (reader >>= next) input = .ok (y, rest) ↔
      ∃ x mid, reader input = .ok (x, mid) ∧ next x mid = .ok (y, rest) := by
  simp only [bind, StateT.bind, Except.bind]
  cases reader input with
  | error fault => simp
  | ok result =>
    obtain ⟨x, mid⟩ := result
    constructor
    · intro h
      exact ⟨x, mid, rfl, h⟩
    · rintro ⟨_, _, ⟨⟩, h⟩
      exact h

theorem Recognizes.congr {form' : Bytes → α → Prop} (h : reader.Recognizes form)
    (same : ∀ bytes x, form bytes x ↔ form' bytes x) : reader.Recognizes form' := by
  intro input rest x
  simp only [h input rest x, same]

theorem Recognizes.bind {next : α → Reader β} {nextForm : α → Bytes → β → Prop}
    (h : reader.Recognizes form) (hnext : ∀ x, (next x).Recognizes (nextForm x)) :
    (reader >>= next).Recognizes fun bytes y =>
      ∃ x front back, bytes = front ++ back ∧ form front x ∧ nextForm x back y := by
  intro input rest y
  rw [bind_eq_ok_iff]
  constructor
  · rintro ⟨x, mid, hx, hy⟩
    obtain ⟨front, hfront, formed⟩ := (h _ _ _).mp hx
    obtain ⟨back, hback, formed'⟩ := (hnext x _ _ _).mp hy
    exact ⟨front ++ back, by rw [hfront, hback, List.append_assoc], x, front, back, rfl, formed,
      formed'⟩
  · rintro ⟨_, split, x, front, back, rfl, formed, formed'⟩
    refine ⟨x, .ofBytes (back ++ rest.bytes), ?_, ?_⟩
    · exact (h _ _ _).mpr ⟨front, by simpa using split, formed⟩
    · exact (hnext x _ _ _).mpr ⟨back, rfl, formed'⟩

theorem recognizes_pure (x : α) :
    (pure x : Reader α).Recognizes fun bytes y => bytes = [] ∧ y = x := by
  intro input rest y
  change Except.ok (x, input) = Except.ok (y, rest) ↔ _
  rw [Except.ok.injEq, Prod.mk.injEq]
  constructor
  · rintro ⟨rfl, rfl⟩
    exact ⟨[], rfl, rfl, rfl⟩
  · rintro ⟨_, split, rfl, rfl⟩
    exact ⟨rfl, Input.ext split⟩

theorem recognizes_throw (fault : Fault) :
    (throw fault : Reader α).Recognizes fun _ _ => False := by
  intro input rest x
  simp [throw, throwThe, MonadExceptOf.throw, StateT.lift, Except.bind, bind]

theorem recognizes_fail (cause : Cause) : (fail cause : Reader α).Recognizes fun _ _ => False :=
  recognizes_throw { cause }

theorem Recognizes.returning (h : reader.Recognizes form) (f : α → β) :
    (do return f (← reader)).Recognizes fun bytes y => ∃ x, form bytes x ∧ y = f x := by
  refine (h.bind fun x => recognizes_pure (f x)).congr fun bytes y => ?_
  constructor
  · rintro ⟨x, front, _, rfl, formed, rfl, rfl⟩
    exact ⟨x, by simpa using formed, rfl⟩
  · rintro ⟨x, formed, rfl⟩
    exact ⟨x, bytes, [], by simp, formed, rfl, rfl⟩

theorem Recognizes.map (h : reader.Recognizes form) (f : α → β) :
    (f <$> reader).Recognizes fun bytes y => ∃ x, form bytes x ∧ y = f x := by
  rw [map_eq_pure_bind]
  exact h.returning f

theorem Recognizes.checked {ε : Type} (h : reader.Recognizes form) {check : α → Except ε β}
    {next : α → Reader β} (accepts : ∀ {x y}, check x = .ok y → next x = pure y)
    (refuses : ∀ {x e}, check x = .error e → ∃ fault, next x = throw fault) :
    (reader >>= next).Recognizes fun bytes y => ∃ x, form bytes x ∧ check x = .ok y := by
  have hnext (x : α) : (next x).Recognizes fun bytes y => bytes = [] ∧ check x = .ok y := by
    cases hx : check x with
    | ok y =>
      rw [accepts hx]
      refine (recognizes_pure y).congr fun bytes y' => ?_
      simp [eq_comm]
    | error e =>
      obtain ⟨fault, hfault⟩ := refuses hx
      rw [hfault]
      refine (recognizes_throw fault).congr fun bytes y => ?_
      simp
  refine (h.bind hnext).congr fun bytes y => ?_
  constructor
  · rintro ⟨x, front, _, rfl, formed, rfl, accepted⟩
    exact ⟨x, by simpa using formed, accepted⟩
  · rintro ⟨x, formed, accepted⟩
    exact ⟨x, bytes, [], by simp, formed, rfl, accepted⟩

theorem Recognizes.within (h : reader.Recognizes form) (place : Place) :
    (within place reader).Recognizes form := by
  intro input rest x
  rw [← h input rest x, Reader.within]
  cases reader input with
  | error fault =>
    change Except.error (fault.inside place) = Except.ok (x, rest) ↔ _
    simp
  | ok result => exact Iff.rfl

theorem recognizes_skip (n : Nat) : (skip n).Recognizes fun taken _ => taken.length = n := by
  intro input rest x
  have hsize := input.size_eq
  simp only [skip]
  split
  · next enough =>
    simp only [Except.ok.injEq, Prod.mk.injEq, true_and]
    constructor
    · rintro rfl
      exact ⟨input.bytes.take n, by simp, List.length_take_of_le (by omega)⟩
    · rintro ⟨taken, split, rfl⟩
      exact (Input.bytes_eq_append_iff.mp split).2.2.symm
  · next short =>
    constructor
    · simp
    · rintro ⟨taken, split, rfl⟩
      exact absurd (Input.bytes_eq_append_iff.mp split).1 short

theorem recognizes_bytes (n : Nat) :
    (bytes n).Recognizes fun taken x => taken.length = n ∧ x = taken := by
  intro input rest x
  have hsize := input.size_eq
  simp only [bytes, Input.split?]
  by_cases enough : n ≤ input.size
  · simp only [enough, ↓reduceIte, Except.ok.injEq, Prod.mk.injEq]
    constructor
    · rintro ⟨rfl, rfl⟩
      exact ⟨input.bytes.take n, by simp, List.length_take_of_le (by omega), rfl⟩
    · rintro ⟨taken, split, rfl, rfl⟩
      obtain ⟨-, htake, hrest⟩ := Input.bytes_eq_append_iff.mp split
      exact ⟨htake.symm, hrest.symm⟩
  · simp only [enough, ↓reduceIte, reduceCtorEq, false_iff]
    rintro ⟨taken, split, rfl, -⟩
    exact enough (Input.bytes_eq_append_iff.mp split).1

theorem Recognizes.size_le (h : reader.Recognizes form) {input rest : Input} {x : α}
    (hx : reader input = .ok (x, rest)) : rest.size ≤ input.size := by
  obtain ⟨bytes, split, -⟩ := (h _ _ _).mp hx
  rw [input.size_eq, rest.size_eq, split, List.length_append]
  omega

section
variable {item : Reader α}

theorem Recognizes.size_lt (h : item.Recognizes form) (hform : Consumes form) {input rest : Input}
    {x : α} (hx : item input = .ok (x, rest)) : rest.size < input.size := by
  obtain ⟨bytes, split, formed⟩ := (h _ _ _).mp hx
  have hlength := List.length_pos_iff.mpr (hform formed)
  rw [input.size_eq, rest.size_eq, split, List.length_append]
  omega

theorem size_le_of_itemsFrom (h : item.Recognizes form) (hform : Consumes form)
    {stop fuel : Nat} {acc xs : List α} {input rest : Input} (enough : input.size ≤ fuel)
    (hxs : itemsFrom item stop fuel acc input = .ok (xs, rest)) : rest.size ≤ stop := by
  induction fuel generalizing acc input with
  | zero =>
    simp only [itemsFrom, Except.ok.injEq, Prod.mk.injEq] at hxs
    obtain ⟨-, rfl⟩ := hxs
    omega
  | succ fuel ih =>
    simp only [itemsFrom] at hxs
    split at hxs
    · next done =>
      simp only [Except.ok.injEq, Prod.mk.injEq] at hxs
      exact hxs.2 ▸ done
    · split at hxs
      · simp at hxs
      · next x mid hx =>
        have := h.size_lt hform hx
        exact ih (by omega) hxs

def Continues (form : Bytes → α → Prop) (acc xs : List α) (input rest : Input) : Prop :=
  ∃ bytes ys, input.bytes = bytes ++ rest.bytes ∧ Sequence form bytes ys ∧ xs = acc.reverse ++ ys

theorem continues_at_end (hform : Consumes form) {acc xs : List α} {input rest : Input}
    (done : input.size ≤ rest.size) :
    Continues form acc xs input rest ↔ acc.reverse = xs ∧ input = rest := by
  constructor
  · rintro ⟨bytes, ys, split, formed, rfl⟩
    have hnil : bytes = [] := by
      have hlength := congrArg List.length split
      rw [List.length_append, ← input.size_eq, ← rest.size_eq] at hlength
      exact List.eq_nil_of_length_eq_zero (by omega)
    subst hnil
    exact ⟨by rw [formed.eq_nil hform, List.append_nil], Input.ext split⟩
  · rintro ⟨rfl, rfl⟩
    exact ⟨[], [], rfl, .nil, by simp⟩

theorem Recognizes.continues_iff (h : item.Recognizes form) {acc xs : List α} {input rest : Input}
    (more : rest.size < input.size) :
    Continues form acc xs input rest ↔
      ∃ x mid, item input = .ok (x, mid) ∧ Continues form (x :: acc) xs mid rest := by
  constructor
  · rintro ⟨_, _, split, formed, rfl⟩
    cases formed with
    | nil =>
      rw [Input.ext split] at more
      exact absurd more (Nat.lt_irrefl _)
    | @cons head tail x ys first others =>
      refine ⟨x, .ofBytes (tail ++ rest.bytes), ?_, tail, ys, rfl, others, by simp⟩
      exact (h _ _ _).mpr ⟨head, by simpa using split, first⟩
  · rintro ⟨x, mid, hx, tail, ys, split, others, rfl⟩
    obtain ⟨head, hhead, first⟩ := (h _ _ _).mp hx
    exact ⟨head ++ tail, x :: ys, by rw [hhead, split, List.append_assoc], .cons first others,
      by simp⟩

theorem itemsFrom_eq_ok_iff (h : item.Recognizes form) (hform : Consumes form)
    {stop fuel : Nat} {acc xs : List α} {input rest : Input} (enough : input.size ≤ fuel)
    (ends : rest.size = stop) :
    itemsFrom item stop fuel acc input = .ok (xs, rest) ↔ Continues form acc xs input rest := by
  -- Every item takes a byte, so the fuel that is left stays enough for the bytes that are left.
  induction fuel generalizing acc input with
  | zero =>
    rw [continues_at_end hform (by omega)]
    simp [itemsFrom]
  | succ fuel ih =>
    simp only [itemsFrom]
    split
    · next done =>
      rw [continues_at_end hform (by omega)]
      simp
    · next more =>
      rw [h.continues_iff (by omega)]
      split
      · next fault failed => simp [failed]
      · next x mid hx =>
        have hmid := h.size_lt hform hx
        simp only [hx, Except.ok.injEq, Prod.mk.injEq]
        rw [ih (by omega)]
        constructor
        · intro further
          exact ⟨x, mid, ⟨rfl, rfl⟩, further⟩
        · rintro ⟨_, _, ⟨rfl, rfl⟩, further⟩
          exact further

/-- A section of known length is a sequence of items that fills it, although its end is looked for
only between them. -/
theorem Recognizes.itemsWithin (h : item.Recognizes form) (hform : Consumes form) (length : Nat) :
    (itemsWithin item length).Recognizes fun bytes xs =>
      bytes.length = length ∧ Sequence form bytes xs := by
  intro input rest xs
  have hsize := input.size_eq
  have hrest := rest.size_eq
  have hends (ends : rest.size = input.size - length) :
      items item (input.size - length) input = .ok (xs, rest) ↔
        ∃ bytes, input.bytes = bytes ++ rest.bytes ∧ Sequence form bytes xs := by
    rw [items, itemsFrom_eq_ok_iff h hform (Nat.le_refl _) ends]
    simp [Continues]
  simp only [Reader.itemsWithin]
  by_cases short : input.size < length
  · simp only [short, ↓reduceIte, reduceCtorEq, false_iff]
    rintro ⟨bytes, split, rfl, -⟩
    have := (Input.bytes_eq_append_iff.mp split).1
    omega
  · simp only [short, ↓reduceIte]
    constructor
    · intro hxs
      split at hxs
      · simp at hxs
      · next ys mid found =>
        split at hxs
        · next ends =>
          simp only [Except.ok.injEq, Prod.mk.injEq] at hxs
          obtain ⟨rfl, rfl⟩ := hxs
          obtain ⟨bytes, split, formed⟩ := (hends ends).mp found
          have := congrArg List.length split
          rw [List.length_append] at this
          exact ⟨bytes, split, by omega, formed⟩
        · simp at hxs
    · rintro ⟨bytes, split, rfl, formed⟩
      have := congrArg List.length split
      rw [List.length_append] at this
      have ends : rest.size = input.size - bytes.length := by omega
      simp [(hends ends).mpr ⟨bytes, split, formed⟩, ends]

theorem items_ofBytes_eq_ok_iff (h : item.Recognizes form) (hform : Consumes form) {bytes : Bytes}
    {xs : List α} :
    (∃ rest, items item 0 (.ofBytes bytes) = .ok (xs, rest)) ↔ Sequence form bytes xs := by
  constructor
  · rintro ⟨rest, hxs⟩
    have ends := size_le_of_itemsFrom h hform (Nat.le_refl _) hxs
    rw [items, itemsFrom_eq_ok_iff h hform (Nat.le_refl _) (by omega)] at hxs
    obtain ⟨_, ys, split, formed, rfl⟩ := hxs
    have hnil : rest.bytes = [] := List.eq_nil_of_length_eq_zero (by rw [← rest.size_eq]; omega)
    simp only [Input.ofBytes_bytes, hnil, List.append_nil] at split
    simpa [split] using formed
  · intro formed
    have ends : (Input.ofBytes []).size = 0 := rfl
    refine ⟨.ofBytes [], ?_⟩
    rw [items, itemsFrom_eq_ok_iff h hform (Nat.le_refl _) ends]
    exact ⟨bytes, xs, by simp, formed, by simp⟩

theorem Recognizes.whole (h : item.Recognizes form) (hform : Consumes form) {bytes : Bytes}
    (f : List α → β) {y : β} :
    (do
      let (xs, _) ← items item 0 (.ofBytes bytes)
      return f xs : Except Fault β) = .ok y ↔ ∃ xs, Sequence form bytes xs ∧ y = f xs := by
  simp only [← items_ofBytes_eq_ok_iff h hform]
  cases items item 0 (.ofBytes bytes) with
  | error fault =>
    change Except.error fault = Except.ok y ↔ _
    simp
  | ok result =>
    obtain ⟨xs, rest⟩ := result
    change Except.ok (f xs) = Except.ok y ↔ _
    constructor
    · rintro ⟨⟩
      exact ⟨xs, ⟨rest, rfl⟩, rfl⟩
    · rintro ⟨_, ⟨_, ⟨⟩⟩, rfl⟩
      rfl

end

end Reader

end ToxEvents.Wire
