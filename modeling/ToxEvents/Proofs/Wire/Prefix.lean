import ToxEvents.Proofs.Wire.Recognition
set_option autoImplicit false

/-!
# Cutting and joining sequences

A form that a reader recognizes is free of prefixes: the reader stops where the form ends, so the
same bytes cannot begin with two such forms. A sequence can therefore be cut only between its items,
and a repetition that has read some items goes on with what follows them as if that stood alone.
-/
namespace ToxEvents.Wire.Reader

variable {α : Type} {item : Reader α} {form : Bytes → α → Prop}

theorem Recognizes.prefix_unique (h : item.Recognizes form) {front front' back back' : Bytes}
    {x x' : α} (formed : form front x) (formed' : form front' x')
    (same : front ++ back = front' ++ back') : front = front' ∧ x = x' ∧ back = back' := by
  have hread : item (.ofBytes (front ++ back)) = .ok (x, .ofBytes back) :=
    (h _ _ _).mpr ⟨front, rfl, formed⟩
  have hread' : item (.ofBytes (front' ++ back')) = .ok (x', .ofBytes back') :=
    (h _ _ _).mpr ⟨front', rfl, formed'⟩
  rw [same, hread'] at hread
  obtain ⟨rfl, hrest⟩ := Prod.mk.inj (Except.ok.inj hread)
  obtain rfl : back' = back := congrArg Input.bytes hrest
  exact ⟨List.append_cancel_right same, rfl, rfl⟩

/-- What is cut off in front of a sequence is itself a sequence only if it is some of the first
items. -/
theorem Recognizes.exists_take (h : item.Recognizes form) {β : Type} {write : β → Bytes}
    {value : β → α} {parts : List β}
    (formed : ∀ part ∈ parts, form (write part) (value part)) {cut : Bytes} {xs : List α}
    (isCut : cut <+: parts.flatMap write) (sequence : Sequence form cut xs) :
    ∃ k, cut = (parts.take k).flatMap write := by
  induction parts generalizing cut xs with
  | nil =>
    rw [List.prefix_nil.mp isCut]
    exact ⟨0, rfl⟩
  | cons part parts ih =>
    cases sequence with
    | nil => exact ⟨0, rfl⟩
    | @cons head tail x xs first others =>
      obtain ⟨back, hback⟩ := isCut
      rw [List.append_assoc, List.flatMap_cons] at hback
      obtain ⟨rfl, -, htail⟩ := h.prefix_unique first (formed part List.mem_cons_self) hback
      have hothers : tail <+: parts.flatMap write := ⟨back, htail⟩
      obtain ⟨k, rfl⟩ := ih (fun part hpart => formed part (List.mem_cons_of_mem _ hpart)) hothers
        others
      exact ⟨k + 1, rfl⟩

theorem itemsFrom_eq_map (stop fuel : Nat) (acc : List α) (input : Input) :
    itemsFrom item stop fuel acc input =
      (itemsFrom item stop fuel [] input).map fun (xs, rest) => (acc.reverse ++ xs, rest) := by
  induction fuel generalizing acc input with
  | zero => simp [itemsFrom, Except.map]
  | succ fuel ih =>
    simp only [itemsFrom]
    split
    · simp [Except.map]
    · split
      · rfl
      · next x rest _ =>
        rw [ih (x :: acc), ih [x]]
        cases itemsFrom item stop fuel [] rest with
        | error fault => rfl
        | ok result => simp [Except.map]

theorem itemsFrom_fuel_irrel
    (shrinks : ∀ {input rest x}, item input = .ok (x, rest) → rest.size < input.size)
    {stop fuel fuel' : Nat} {acc : List α} {input : Input} (enough : input.size ≤ fuel)
    (enough' : input.size ≤ fuel') :
    itemsFrom item stop fuel acc input = itemsFrom item stop fuel' acc input := by
  induction fuel generalizing fuel' acc input with
  | zero =>
    cases fuel' with
    | zero => rfl
    | succ fuel' =>
      have hstop : input.size ≤ stop := by omega
      simp only [itemsFrom, hstop, ↓reduceIte]
  | succ fuel ih =>
    cases fuel' with
    | zero =>
      have hstop : input.size ≤ stop := by omega
      simp only [itemsFrom, hstop, ↓reduceIte]
    | succ fuel' =>
      simp only [itemsFrom]
      split
      · rfl
      · split
        · rfl
        · next x rest found =>
          have hrest := shrinks found
          exact ih (by omega) (by omega)

theorem items_of_read (h : item.Recognizes form) (hform : Consumes form) {input rest : Input}
    {x : α} (found : item input = .ok (x, rest)) :
    items item 0 input = (items item 0 rest).map fun (xs, last) => (x :: xs, last) := by
  have hrest := h.size_lt hform found
  obtain ⟨more, hmore⟩ : ∃ more, input.size = more + 1 := ⟨input.size - 1, by omega⟩
  have hstop : ¬ input.size ≤ 0 := by omega
  calc
    items item 0 input = itemsFrom item 0 (more + 1) [] input := by rw [items, hmore]
    _ = itemsFrom item 0 more [x] rest := by simp only [itemsFrom, hstop, ↓reduceIte, found]
    _ = itemsFrom item 0 rest.size [x] rest :=
      itemsFrom_fuel_irrel (fun hx => h.size_lt hform hx) (by omega) (Nat.le_refl _)
    _ = (items item 0 rest).map fun (xs, last) => (x :: xs, last) := itemsFrom_eq_map 0 _ [x] rest

/-- Behind a sequence the repetition starts anew, faults included. -/
theorem items_append (h : item.Recognizes form) (hform : Consumes form) {front : Bytes}
    {xs : List α} (sequence : Sequence form front xs) (back : Bytes) :
    items item 0 (.ofBytes (front ++ back)) =
      (items item 0 (.ofBytes back)).map fun (ys, last) => (xs ++ ys, last) := by
  induction sequence with
  | nil =>
    rw [List.nil_append]
    cases items item 0 (.ofBytes back) <;> rfl
  | @cons head tail x xs first others ih =>
    have found : item (.ofBytes (head ++ tail ++ back)) = .ok (x, .ofBytes (tail ++ back)) :=
      (h _ _ _).mpr ⟨head, by simp, first⟩
    rw [items_of_read h hform found, ih]
    cases items item 0 (.ofBytes back) <;> rfl

end ToxEvents.Wire.Reader
