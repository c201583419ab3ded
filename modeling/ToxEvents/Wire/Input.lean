set_option autoImplicit false

/-!
# What is left of a buffer

The reader walks one buffer and never cuts it, so a position is the list of bytes still unread.
Its length is kept beside it, because every length field is checked against it.
-/
namespace ToxEvents.Wire

abbrev Bytes := List UInt8

structure Input where
  bytes : Bytes
  size : Nat := bytes.length
  size_eq : size = bytes.length := by rfl

namespace Input

def ofBytes (bytes : Bytes) : Input := { bytes }

@[ext]
theorem ext {a b : Input} (h : a.bytes = b.bytes) : a = b := by
  cases a with | mk _ _ ha =>
  cases b with | mk _ _ hb =>
  cases h
  subst ha hb
  rfl

def next? (input : Input) : Option (UInt8 × Input) :=
  match input with
  | ⟨[], _, _⟩ => none
  | ⟨b :: bs, size, h⟩ => some (b, ⟨bs, size - 1, by simp_all⟩)

def drop (n : Nat) (input : Input) : Input :=
  ⟨input.bytes.drop n, input.size - n, by simp [input.size_eq]⟩

def split? (n : Nat) (input : Input) : Option (Bytes × Input) :=
  if n ≤ input.size then some (input.bytes.take n, input.drop n) else none

@[simp]
theorem ofBytes_bytes (bs : Bytes) : (ofBytes bs).bytes = bs := rfl

@[simp]
theorem drop_bytes (n : Nat) (input : Input) : (input.drop n).bytes = input.bytes.drop n := rfl

theorem next?_eq_none_iff {input : Input} : input.next? = none ↔ input.bytes = [] := by
  obtain ⟨bytes, size, hs⟩ := input
  cases bytes <;> simp [next?]

theorem next?_eq_some_iff {input rest : Input} {b : UInt8} :
    input.next? = some (b, rest) ↔ input.bytes = b :: rest.bytes := by
  obtain ⟨bytes, size, hs⟩ := input
  cases bytes with
  | nil => simp [next?]
  | cons c cs =>
    simp only [next?, Option.some.injEq, Prod.mk.injEq, List.cons.injEq]
    constructor
    · rintro ⟨rfl, rfl⟩
      exact ⟨rfl, rfl⟩
    · rintro ⟨rfl, h⟩
      exact ⟨rfl, ext h⟩

theorem bytes_eq_append_iff {input rest : Input} {bytes : Bytes} :
    input.bytes = bytes ++ rest.bytes ↔
      bytes.length ≤ input.size ∧ bytes = input.bytes.take bytes.length ∧
        rest = input.drop bytes.length := by
  have hsize := input.size_eq
  constructor
  · intro split
    refine ⟨?_, ?_, ext ?_⟩
    · rw [hsize, split, List.length_append]
      omega
    · rw [split, List.take_left]
    · rw [drop_bytes, split, List.drop_left]
  · rintro ⟨-, htake, rfl⟩
    rw [drop_bytes]
    calc
      input.bytes = input.bytes.take bytes.length ++ input.bytes.drop bytes.length :=
        (List.take_append_drop _ _).symm
      _ = bytes ++ input.bytes.drop bytes.length := by rw [← htake]

end Input

end ToxEvents.Wire
