import ToxEvents.Proofs.Wire.Recognition
set_option autoImplicit false

namespace ToxEvents.Wire

namespace Varint

/-- One more than the highest number in `left` groups. -/
def Groups.limit : Nat → Nat
  | 0 => 0
  | 1 => 2
  | left + 2 => 128 * limit (left + 1)

theorem Groups.le_limit (left : Nat) : 2 ≤ limit (left + 1) := by
  induction left with
  | zero => exact Nat.le_refl _
  | succ left ih =>
    simp only [limit]
    omega

theorem Groups.lt_limit {left n : Nat} {bytes : Bytes} (h : Groups left bytes n) :
    n < limit left := by
  induction h with
  | @last left b low tenth =>
    cases left with
    | zero => exact Nat.lt_succ_of_le (UInt8.le_iff_toNat_le.mp (tenth rfl))
    | succ left =>
      have := le_limit left
      have := UInt8.lt_iff_toNat_lt.mp low
      simp only [limit, UInt8.toNat_ofNat] at *
      omega
  | @more left high b bytes continued others ih =>
    cases left with
    | zero => cases others
    | succ left =>
      have := b.toNat_lt
      simp only [limit]
      omega

theorem Groups.ne_nil {left n : Nat} {bytes : Bytes} (h : Groups left bytes n) : bytes ≠ [] := by
  cases h <;> simp

theorem groups_cons_iff {left n : Nat} {b : UInt8} {input mid rest : Input}
    (found : input.bytes = b :: mid.bytes) :
    (∃ bytes, input.bytes = bytes ++ rest.bytes ∧ Groups (left + 1) bytes n) ↔
      (b < 128 ∧ (left = 0 → b ≤ 1) ∧ b.toNat = n ∧ mid = rest) ∨
      (128 ≤ b ∧ ∃ high, b.toNat - 128 + 128 * high = n ∧
        ∃ bytes, mid.bytes = bytes ++ rest.bytes ∧ Groups left bytes high) := by
  rw [found]
  constructor
  · rintro ⟨bytes, split, formed⟩
    cases formed with
    | last low tenth =>
      obtain ⟨rfl, hrest⟩ := List.cons.inj split
      exact .inl ⟨low, tenth, rfl, Input.ext hrest⟩
    | more continued others =>
      obtain ⟨rfl, hrest⟩ := List.cons.inj split
      exact .inr ⟨continued, _, rfl, _, hrest, others⟩
  · rintro (⟨low, tenth, rfl, rfl⟩ | ⟨continued, high, rfl, bytes, split, others⟩)
    · exact ⟨[b], rfl, .last low tenth⟩
    · exact ⟨b :: bytes, by rw [split]; rfl, .more continued others⟩

theorem recognizes_readWithin (left : Nat) : (readWithin left).Recognizes (Groups left) := by
  induction left with
  | zero =>
    intro input rest n
    simp only [readWithin, reduceCtorEq, false_iff]
    rintro ⟨_, _, ⟨⟩⟩
  | succ left ih =>
    intro input rest n
    simp only [readWithin]
    split
    · next nothing =>
      rw [Input.next?_eq_none_iff] at nothing
      simp only [reduceCtorEq, false_iff, nothing]
      rintro ⟨bytes, split, formed⟩
      exact formed.ne_nil (List.append_eq_nil_iff.mp split.symm).1
    · next b mid found =>
      rw [Input.next?_eq_some_iff] at found
      rw [groups_cons_iff found]
      split
      · next low =>
        have hhigh : ¬ 128 ≤ b := UInt8.not_le.mpr low
        split
        · next wide =>
          have hwide : ¬ b ≤ 1 := UInt8.not_le.mpr wide.2
          simp [hhigh, hwide, wide.1]
        · next fits =>
          have htenth : left = 0 → b ≤ 1 := fun h => UInt8.not_lt.mp fun hb => fits ⟨h, hb⟩
          simp only [Except.ok.injEq, Prod.mk.injEq, low, hhigh, true_and, false_and, or_false]
          exact (and_iff_right htenth).symm
      · next high =>
        have hhigh : 128 ≤ b := UInt8.not_lt.mp high
        simp only [high, false_and, hhigh, true_and, false_or]
        split
        · next fault failed =>
          simp only [reduceCtorEq, false_iff]
          rintro ⟨m, -, further⟩
          rw [← ih mid rest m, failed] at further
          cases further
        · next m last hm =>
          simp only [Except.ok.injEq, Prod.mk.injEq]
          constructor
          · rintro ⟨rfl, rfl⟩
            exact ⟨m, rfl, (ih mid last m).mp hm⟩
          · rintro ⟨m', rfl, further⟩
            rw [← ih mid rest m', hm] at further
            cases further
            exact ⟨rfl, rfl⟩

theorem recognizes_read : read.Recognizes Form := by
  refine ((recognizes_readWithin 10).returning UInt64.ofNat).congr fun bytes n => ?_
  constructor
  · rintro ⟨m, formed, rfl⟩
    have hm : m < 18446744073709551616 := formed.lt_limit
    rw [Form, UInt64.toNat_ofNat_of_lt' hm]
    exact formed
  · intro formed
    exact ⟨n.toNat, formed, UInt64.ofNat_toNat.symm⟩

end Varint

theorem Reader.recognizes_delimited {α : Type} {reader : Nat → Reader α}
    {form : Bytes → α → Prop}
    (h : ∀ n, (reader n).Recognizes fun bytes x => bytes.length = n ∧ form bytes x) :
    (do reader (← Varint.read).toNat).Recognizes fun bytes x =>
      ∃ payload, Delimits bytes payload ∧ form payload x := by
  refine (Varint.recognizes_read.bind fun n => h n.toNat).congr fun bytes x => ?_
  constructor
  · rintro ⟨n, lead, payload, rfl, hn, hlength, formed⟩
    exact ⟨payload, ⟨lead, n, rfl, hn, hlength.symm⟩, formed⟩
  · rintro ⟨payload, ⟨lead, n, rfl, hn, hlength⟩, formed⟩
    exact ⟨n, lead, payload, rfl, hn, hlength.symm, formed⟩

end ToxEvents.Wire
