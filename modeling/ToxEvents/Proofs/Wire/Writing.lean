import ToxEvents.Proofs.Wire.Record
set_option autoImplicit false

namespace ToxEvents.Wire

theorem Sequence.append {α : Type} {form : Bytes → α → Prop} {front back : Bytes}
    {xs ys : List α} (h : Sequence form front xs) (h' : Sequence form back ys) :
    Sequence form (front ++ back) (xs ++ ys) := by
  induction h with
  | nil => exact h'
  | cons first _ ih =>
    rw [List.append_assoc]
    exact .cons first ih

theorem Sequence.flatMap {α β : Type} {form : Bytes → α → Prop} {write : β → Bytes}
    {values : β → List α} {xs : List β} (h : ∀ x ∈ xs, Sequence form (write x) (values x)) :
    Sequence form (xs.flatMap write) (xs.flatMap values) := by
  induction xs with
  | nil => exact .nil
  | cons x xs ih =>
    have htail := ih fun y hy => h y (List.mem_cons_of_mem _ hy)
    exact (h x List.mem_cons_self).append htail

theorem Sequence.single {α : Type} {form : Bytes → α → Prop} {bytes : Bytes} {x : α}
    (h : form bytes x) : Sequence form bytes [x] := by
  simpa using Sequence.cons h .nil

namespace Varint

theorem groups_encodeWithin {more n : Nat} (h : n < Groups.limit (more + 1)) :
    Groups (more + 1) (encodeWithin more n) n := by
  induction more generalizing n with
  | zero =>
    have hn : n < 2 := h
    have hcases : n = 0 ∨ n = 1 := by omega
    rcases hcases with rfl | rfl
    · exact .last (b := 0) (by decide) (by decide)
    · exact .last (b := 1) (by decide) (by decide)
  | succ more ih =>
    simp only [Groups.limit] at h
    simp only [encodeWithin]
    split
    · next short =>
      have hb : n.toUInt8.toNat = n :=
        UInt8.toNat_ofNat_of_lt' (Nat.lt_trans short (by decide))
      have hgroups : Groups (more + 2) [n.toUInt8] n.toUInt8.toNat :=
        .last (UInt8.lt_iff_toNat_lt.mpr (by rw [hb]; exact short)) (by simp)
      rwa [hb] at hgroups
    · next long =>
      have hsize : n % 128 + 128 < UInt8.size := show n % 128 + 128 < 256 by omega
      have hb : (n % 128 + 128).toUInt8.toNat = n % 128 + 128 := UInt8.toNat_ofNat_of_lt' hsize
      have continued : 128 ≤ (n % 128 + 128).toUInt8 :=
        UInt8.le_iff_toNat_le.mpr (by rw [hb]; exact Nat.le_add_left 128 _)
      have others : Groups (more + 1) (encodeWithin more (n / 128)) (n / 128) := ih (by omega)
      have hgroups := Groups.more continued others
      rw [hb] at hgroups
      have hn : n % 128 + 128 - 128 + 128 * (n / 128) = n := by omega
      rwa [hn] at hgroups

theorem form_encode (n : UInt64) : Form (encode n) n :=
  groups_encodeWithin n.toNat_lt

end Varint

theorem Key.form_encode {key : Key} (positive : 0 < key.tag)
    (fits : 8 * key.tag + key.wire.code ≤ 0xFFFFFFFF) : Form key.encode key := by
  have hn : (UInt64.ofNat (8 * key.tag + key.wire.code)).toNat = 8 * key.tag + key.wire.code :=
    UInt64.toNat_ofNat_of_lt' (Nat.lt_of_le_of_lt fits (by decide))
  exact ⟨_, Varint.form_encode _, hn, by omega, positive⟩

theorem delimits_delimited {payload : Bytes} (short : payload.length < 0x8000000000000000) :
    Delimits (Kind.delimited payload) payload :=
  ⟨_, _, rfl, Varint.form_encode _,
    UInt64.toNat_ofNat_of_lt' (Nat.lt_trans short (by decide))⟩

namespace Kind

theorem int32OfVarint_varintOfInt32 (n : Int32) : int32OfVarint (varintOfInt32 n) = n := by
  apply Int32.toBitVec_inj.mp
  change (n.toBitVec.signExtend 64).setWidth 32 = n.toBitVec
  ext i hi
  rw [BitVec.getElem_setWidth, BitVec.getLsbD_signExtend]
  simp [hi, show i < 64 by omega]

theorem elementForm_encode (n : Int32) : ElementForm (Varint.encode (varintOfInt32 n)) n :=
  ⟨_, Varint.form_encode _, (int32OfVarint_varintOfInt32 n).symm⟩

theorem length_le_delimited (payload : Bytes) : payload.length ≤ (delimited payload).length := by
  simp [delimited]

theorem form_encodeValue (kind : Kind) (value : kind.Value)
    (short : (kind.encodeValue value).length < 0x8000000000000000) :
    kind.Form kind.wire (kind.encodeValue value) value := by
  cases kind with
  | uint32 => exact ⟨rfl, _, Varint.form_encode _, by simp⟩
  | uint64 => exact ⟨rfl, Varint.form_encode _⟩
  | int32 => exact ⟨rfl, elementForm_encode value⟩
  | bool => exact ⟨rfl, _, Varint.form_encode _, by cases value <;> rfl⟩
  | bytes =>
    have := length_le_delimited value
    exact ⟨rfl, delimits_delimited (Nat.lt_of_le_of_lt this short)⟩
  | int32s =>
    have := length_le_delimited (value.flatMap fun n => Varint.encode (varintOfInt32 n))
    refine .inl ⟨rfl, _, delimits_delimited (Nat.lt_of_le_of_lt this short), ?_⟩
    have hsequence : Sequence ElementForm
        (value.flatMap fun n => Varint.encode (varintOfInt32 n)) (value.flatMap fun n => [n]) :=
      .flatMap fun n _ => .single (elementForm_encode n)
    simpa using hsequence

end Kind

end ToxEvents.Wire
