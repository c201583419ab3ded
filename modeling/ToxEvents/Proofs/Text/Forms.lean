import ToxEvents.Text.Utf8
import ToxEvents.Wire.Input
set_option autoImplicit false

namespace ToxEvents.Utf8
open Wire

section
variable {n : Nat} {test : Prop} [Decidable test] {x y b : UInt8}

theorem toNat_toUInt8 (small : n < 256) : n.toUInt8.toNat = n := by
  change n % 256 = n
  omega

theorem toUInt8_eq (same : n = b.toNat) : n.toUInt8 = b := by
  subst same
  exact UInt8.ofNat_toNat

theorem scalar (c : Char) : c.toNat < 0xD800 ∨ 0xDFFF < c.toNat ∧ c.toNat < 0x110000 := c.valid

theorem toNat_ofNat (valid : n < 0xD800 ∨ 0xDFFF < n ∧ n < 0x110000) :
    (Char.ofNat n).toNat = n := by
  rw [Char.ofNat, dif_pos valid]
  rfl

theorem ite_le_iff (wider : y ≤ x) : (if test then x else y) ≤ b ↔ y ≤ b ∧ (test → x ≤ b) := by
  split
  case isTrue h => exact ⟨fun hx => ⟨UInt8.le_trans wider hx, fun _ => hx⟩, fun hb => hb.2 h⟩
  case isFalse h => exact ⟨fun hy => ⟨hy, fun ht => absurd ht h⟩, fun hb => hb.1⟩

theorem le_ite_iff (narrower : x ≤ y) : b ≤ (if test then x else y) ↔ b ≤ y ∧ (test → b ≤ x) := by
  split
  case isTrue h => exact ⟨fun hx => ⟨UInt8.le_trans hx narrower, fun _ => hx⟩, fun hb => hb.2 h⟩
  case isFalse h => exact ⟨fun hy => ⟨hy, fun ht => absurd ht h⟩, fun hb => hb.1⟩

/-- A range whose ends do not move together is not empty. -/
theorem ite_le_ite {other : Prop} [Decidable other] {x' y' : UInt8} (apart : test → ¬other)
    (low : x.toNat ≤ x'.toNat) (high : y.toNat ≤ y'.toNat) (wide : y.toNat ≤ x'.toNat) :
    (if test then x else y).toNat ≤ (if other then y' else x').toNat := by
  split
  case isTrue h =>
    rw [if_neg (apart h)]
    exact low
  case isFalse =>
    split
    · exact high
    · exact wide

end

/-- The forms of characters are those of the standard library. -/
theorem encodeChar_eq (c : Char) : encodeChar c = String.utf8EncodeChar c := by
  have hscalar := scalar c
  unfold encodeChar String.utf8EncodeChar
  change _ = if c.toNat ≤ 127 then [c.toNat.toUInt8] else
    if c.toNat ≤ 2047 then [(c.toNat / 64 % 32 + 192).toUInt8, (c.toNat % 64 + 128).toUInt8] else
    if c.toNat ≤ 65535 then
      [(c.toNat / 4096 % 16 + 224).toUInt8, (c.toNat / 64 % 64 + 128).toUInt8,
        (c.toNat % 64 + 128).toUInt8] else
    [(c.toNat / 262144 % 8 + 240).toUInt8, (c.toNat / 4096 % 64 + 128).toUInt8,
      (c.toNat / 64 % 64 + 128).toUInt8, (c.toNat % 64 + 128).toUInt8]
  generalize c.toNat = n at hscalar
  have hone : n ≤ 127 ↔ n < 0x80 := by omega
  have htwo : n ≤ 2047 ↔ n < 0x800 := by omega
  have hthree : n ≤ 65535 ↔ n < 0x10000 := by omega
  have htail (m : Nat) : m % 64 + 128 = 0x80 + m % 64 := Nat.add_comm _ _
  simp only [hone, htwo, hthree, htail]
  split
  · rfl
  split
  · have hfirst : n / 64 % 32 + 192 = 0xC0 + n / 64 := by omega
    rw [hfirst]
  split
  · have hfirst : n / 4096 % 16 + 224 = 0xE0 + n / 4096 := by omega
    rw [hfirst]
  · have hfirst : n / 262144 % 8 + 240 = 0xF0 + n / 262144 := by omega
    rw [hfirst]

theorem lead_eq (b : UInt8) : lead b =
    if b.toNat < 0x80 then .whole (Char.ofNat b.toNat)
    else if b.toNat < 0xC2 then .stray
    else if b.toNat < 0xE0 then .opens ⟨0, 0x80, 0xBF, b.toNat - 0xC0⟩
    else if b.toNat < 0xF0 then
      .opens ⟨1, if b.toNat = 0xE0 then 0xA0 else 0x80, if b.toNat = 0xED then 0x9F else 0xBF,
        b.toNat - 0xE0⟩
    else if b.toNat < 0xF5 then
      .opens ⟨2, if b.toNat = 0xF0 then 0x90 else 0x80, if b.toNat = 0xF4 then 0x8F else 0xBF,
        b.toNat - 0xF0⟩
    else .stray := by
  simp only [lead, UInt8.lt_iff_toNat_lt, ← UInt8.toNat_inj]
  rfl

theorem lead_whole {b : UInt8} {c : Char} (led : lead b = .whole c) :
    b.toNat < 0x80 ∧ c = Char.ofNat b.toNat := by
  rw [lead_eq] at led
  split at led
  case isTrue ascii => exact ⟨ascii, (Lead.whole.inj led).symm⟩
  all_goals (repeat' split at led) <;> cases led

theorem lead_opens {b : UInt8} {p : Pending} (led : lead b = .opens p) :
    (0xC2 ≤ b.toNat ∧ b.toNat < 0xE0) ∧ p = ⟨0, 0x80, 0xBF, b.toNat - 0xC0⟩ ∨
    (0xE0 ≤ b.toNat ∧ b.toNat < 0xF0) ∧ p = ⟨1, if b.toNat = 0xE0 then 0xA0 else 0x80,
      if b.toNat = 0xED then 0x9F else 0xBF, b.toNat - 0xE0⟩ ∨
    (0xF0 ≤ b.toNat ∧ b.toNat < 0xF5) ∧ p = ⟨2, if b.toNat = 0xF0 then 0x90 else 0x80,
      if b.toNat = 0xF4 then 0x8F else 0xBF, b.toNat - 0xF0⟩ := by
  rw [lead_eq] at led
  split at led
  · cases led
  split at led
  · cases led
  split at led
  case isTrue hfrom hto => exact .inl ⟨⟨Nat.le_of_not_lt hfrom, hto⟩, (Lead.opens.inj led).symm⟩
  split at led
  case isTrue hfrom hto =>
    exact .inr (.inl ⟨⟨Nat.le_of_not_lt hfrom, hto⟩, (Lead.opens.inj led).symm⟩)
  split at led
  case isTrue hfrom hto =>
    exact .inr (.inr ⟨⟨Nat.le_of_not_lt hfrom, hto⟩, (Lead.opens.inj led).symm⟩)
  · cases led

/-- The bytes that complete a character that has begun. -/
inductive Pending.Ends : Pending → Bytes → Char → Prop
  | last {low high b : UInt8} {bits : Nat} {c : Char} (inside : low ≤ b ∧ b ≤ high)
      (made : c = Char.ofNat (bits * 64 + (b.toNat - 0x80))) : Ends ⟨0, low, high, bits⟩ [b] c
  | next {owed bits : Nat} {low high b : UInt8} {bytes : Bytes} {c : Char}
      (inside : low ≤ b ∧ b ≤ high)
      (later : Ends ⟨owed, 0x80, 0xBF, bits * 64 + (b.toNat - 0x80)⟩ bytes c) :
      Ends ⟨owed + 1, low, high, bits⟩ (b :: bytes) c

inductive Spells : Bytes → Char → Prop
  | whole {b : UInt8} {c : Char} (led : lead b = .whole c) : Spells [b] c
  | long {b : UInt8} {p : Pending} {bytes : Bytes} {c : Char} (led : lead b = .opens p)
      (ends : p.Ends bytes c) : Spells (b :: bytes) c

variable {n : Nat}

theorem toNat_tail (n : Nat) : (0x80 + n % 64).toUInt8.toNat = 0x80 + n % 64 :=
  toNat_toUInt8 (by omega)

theorem tail_inside (n : Nat) :
    0x80 ≤ (0x80 + n % 64).toUInt8 ∧ (0x80 + n % 64).toUInt8 ≤ 0xBF := by
  rw [UInt8.le_iff_toNat_le, UInt8.le_iff_toNat_le, toNat_tail]
  change 0x80 ≤ 0x80 + n % 64 ∧ 0x80 + n % 64 ≤ 0xBF
  omega

theorem spells_two (hfrom : 0x80 ≤ n) (hto : n < 0x800) :
    Spells [(0xC0 + n / 64).toUInt8, (0x80 + n % 64).toUInt8] (Char.ofNat n) := by
  have hb : (0xC0 + n / 64).toUInt8.toNat = 0xC0 + n / 64 := toNat_toUInt8 (by omega)
  have hlead := lead_eq (0xC0 + n / 64).toUInt8
  rw [hb, if_neg (by omega), if_neg (by omega), if_pos (by omega)] at hlead
  refine .long hlead (.last (tail_inside n) ?_)
  rw [toNat_tail]
  exact congrArg Char.ofNat (by omega)

theorem spells_three (hfrom : 0x800 ≤ n) (hto : n < 0x10000) (valid : n < 0xD800 ∨ 0xDFFF < n) :
    Spells [(0xE0 + n / 4096).toUInt8, (0x80 + n / 64 % 64).toUInt8, (0x80 + n % 64).toUInt8]
      (Char.ofNat n) := by
  have hb : (0xE0 + n / 4096).toUInt8.toNat = 0xE0 + n / 4096 := toNat_toUInt8 (by omega)
  have hlead := lead_eq (0xE0 + n / 4096).toUInt8
  rw [hb, if_neg (by omega), if_neg (by omega), if_neg (by omega), if_pos (by omega)] at hlead
  obtain ⟨hlow, hhigh⟩ := tail_inside (n / 64)
  refine .long hlead (.next ⟨(ite_le_iff (by decide)).mpr ⟨hlow, fun first => ?_⟩,
    (le_ite_iff (by decide)).mpr ⟨hhigh, fun last => ?_⟩⟩ (.last (tail_inside n) ?_))
  -- Otherwise the form would be overlong.
  · rw [UInt8.le_iff_toNat_le, toNat_tail]
    change 0xA0 ≤ _
    omega
  -- Otherwise it would be that of a surrogate.
  · rw [UInt8.le_iff_toNat_le, toNat_tail]
    change _ ≤ 0x9F
    omega
  · rw [toNat_tail, toNat_tail]
    exact congrArg Char.ofNat (by omega)

theorem spells_four (hfrom : 0x10000 ≤ n) (hto : n < 0x110000) :
    Spells [(0xF0 + n / 262144).toUInt8, (0x80 + n / 4096 % 64).toUInt8,
      (0x80 + n / 64 % 64).toUInt8, (0x80 + n % 64).toUInt8] (Char.ofNat n) := by
  have hb : (0xF0 + n / 262144).toUInt8.toNat = 0xF0 + n / 262144 := toNat_toUInt8 (by omega)
  have hlead := lead_eq (0xF0 + n / 262144).toUInt8
  rw [hb, if_neg (by omega), if_neg (by omega), if_neg (by omega), if_neg (by omega),
    if_pos (by omega)] at hlead
  obtain ⟨hlow, hhigh⟩ := tail_inside (n / 4096)
  refine .long hlead (.next ⟨(ite_le_iff (by decide)).mpr ⟨hlow, fun first => ?_⟩,
    (le_ite_iff (by decide)).mpr ⟨hhigh, fun last => ?_⟩⟩
    (.next (tail_inside (n / 64)) (.last (tail_inside n) ?_)))
  · rw [UInt8.le_iff_toNat_le, toNat_tail]
    change 0x90 ≤ _
    omega
  -- Otherwise it would be beyond U+10FFFF.
  · rw [UInt8.le_iff_toNat_le, toNat_tail]
    change _ ≤ 0x8F
    omega
  · rw [toNat_tail, toNat_tail, toNat_tail]
    exact congrArg Char.ofNat (by omega)

theorem spells_encodeChar (c : Char) : Spells (encodeChar c) c := by
  have hscalar := scalar c
  have hc : c = Char.ofNat c.toNat := (Char.ofNat_toNat c).symm
  unfold encodeChar
  generalize c.toNat = n at hscalar hc
  subst hc
  dsimp only
  split
  case isTrue hone =>
    have hb : n.toUInt8.toNat = n := toNat_toUInt8 (by omega)
    exact .whole (by rw [lead_eq, hb, if_pos hone])
  split
  · exact spells_two (by omega) (by omega)
  split
  · exact spells_three (by omega) (by omega) (by omega)
  · exact spells_four (by omega) (by omega)

section
variable {b b₁ b₂ b₃ : UInt8} (tail₁ : 0x80 ≤ b₁.toNat ∧ b₁.toNat ≤ 0xBF)
  (tail₂ : 0x80 ≤ b₂.toNat ∧ b₂.toNat ≤ 0xBF) (tail₃ : 0x80 ≤ b₃.toNat ∧ b₃.toNat ≤ 0xBF)
include tail₁

theorem encodeChar_two (first : 0xC2 ≤ b.toNat ∧ b.toNat < 0xE0) :
    encodeChar (Char.ofNat ((b.toNat - 0xC0) * 64 + (b₁.toNat - 0x80))) = [b, b₁] := by
  rw [encodeChar, toNat_ofNat (by omega), if_neg (by omega), if_pos (by omega),
    toUInt8_eq (b := b) (by omega), toUInt8_eq (b := b₁) (by omega)]

include tail₂

theorem encodeChar_three (first : 0xE0 ≤ b.toNat ∧ b.toNat < 0xF0)
    (long : b.toNat = 0xE0 → 0xA0 ≤ b₁.toNat) (scalar : b.toNat = 0xED → b₁.toNat ≤ 0x9F) :
    encodeChar (Char.ofNat (((b.toNat - 0xE0) * 64 + (b₁.toNat - 0x80)) * 64
      + (b₂.toNat - 0x80))) = [b, b₁, b₂] := by
  rw [encodeChar, toNat_ofNat (by omega), if_neg (by omega), if_neg (by omega), if_pos (by omega),
    toUInt8_eq (b := b) (by omega), toUInt8_eq (b := b₁) (by omega),
    toUInt8_eq (b := b₂) (by omega)]

include tail₃

theorem encodeChar_four (first : 0xF0 ≤ b.toNat ∧ b.toNat < 0xF5)
    (long : b.toNat = 0xF0 → 0x90 ≤ b₁.toNat) (scalar : b.toNat = 0xF4 → b₁.toNat ≤ 0x8F) :
    encodeChar (Char.ofNat ((((b.toNat - 0xF0) * 64 + (b₁.toNat - 0x80)) * 64
      + (b₂.toNat - 0x80)) * 64 + (b₃.toNat - 0x80))) = [b, b₁, b₂, b₃] := by
  rw [encodeChar, toNat_ofNat (by omega), if_neg (by omega), if_neg (by omega), if_neg (by omega),
    toUInt8_eq (b := b) (by omega), toUInt8_eq (b := b₁) (by omega),
    toUInt8_eq (b := b₂) (by omega), toUInt8_eq (b := b₃) (by omega)]

end

theorem encodeChar_of_spells {bytes : Bytes} {c : Char} (spells : Spells bytes c) :
    encodeChar c = bytes := by
  cases spells with
  | @whole b c led =>
    obtain ⟨ascii, rfl⟩ := lead_whole led
    rw [encodeChar, toNat_ofNat (by omega), if_pos ascii, toUInt8_eq rfl]
  | @long b p bytes c led ends =>
    obtain ⟨first, rfl⟩ | ⟨first, rfl⟩ | ⟨first, rfl⟩ := lead_opens led
    · cases ends with | last inside made =>
      exact made ▸ encodeChar_two inside first
    · cases ends with | next inside later =>
      cases later with | last inside' made =>
      have hlow := (ite_le_iff (by decide)).mp inside.1
      have hhigh := (le_ite_iff (by decide)).mp inside.2
      exact made ▸ encodeChar_three ⟨hlow.1, hhigh.1⟩ inside' first hlow.2 hhigh.2
    · cases ends with | next inside later =>
      cases later with | next inside' later =>
      cases later with | last inside'' made =>
      have hlow := (ite_le_iff (by decide)).mp inside.1
      have hhigh := (le_ite_iff (by decide)).mp inside.2
      exact made ▸ encodeChar_four ⟨hlow.1, hhigh.1⟩ inside' inside'' first hlow.2 hhigh.2

theorem spells_iff_form {bytes : Bytes} {c : Char} :
    Spells bytes c ↔ String.utf8EncodeChar c = bytes := by
  rw [← encodeChar_eq]
  exact ⟨encodeChar_of_spells, fun form => form ▸ spells_encodeChar c⟩

/-- Continuation bytes are never first in a form, and all the others in it are. -/
theorem form_shape (c : Char) : ∃ b tail, String.utf8EncodeChar c = b :: tail ∧
    ¬(0x80 ≤ b.toNat ∧ b.toNat < 0xC0) ∧ ∀ t ∈ tail, 0x80 ≤ t.toNat ∧ t.toNat < 0xC0 := by
  rw [← encodeChar_eq]
  have hscalar := scalar c
  have htail (n : Nat) : 0x80 ≤ (0x80 + n % 64).toUInt8.toNat ∧
      (0x80 + n % 64).toUInt8.toNat < 0xC0 := by
    rw [toNat_tail]
    omega
  have hnone (t : UInt8) (none : t ∈ []) : 0x80 ≤ t.toNat ∧ t.toNat < 0xC0 :=
    absurd none List.not_mem_nil
  have hfirst {n : Nat} (h : n < 0x80 ∨ 0xC0 ≤ n) (hn : n < 256) :
      ¬(0x80 ≤ n.toUInt8.toNat ∧ n.toUInt8.toNat < 0xC0) := by
    rw [toNat_toUInt8 hn]
    omega
  unfold encodeChar
  generalize c.toNat = n at hscalar
  dsimp only
  split
  · exact ⟨_, _, rfl, hfirst (by omega) (by omega), hnone⟩
  split
  · exact ⟨_, _, rfl, hfirst (by omega) (by omega), List.forall_mem_cons.mpr ⟨htail _, hnone⟩⟩
  split
  · exact ⟨_, _, rfl, hfirst (by omega) (by omega),
      List.forall_mem_cons.mpr ⟨htail _, List.forall_mem_cons.mpr ⟨htail _, hnone⟩⟩⟩
  · exact ⟨_, _, rfl, hfirst (by omega) (by omega), List.forall_mem_cons.mpr ⟨htail _,
      List.forall_mem_cons.mpr ⟨htail _, List.forall_mem_cons.mpr ⟨htail _, hnone⟩⟩⟩⟩

end ToxEvents.Utf8
