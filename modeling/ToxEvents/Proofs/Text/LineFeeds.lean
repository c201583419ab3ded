import ToxEvents.Event.Scalar
import ToxEvents.Proofs.Text.Lines
set_option autoImplicit false

namespace ToxEvents

namespace Utf8

variable {b : UInt8} {p : Pending}

/-- The next byte is no ASCII, and the character will be none either. -/
def Pending.Begun (p : Pending) : Prop :=
  0x80 ≤ p.low.toNat ∧ (0 < p.bits ∨ 0 < p.owed ∧ 0x80 < p.low.toNat)

theorem lead_ascii (ascii : b < 0x80) : lead b = .whole (Char.ofNat b.toNat) := if_pos ascii

theorem lead_high (high : ¬b < 0x80) :
    lead b = .stray ∨ ∃ p, lead b = .opens p ∧ p.Begun := by
  unfold lead
  rw [if_neg high]
  split
  · exact .inl rfl
  split
  case isTrue hlow htwo =>
    have hb : ¬b.toNat < 0xC2 := hlow
    have hbits : 0 < b.toNat - 0xC0 := by omega
    exact .inr ⟨_, rfl, Nat.le_refl _, .inl hbits⟩
  split
  case isTrue htwo hthree =>
    refine .inr ⟨_, rfl, ?_⟩
    by_cases hfirst : b = 0xE0
    · simp [Pending.Begun, hfirst]
    · have hb : ¬b.toNat < 0xE0 := htwo
      have hne : b.toNat ≠ 0xE0 := fun same => hfirst (UInt8.toNat_inj.mp same)
      have hbits : 0 < b.toNat - 0xE0 := by omega
      simp [Pending.Begun, hfirst, hbits]
  split
  case isTrue hthree hfour =>
    refine .inr ⟨_, rfl, ?_⟩
    by_cases hfirst : b = 0xF0
    · simp [Pending.Begun, hfirst]
    · have hb : ¬b.toNat < 0xF0 := hthree
      have hne : b.toNat ≠ 0xF0 := fun same => hfirst (UInt8.toNat_inj.mp same)
      have hbits : 0 < b.toNat - 0xF0 := by omega
      simp [Pending.Begun, hfirst, hbits]
  case isFalse => exact .inl rfl

theorem ofNat_eq_newline_iff {n : Nat} : Char.ofNat n = '\n' ↔ n = 10 := by
  refine ⟨fun same => ?_, fun same => same ▸ rfl⟩
  by_cases valid : n.isValidChar
  · rw [Char.ofNat, dif_pos valid] at same
    exact congrArg Char.toNat same
  · rw [Char.ofNat, dif_neg valid] at same
    exact absurd (congrArg Char.toNat same) (by decide)

theorem Pending.Begun.ne_feed (begun : p.Begun) (inside : p.low ≤ b) : b ≠ 10 := by
  rintro rfl
  have hlow : p.low.toNat ≤ 10 := inside
  have hbegun := begun.1
  omega

theorem Pending.Begun.ends {low high : UInt8} {bits : Nat}
    (begun : Pending.Begun ⟨0, low, high, bits⟩) (b : UInt8) :
    Char.ofNat (bits * 64 + (b.toNat - 0x80)) ≠ '\n' := by
  intro same
  have hten := ofNat_eq_newline_iff.mp same
  have hbits : 0 < bits := begun.2.resolve_right fun owing => Nat.lt_irrefl 0 owing.1
  omega

theorem Pending.Begun.goesOn {owed : Nat} {low high : UInt8} {bits : Nat}
    (begun : Pending.Begun ⟨owed + 1, low, high, bits⟩) (inside : low ≤ b) :
    Pending.Begun ⟨owed, 0x80, 0xBF, bits * 64 + (b.toNat - 0x80)⟩ := by
  refine ⟨Nat.le_refl _, .inl ?_⟩
  change 0 < bits * 64 + (b.toNat - 0x80)
  rcases begun.2 with hbits | ⟨-, hsecond⟩
  · have hpositive : 0 < bits := hbits
    omega
  · have hbyte : 0x80 < b.toNat := Nat.lt_of_lt_of_le hsecond inside
    omega

theorem scanFrom_refused (outside : ¬(p.low ≤ b ∧ b ≤ p.high)) (bytes : List UInt8) :
    scanFrom (some p) (b :: bytes) = none :: scanFrom none (b :: bytes) := by
  unfold scanFrom
  rw [if_neg outside]
  cases lead b <;> rfl

-- A byte that does not go on is looked at again, now as a first byte, with the same bytes to come.
theorem count_scanFrom_none {bytes : List UInt8}
    (later : ∀ {state : Option Pending}, (∀ p ∈ state, p.Begun) →
      (scanFrom state bytes).count (some '\n') = bytes.count 10) (b : UInt8) :
    (scanFrom none (b :: bytes)).count (some '\n') = (b :: bytes).count 10 := by
  by_cases ascii : b < 0x80
  · have hb : Char.ofNat b.toNat = '\n' ↔ b = 10 :=
      ofNat_eq_newline_iff.trans (UInt8.toNat_inj (b := 10))
    simp [scanFrom, lead_ascii ascii, List.count_cons, later, hb]
  · have hb : b ≠ 10 := by
      rintro rfl
      exact ascii (by decide)
    rcases lead_high ascii with hlead | ⟨p, hlead, begun⟩
    · simp [scanFrom, hlead, later, hb]
    · have hp : (scanFrom (some p) bytes).count (some '\n') = bytes.count 10 :=
        later fun q hq => Option.some.inj hq ▸ begun
      simp [scanFrom, hlead, hp, hb]

theorem count_scanFrom {state : Option Pending} (begun : ∀ p ∈ state, p.Begun)
    (bytes : List UInt8) : (scanFrom state bytes).count (some '\n') = bytes.count 10 := by
  induction bytes generalizing state with
  | nil => cases state <;> rfl
  | cons b bytes ih =>
    cases state with
    | none => exact count_scanFrom_none ih b
    | some p =>
      have hp := begun p rfl
      by_cases inside : p.low ≤ b ∧ b ≤ p.high
      · rw [scanFrom, if_pos inside, List.count_cons_of_ne (hp.ne_feed inside.1)]
        rcases p with ⟨owed, low, high, bits⟩
        cases owed with
        | zero => simp [hp.ends b, ih]
        | succ owed => exact ih fun q hq => Option.some.inj hq ▸ hp.goesOn inside.1
      · rw [scanFrom_refused inside, List.count_cons_of_ne (by simp)]
        exact count_scanFrom_none ih b

theorem count_decodeLossy (bytes : List UInt8) :
    (decodeLossy bytes).count '\n' = bytes.count 10 := by
  have hscan : (scanFrom none bytes).count (some '\n') = bytes.count 10 :=
    count_scanFrom (by simp) bytes
  rw [← hscan, decodeLossy, scan, List.count, List.count, List.countP_map]
  refine List.countP_congr fun c _ => ?_
  cases c <;> simp [replacement]

end Utf8

@[simp]
theorem Payload.feeds_text {kind : PayloadKind} (p : Payload kind) :
    Text.feeds p.text = p.bytes.count 10 := by
  unfold Text.feeds text
  rw [String.toList_ofList]
  exact Utf8.count_decodeLossy p.bytes

end ToxEvents
