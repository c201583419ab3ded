import ToxEvents.Proofs.Event.FlagLists
import ToxEvents.Proofs.Session.Operations
set_option autoImplicit false

namespace ToxEvents
open Wire

namespace CallFlags

variable {a : CallFlags} {code : Int32}

theorem inter_full_or_rest (a : CallFlags) : (a.inter full).mask ||| a.rest = a.mask := by
  change a.mask &&& full.mask ||| a.mask &&& ~~~full.mask = a.mask
  rw [← UInt32.toBitVec_inj]
  ext k hk
  simp [← Bool.and_or_distrib_left]

theorem rest_eq_zero_iff : a.rest = 0 ↔ ∀ k, 5 < k → a.bit k = false := by
  constructor
  · intro none k high
    have hmask := a.inter_full_or_rest
    rw [none, UInt32.or_zero] at hmask
    have hinter : a.inter full = a := congrArg CallFlags.mk hmask
    rw [← hinter, bit_inter, bit_full, decide_eq_false (by omega), Bool.and_false]
  · intro known
    exact inter_full known ▸ rest_inter_full a

theorem bit_ofMask (mask : UInt32) (k : Nat) :
    (ofMask mask).bit k = (decide (k < 6) && mask.toNat.testBit k) := by
  change (inter ⟨mask⟩ full).bit k = _
  rw [bit_inter, bit_full, Bool.and_comm]
  rfl

def Names (a : CallFlags) (code : Int32) : Prop := Known code ∧ a.bit code.toInt.toNat = true

instance (a : CallFlags) (code : Int32) : Decidable (a.Names code) :=
  inferInstanceAs (Decidable (_ ∧ _))

theorem names_iff :
    a.Names code ↔ code ∈ a.flags.map fun flag => Int32.ofNat flag.bit := by
  simp only [List.mem_map, mem_flags, ← Int32.toInt_inj, toInt_bit]
  constructor
  · rintro ⟨known, has⟩
    obtain ⟨flag, hcode⟩ := known_iff.mp known
    rw [hcode, Int.toNat_natCast] at has
    exact ⟨flag, has, hcode.symm⟩
  · rintro ⟨flag, has, hcode⟩
    refine ⟨known_iff.mpr ⟨flag, hcode.symm⟩, ?_⟩
    rwa [← hcode, Int.toNat_natCast]

theorem count_codes (a : CallFlags) (code : Int32) : a.codes.count code =
    (if a.Names code then 1 else 0) + if a.rest ≠ 0 ∧ code = 5 then 1 else 0 := by
  have distinct : (a.flags.map fun flag => Int32.ofNat flag.bit).Nodup :=
    a.flags_pairwise.imp fun before => Int32.ne_of_lt before
  rw [codes, List.count_append, distinct.count]
  simp only [← names_iff]
  by_cases none : a.rest = 0
  · simp [none]
  · by_cases hcode : code = 5
    · simp [none, hcode]
    · simp [none, hcode, Ne.symm hcode]

theorem mem_codes_iff : code ∈ a.codes ↔ a.Names code ∨ a.rest ≠ 0 ∧ code = 5 := by
  rw [← List.count_pos_iff, count_codes]
  split <;> split <;> simp [*]

-- Only `≤`: the five for other bits may stand behind the five of the last flag.
theorem codes_pairwise (a : CallFlags) : a.codes.Pairwise (· ≤ ·) := by
  have ascending := a.flags_pairwise.imp fun before => Int32.le_of_lt before
  unfold codes
  split
  · rwa [List.append_nil]
  · refine List.pairwise_append.mpr ⟨ascending, List.pairwise_singleton _ _, ?_⟩
    intro code member last hlast
    obtain rfl := List.mem_singleton.mp hlast
    exact Int32.le_iff_toInt_le.mpr (names_iff.mpr member).1.2

theorem codes_known (member : code ∈ a.codes) : Known code := by
  rcases mem_codes_iff.mp member with names | ⟨-, rfl⟩
  · exact names.1
  · decide

/-- What the list of a set is read as. -/
def listed (a : CallFlags) : CallFlags :=
  if a.rest = 0 then ofMask a.mask else (ofMask a.mask).union (ofFlag .acceptingVideo)

theorem bit_listed (k : Nat) : a.listed.bit k = true ↔
    k < 6 ∧ a.bit k = true ∨ a.rest ≠ 0 ∧ k = 5 := by
  have hmask : (ofMask a.mask).bit k = (decide (k < 6) && a.bit k) := bit_ofMask a.mask k
  unfold listed
  split
  case isTrue none => simp [hmask, none]
  case isFalse some =>
    rw [bit_union, bit_ofFlag, hmask]
    simp [CallFlag.bit, some, eq_comm (a := 5)]

theorem ofCodes_codes (a : CallFlags) : ofCodes a.codes = .ok a.listed := by
  obtain ⟨set, decoded⟩ := ofCodes_accepted_iff.mpr fun code (member : code ∈ a.codes) =>
    codes_known member
  rw [decoded]
  refine congrArg Except.ok (ext_bit fun k => ?_)
  rw [Bool.eq_iff_iff, bit_ofCodes decoded, bit_listed]
  constructor
  · rintro ⟨code, member, hcode⟩
    rcases mem_codes_iff.mp member with ⟨known, has⟩ | ⟨unknown, rfl⟩
    · rw [hcode, Int.toNat_natCast] at has
      have hlast := known.2
      exact .inl ⟨by omega, has⟩
    · exact .inr ⟨unknown, Int.ofNat_inj.mp hcode.symm⟩
  · rintro (⟨low, has⟩ | ⟨unknown, rfl⟩)
    · obtain ⟨flag, rfl⟩ := CallFlag.exists_bit low
      have names : a.Names (Int32.ofNat flag.bit) :=
        names_iff.mpr (List.mem_map_of_mem (mem_flags.mpr has))
      exact ⟨Int32.ofNat flag.bit, mem_codes_iff.mpr (.inl names), toInt_bit flag⟩
    · exact ⟨5, mem_codes_iff.mpr (.inr ⟨unknown, rfl⟩), rfl⟩

theorem listed_eq_ofMask_iff : a.listed = ofMask a.mask ↔ a.rest = 0 ∨ a.bit 5 = true := by
  have hfive : (ofMask a.mask).bit 5 = a.bit 5 := bit_ofMask a.mask 5
  constructor
  · intro same
    by_cases none : a.rest = 0
    · exact .inl none
    · have hlisted : a.listed.bit 5 = true := (bit_listed 5).mpr (.inr ⟨none, rfl⟩)
      exact .inr (hfive ▸ same ▸ hlisted)
  · rintro (none | has)
    · exact if_pos none
    · refine ext_bit fun k => ?_
      rw [Bool.eq_iff_iff, bit_listed, bit_ofMask, Bool.and_eq_true, decide_eq_true_iff]
      refine or_iff_left_of_imp ?_
      rintro ⟨-, rfl⟩
      exact ⟨by omega, has⟩

/-- What is to be said of the mask and of the list of a set. -/
structure Outgoing (a : CallFlags) : Prop where
  known : a.rest = 0 ↔ ∀ k, 5 < k → a.bit k = false
  ascending : a.codes.Pairwise (· ≤ ·)
  /-- Each flag of the set comes once. Other bits, however many, come once more, as a five. -/
  counts : ∀ code, a.codes.count code =
    (if a.Names code then 1 else 0) + if a.rest ≠ 0 ∧ code = 5 then 1 else 0
  read : ofCodes a.codes =
    .ok (if a.rest = 0 then ofMask a.mask else (ofMask a.mask).union (ofFlag .acceptingVideo))
  agree : ofCodes a.codes = .ok (ofMask a.mask) ↔ a.rest = 0 ∨ a.bit 5 = true
  truncated : ∀ k, (ofMask a.mask).bit k = (decide (k < 6) && a.bit k)

theorem outgoing (a : CallFlags) : a.Outgoing where
  known := rest_eq_zero_iff
  ascending := a.codes_pairwise
  counts := a.count_codes
  read := a.ofCodes_codes
  agree := by
    rw [a.ofCodes_codes, Except.ok.injEq]
    exact listed_eq_ofMask_iff
  truncated := bit_ofMask a.mask

end CallFlags

namespace Hub

variable {β : Type} [Source β] {hub : Hub β} {i : Nat} {av : AvSession β}

/-- The source of an open session is handed the mask of a set as it stands, so with all bits that
are no flags, and the list of the set differs from its flags exactly when there are such bits. -/
theorem changeCall_unmasked (opened : hub.AvOpen i av) (friend : FriendNumber) (a : CallFlags) :
    a.Outgoing ∧ (hub.changeCall i friend a).1 = .ok () ∧
      (hub.changeCall i friend a).2.happenings =
        hub.happenings.push (.callChanged av.backend.id av.backend.label friend a.mask) ∧
      (hub.changeCall i friend a).2.avs[i]? = some { av with backend := { av.backend with
        source := (Source.changeCall friend a.mask av.backend.source).2 } } := by
  have hlt := (List.getElem?_eq_some_iff.mp opened.1).1
  rw [changeCall_of_open opened]
  refine ⟨a.outgoing, rfl, rfl, ?_⟩
  exact List.getElem?_set_self hlt

def calling : Hub Script := (((({} : Hub Script).openCore "core" {}).openAv "av" 0 {}).2)

theorem changeCall_unmasked_calling :
    calling.AvOpen 0 ⟨⟨1, "av", {}⟩, false, false, 0, some 0⟩ ∧
      (calling.changeCall 0 ⟨7⟩ ⟨0x8000_0061⟩).2.happenings =
        #[.callChanged 1 "av" ⟨7⟩ 0x8000_0061] := by
  have opened : calling.AvOpen 0 ⟨⟨1, "av", {}⟩, false, false, 0, some 0⟩ := ⟨rfl, rfl⟩
  exact ⟨opened, (changeCall_unmasked opened ⟨7⟩ ⟨0x8000_0061⟩).2.2.1⟩

/-- One flag and bit 6: the mask goes out with both, the list with the flag and one that is not
there, so the two do not agree. -/
theorem changeCall_unknown_bit :
    let a : CallFlags := ⟨0x41⟩
    a.flags = [.error] ∧ a.bit 6 = true ∧ a.codes = [0, 5] ∧
      CallFlags.ofCodes a.codes = .ok ⟨0x21⟩ ∧ CallFlags.ofMask a.mask = ⟨0x01⟩ ∧
      (calling.changeCall 0 ⟨7⟩ a).2.happenings = #[.callChanged 1 "av" ⟨7⟩ 0x41] := by
  decide +kernel

end Hub

end ToxEvents
