import Mathlib.Data.Nat.Bitwise
import ToxEvents.Proofs.Delivery.Flaws
import ToxEvents.Proofs.Delivery.Refusals
set_option autoImplicit false

namespace ToxEvents
open Wire

theorem Enumeration.ofCode_eq_ok_iff {ε : Type} [Enumeration ε] {code : Int32} {e : ε} :
    (ofCode code : Except Rejection ε) = .ok e ↔ ofCode? code = some e := by
  unfold ofCode
  cases (ofCode? code : Option ε) <;> simp

namespace CallFlag

theorem bit_lt (flag : CallFlag) : flag.bit < 6 := by cases flag <;> decide

theorem getElem?_all_iff {n : Nat} {flag : CallFlag} : all[n]? = some flag ↔ n = flag.bit := by
  have hown : all[flag.bit]? = some flag := by cases flag <;> rfl
  constructor
  · intro found
    obtain ⟨hn, -⟩ := List.getElem?_eq_some_iff.mp found
    exact (List.getElem?_inj hn (by decide)).mp (found.trans hown.symm)
  · rintro rfl
    exact hown

theorem exists_bit {n : Nat} (low : n < 6) : ∃ flag : CallFlag, n = flag.bit := by
  have hlt : n < all.length := low
  exact ⟨all[n], getElem?_all_iff.mp (List.getElem?_eq_getElem hlt)⟩

theorem bit_pairwise : all.Pairwise fun flag later => flag.bit < later.bit := by decide

theorem ofCode?_eq_some_iff {code : Int32} {flag : CallFlag} :
    Enumeration.ofCode? code = some flag ↔ code.toInt = flag.bit := by
  have hneg : code < 0 ↔ code.toInt < 0 := Int32.lt_iff_toInt_lt
  unfold Enumeration.ofCode?
  by_cases hcode : code < 0
  · have hsign : code.toInt < 0 := hneg.mp hcode
    rw [if_pos hcode]
    exact iff_of_false nofun (by omega)
  · have hsign : ¬ code.toInt < 0 := mt hneg.mpr hcode
    rw [if_neg hcode]
    change all[code.toInt.toNat]? = some flag ↔ _
    rw [getElem?_all_iff]
    omega

end CallFlag

namespace CallFlags

def bit (a : CallFlags) (k : Nat) : Bool := a.mask.toNat.testBit k

variable {a b set last : CallFlags} {code : Int32} {codes : List Int32} {flag : CallFlag}

theorem ext_bit (same : ∀ k, a.bit k = b.bit k) : a = b := by
  have hmask : a.mask = b.mask := UInt32.toNat.inj (Nat.eq_of_testBit_eq same)
  cases a
  cases b
  exact congrArg CallFlags.mk hmask

theorem bit_empty (k : Nat) : empty.bit k = false := Nat.zero_testBit k

theorem bit_union (a b : CallFlags) (k : Nat) : (a.union b).bit k = (a.bit k || b.bit k) := by
  simp only [bit, union, UInt32.toNat_or, Nat.testBit_or]

theorem bit_inter (a b : CallFlags) (k : Nat) : (a.inter b).bit k = (a.bit k && b.bit k) := by
  simp only [bit, inter, UInt32.toNat_and, Nat.testBit_and]

theorem bit_ofFlag (flag : CallFlag) (k : Nat) : (ofFlag flag).bit k = decide (flag.bit = k) := by
  have hmask : (ofFlag flag).mask.toNat = 2 ^ flag.bit := by cases flag <;> rfl
  rw [bit, hmask, Nat.testBit_two_pow]

theorem bit_full (k : Nat) : full.bit k = decide (k < 6) := by
  have hmask : full.mask.toNat = 2 ^ 6 - 1 := rfl
  rw [bit, hmask, Nat.testBit_two_pow_sub_one]

theorem union_assoc (a b c : CallFlags) : (a.union b).union c = a.union (b.union c) :=
  ext_bit fun k => by simp only [bit_union, Bool.or_assoc]

theorem union_empty (a : CallFlags) : a.union empty = a :=
  ext_bit fun k => by rw [bit_union, bit_empty, Bool.or_false]

theorem contains_ofFlag (a : CallFlags) (flag : CallFlag) :
    a.contains (ofFlag flag) = a.bit flag.bit := by
  have hinter : a.contains (ofFlag flag) = true ↔ a.inter (ofFlag flag) = ofFlag flag := by
    simp [contains, inter, ofFlag]
  rw [Bool.eq_iff_iff, hinter]
  constructor
  · intro same
    have hbit := congrArg (fun set => set.bit flag.bit) same
    simpa [bit_inter, bit_ofFlag] using hbit
  · intro has
    refine ext_bit fun k => ?_
    rw [bit_inter, bit_ofFlag]
    by_cases hk : flag.bit = k
    · rw [← hk, has, Bool.true_and]
    · rw [decide_eq_false hk, Bool.and_false]

theorem mem_flags : flag ∈ a.flags ↔ a.bit flag.bit = true := by
  have hall : flag ∈ CallFlag.all := List.mem_of_getElem? (CallFlag.getElem?_all_iff.mpr rfl)
  rw [flags, List.mem_filter, contains_ofFlag, and_iff_right hall]

theorem rest_inter_full (a : CallFlags) : (a.inter full).rest = 0 := by
  change a.mask &&& full.mask &&& ~~~full.mask = 0
  rw [UInt32.and_assoc, UInt32.and_not_self, UInt32.and_zero]

theorem inter_full (known : ∀ k, 5 < k → a.bit k = false) : a.inter full = a := by
  refine ext_bit fun k => ?_
  rw [bit_inter, bit_full]
  by_cases hk : k < 6
  · rw [decide_eq_true hk, Bool.and_true]
  · rw [known k (by omega), Bool.false_and]

/-- The numbers of the known flags, each once and in ascending order. -/
theorem codes_eq (known : ∀ k, 5 < k → a.bit k = false) :
    a.codes = a.flags.map fun flag => Int32.ofNat flag.bit := by
  have hrest : a.rest = 0 := inter_full known ▸ rest_inter_full a
  rw [CallFlags.codes, if_pos hrest, List.append_nil]

theorem toInt_bit (flag : CallFlag) : (Int32.ofNat flag.bit).toInt = flag.bit :=
  Int32.toInt_ofNat_of_lt (Nat.lt_trans flag.bit_lt (by decide))

theorem flags_pairwise (a : CallFlags) :
    (a.flags.map fun flag => Int32.ofNat flag.bit).Pairwise (· < ·) := by
  rw [List.pairwise_map]
  refine (CallFlag.bit_pairwise.filter _).imp fun before => ?_
  rw [Int32.lt_iff_toInt_lt, toInt_bit, toInt_bit]
  exact Int.ofNat_lt.mpr before

def Known (code : Int32) : Prop := 0 ≤ code.toInt ∧ code.toInt ≤ 5

instance (code : Int32) : Decidable (Known code) := inferInstanceAs (Decidable (_ ∧ _))

theorem known_iff : Known code ↔ ∃ flag : CallFlag, code.toInt = flag.bit := by
  constructor
  · rintro ⟨hlow, hhigh⟩
    obtain ⟨flag, hbit⟩ := CallFlag.exists_bit (n := code.toInt.toNat) (by omega)
    refine ⟨flag, ?_⟩
    omega
  · rintro ⟨flag, hcode⟩
    have hlt := flag.bit_lt
    unfold Known
    omega

theorem outOfRange?_eq (title : String) (code : Int32) :
    outOfRange? title 6 code =
      if Known code then none else some (.unknownEnumerator title code) := by
  have hrange : 0 ≤ code.toInt ∧ code.toInt < (6 : Nat) ↔ Known code := by
    unfold Known
    omega
  exact if_congr hrange rfl rfl

theorem outOfRange?_eq_none_iff {title : String} :
    outOfRange? title 6 code = none ↔ Known code := by
  rw [outOfRange?_eq]
  split <;> simp [*]

theorem outOfRange?_eq_some_iff {title : String} {rejection : Rejection} :
    outOfRange? title 6 code = some rejection ↔
      ¬ Known code ∧ rejection = .unknownEnumerator title code := by
  rw [outOfRange?_eq]
  split <;> simp [*, eq_comm]

def add (set : CallFlags) (code : Int32) : Except Rejection CallFlags := do
  let flag : CallFlag ← Enumeration.ofCode code
  return set.union (ofFlag flag)

theorem add_eq_ok_iff :
    set.add code = .ok last ↔
      ∃ flag : CallFlag, code.toInt = flag.bit ∧ last = set.union (ofFlag flag) := by
  simp only [add, return_eq_ok_iff, Enumeration.ofCode_eq_ok_iff, CallFlag.ofCode?_eq_some_iff]

theorem add_union (a b : CallFlags) (code : Int32) :
    (a.union b).add code = (b.add code).map a.union := by
  unfold add
  cases (Enumeration.ofCode code : Except Rejection CallFlag) with
  | error rejection => rfl
  | ok flag => exact congrArg Except.ok (union_assoc a b (ofFlag flag))

theorem foldlM_add_union (a b : CallFlags) (codes : List Int32) :
    codes.foldlM add (a.union b) = (codes.foldlM add b).map a.union := by
  induction codes generalizing b with
  | nil => rfl
  | cons code codes ih =>
    rw [List.foldlM_cons, List.foldlM_cons, add_union]
    cases b.add code with
    | error rejection => rfl
    | ok next => exact ih next

theorem ofCodes_append (codes others : List Int32) :
    ofCodes (codes ++ others) = do
      let set ← ofCodes codes
      let other ← ofCodes others
      return set.union other := by
  change (codes ++ others).foldlM add empty = codes.foldlM add empty >>= _
  rw [List.foldlM_append]
  refine bind_congr fun set => ?_
  rw [← union_empty set, foldlM_add_union, union_empty]
  change (ofCodes others).map _ = _
  cases ofCodes others <;> rfl

theorem bit_foldlM (folded : codes.foldlM add set = .ok last) (k : Nat) :
    last.bit k = true ↔ set.bit k = true ∨ ∃ code ∈ codes, code.toInt = k := by
  induction codes generalizing set with
  | nil =>
    cases folded
    simp
  | cons code codes ih =>
    rw [List.foldlM_cons] at folded
    obtain ⟨next, hnext, hrest⟩ := bind_eq_ok folded
    obtain ⟨flag, hcode, rfl⟩ := add_eq_ok_iff.mp hnext
    rw [ih hrest, bit_union, bit_ofFlag, List.exists_mem_cons_iff, hcode, Int.ofNat_inj,
      Bool.or_eq_true, decide_eq_true_iff, or_assoc]

theorem bit_ofCodes (decoded : ofCodes codes = .ok set) (k : Nat) :
    set.bit k = true ↔ ∃ code ∈ codes, code.toInt = k := by
  have hbit := bit_foldlM decoded k
  rw [bit_empty] at hbit
  simpa using hbit

theorem ofCodes_accepted_iff :
    (∃ set, ofCodes codes = .ok set) ↔ ∀ code ∈ codes, Known code := by
  have hrefusal := refusal?_ofCodes codes
  have hnone : codes.findSome? (outOfRange? "CallState.Kind" 6) = none ↔
      ∀ code ∈ codes, Known code := by
    rw [List.findSome?_eq_none_iff]
    exact forall₂_congr fun _ _ => outOfRange?_eq_none_iff
  rw [← hnone, ← hrefusal]
  cases ofCodes codes <;> simp [refusal?]

theorem ofCodes_refused_iff {rejection : Rejection} :
    ofCodes codes = .error rejection ↔ ∃ before code after, codes = before ++ code :: after ∧
      (∀ earlier ∈ before, Known earlier) ∧ ¬ Known code ∧
        rejection = .unknownEnumerator "CallState.Kind" code := by
  have hrefusal := refusal?_ofCodes codes
  have hsome : ofCodes codes = .error rejection ↔
      codes.findSome? (outOfRange? "CallState.Kind" 6) = some rejection := by
    rw [← hrefusal]
    cases ofCodes codes <;> simp [refusal?]
  rw [hsome, List.findSome?_eq_some_iff]
  simp only [outOfRange?_eq_none_iff, outOfRange?_eq_some_iff]
  refine exists₃_congr fun before code after => and_congr_right fun _ => ?_
  rw [and_comm]

theorem bit_of_unknown (decoded : ofCodes codes = .ok set) {k : Nat} (high : 5 < k) :
    set.bit k = false := by
  by_contra has
  obtain ⟨code, member, hcode⟩ := (bit_ofCodes decoded k).mp (Bool.not_eq_false _ ▸ has)
  have known := ofCodes_accepted_iff.mp ⟨set, decoded⟩ code member
  have hlast := known.2
  omega

/-- The numbers in which a set is listed are those from which it was read. -/
theorem mem_codes_ofCodes (decoded : ofCodes codes = .ok set) :
    code ∈ set.codes ↔ code ∈ codes := by
  rw [codes_eq fun k => bit_of_unknown decoded, List.mem_map]
  constructor
  · rintro ⟨flag, member, rfl⟩
    obtain ⟨other, hother, hsame⟩ := (bit_ofCodes decoded flag.bit).mp (mem_flags.mp member)
    rw [← toInt_bit] at hsame
    exact Int32.toInt_inj.mp hsame ▸ hother
  · intro member
    obtain ⟨flag, hcode⟩ := known_iff.mp (ofCodes_accepted_iff.mp ⟨set, decoded⟩ code member)
    refine ⟨flag, mem_flags.mpr ((bit_ofCodes decoded flag.bit).mpr ⟨code, member, hcode⟩), ?_⟩
    rw [← Int32.toInt_inj, toInt_bit, hcode]

theorem ofCodes_of_members {others : List Int32} (same : ∀ code, code ∈ others ↔ code ∈ codes)
    (decoded : ofCodes codes = .ok set) : ofCodes others = .ok set := by
  have known := ofCodes_accepted_iff.mp ⟨set, decoded⟩
  obtain ⟨other, hother⟩ :=
    ofCodes_accepted_iff.mpr fun code member => known code ((same code).mp member)
  have hset : other = set := ext_bit fun k => by
    rw [Bool.eq_iff_iff, bit_ofCodes hother, bit_ofCodes decoded]
    exact exists_congr fun code => and_congr_left fun _ => same code
  rw [hother, hset]

/-- What is to be said of the set that a list of numbers stands for. -/
structure Reading (codes : List Int32) : Prop where
  accepted : (∃ set, ofCodes codes = .ok set) ↔ ∀ code ∈ codes, Known code
  /-- The first number that names no flag decides. -/
  refused : ∀ rejection, ofCodes codes = .error rejection ↔
    ∃ before code after, codes = before ++ code :: after ∧ (∀ earlier ∈ before, Known earlier) ∧
      ¬ Known code ∧ rejection = .unknownEnumerator "CallState.Kind" code
  bits : ∀ set, ofCodes codes = .ok set →
    (∀ k, set.bit k = true ↔ ∃ code ∈ codes, code.toInt = k) ∧ ∀ k, 5 < k → set.bit k = false
  append : ∀ others, ofCodes (codes ++ others) = do
    let set ← ofCodes codes
    let other ← ofCodes others
    return set.union other
  members : ∀ others, (∀ code, code ∈ others ↔ code ∈ codes) →
    ∀ set, ofCodes others = .ok set ↔ ofCodes codes = .ok set
  /-- The set is listed in ascending order, each number once. -/
  listed : ∀ set, ofCodes codes = .ok set → set.codes.Pairwise (· < ·) ∧ set.codes.Nodup ∧
    ∀ code, code ∈ set.codes ↔ code ∈ codes

/-- Whatever numbers are in a list, and in whatever order, the list is read as a set of flags. -/
theorem ofCodes_reading (codes : List Int32) : Reading codes where
  accepted := ofCodes_accepted_iff
  refused _ := ofCodes_refused_iff
  bits _ decoded := ⟨bit_ofCodes decoded, fun _ high => bit_of_unknown decoded high⟩
  append := ofCodes_append codes
  members _ same _ :=
    ⟨ofCodes_of_members fun code => (same code).symm, ofCodes_of_members same⟩
  listed set decoded := by
    have ascending : set.codes.Pairwise (· < ·) := by
      rw [codes_eq fun _ => bit_of_unknown decoded]
      exact flags_pairwise set
    have distinct : set.codes.Nodup := ascending.imp fun before => Int32.ne_of_lt before
    exact ⟨ascending, distinct, fun _ => mem_codes_ofCodes decoded⟩

example : ofCodes [4, 2, 2] = .ok ⟨0x14⟩ ∧ (⟨0x14⟩ : CallFlags).codes = [2, 4] ∧
    ofCodes [0, 7, -1] = .error (.unknownEnumerator "CallState.Kind" 7) := by
  decide

end CallFlags

end ToxEvents
