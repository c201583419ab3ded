import ToxEvents.Proofs.Wire.Varint
set_option autoImplicit false

namespace ToxEvents.Wire

theorem WireType.ofCode?_eq_some_iff {n : Nat} {wire : WireType} :
    ofCode? n = some wire ↔ n = wire.code := by
  constructor
  · intro h
    have hn : n < 6 := (List.getElem?_eq_some_iff.mp h).1
    have hcases : n = 0 ∨ n = 1 ∨ n = 2 ∨ n = 3 ∨ n = 4 ∨ n = 5 := by omega
    rcases hcases with rfl | rfl | rfl | rfl | rfl | rfl <;> cases h <;> rfl
  · rintro rfl
    exact ofCode?_code wire

theorem WireType.code_lt (wire : WireType) : wire.code < 8 := by
  cases wire <;> decide

namespace Key

theorem ofVarint_eq_ok_iff {n : UInt64} {key : Key} :
    ofVarint n = .ok key ↔
      n.toNat = 8 * key.tag + key.wire.code ∧ n.toNat ≤ 0xFFFFFFFF ∧ 0 < key.tag := by
  have hcode := key.wire.code_lt
  obtain ⟨tag, wire⟩ := key
  simp only [ofVarint]
  split
  · next big =>
    simp only [reduceCtorEq, false_iff]
    omega
  · next fits =>
    split
    · next none =>
      simp only [reduceCtorEq, false_iff]
      rintro ⟨hn, -, -⟩
      have : n.toNat % 8 = wire.code := by simp only at hcode hn; omega
      rw [this, WireType.ofCode?_code] at none
      cases none
    · next found hfound =>
      rw [WireType.ofCode?_eq_some_iff] at hfound
      split
      · next zero =>
        simp only [reduceCtorEq, false_iff]
        simp only at hcode
        omega
      · next positive =>
        simp only [Except.ok.injEq, Key.mk.injEq]
        constructor
        · rintro ⟨rfl, rfl⟩
          omega
        · rintro ⟨hn, -, -⟩
          simp only at hcode
          refine ⟨by omega, ?_⟩
          have : n.toNat % 8 = wire.code := by omega
          have h := WireType.ofCode?_code found
          rw [← hfound, this, WireType.ofCode?_code] at h
          exact (Option.some.inj h).symm

theorem Form.ne_nil {bytes : Bytes} {key : Key} (h : Form bytes key) : bytes ≠ [] := by
  obtain ⟨n, hn, -⟩ := h
  exact hn.ne_nil

theorem consumes_form : Consumes Form := fun _ _ h => h.ne_nil

theorem recognizes_read : read.Recognizes Form := by
  have h : read.Recognizes fun bytes key => ∃ n, Varint.Form bytes n ∧ ofVarint n = .ok key := by
    apply Varint.recognizes_read.checked
    · intro n key found
      simp only [found]
    · intro n cause found
      exact ⟨{ cause }, by simp only [found, Reader.fail]⟩
  refine h.congr fun bytes key => ?_
  simp only [ofVarint_eq_ok_iff, Form]

/-- The fields of a group in front of the rest are its end, or a field and the others. -/
theorem groupForm_step_iff {skipField : Key → Reader Unit} {valueForm : Key → Bytes → Prop}
    (h : ∀ key, (skipField key).Recognizes fun bytes _ => valueForm key bytes) {tag : Nat}
    {input rest : Input} :
    (∃ bytes, input.bytes = bytes ++ rest.bytes ∧ GroupForm valueForm tag bytes) ↔
      read input = .ok (⟨tag, .endGroup⟩, rest) ∨
      ∃ key mid next, read input = .ok (key, mid) ∧ key.wire ≠ .endGroup ∧
        skipField key mid = .ok ((), next) ∧
        ∃ bytes, next.bytes = bytes ++ rest.bytes ∧ GroupForm valueForm tag bytes := by
  constructor
  · rintro ⟨_, split, formed⟩
    cases formed with
    | close last => exact .inl ((recognizes_read _ _ _).mpr ⟨_, split, last⟩)
    | @field lead value others key first inside wellFormed more =>
      refine .inr ⟨key, .ofBytes (value ++ (others ++ rest.bytes)), .ofBytes (others ++ rest.bytes),
        ?_, inside, ?_, others, rfl, more⟩
      · exact (recognizes_read _ _ _).mpr ⟨lead, by simpa using split, first⟩
      · exact (h key _ _ _).mpr ⟨value, rfl, wellFormed⟩
  · rintro (last | ⟨key, mid, next, first, inside, skipped, others, split, more⟩)
    · obtain ⟨bytes, split, formed⟩ := (recognizes_read _ _ _).mp last
      exact ⟨bytes, split, .close formed⟩
    · obtain ⟨lead, hlead, formed⟩ := (recognizes_read _ _ _).mp first
      obtain ⟨value, hvalue, wellFormed⟩ := (h key _ _ _).mp skipped
      exact ⟨lead ++ (value ++ others), by rw [hlead, hvalue, split]; simp,
        .field formed inside wellFormed more⟩

/-- Every field of a group takes a byte, so the number of bytes bounds the number of fields. -/
theorem recognizes_skipGroup {skipField : Key → Reader Unit} {valueForm : Key → Bytes → Prop}
    (h : ∀ key, (skipField key).Recognizes fun bytes _ => valueForm key bytes) (tag : Nat) :
    Reader.Recognizes (fun input => skipGroup skipField tag (input.size + 1) input)
      fun bytes _ => GroupForm valueForm tag bytes := by
  intro input rest _
  suffices hfuel : ∀ fuel input, input.size < fuel →
      (skipGroup skipField tag fuel input = .ok ((), rest) ↔
        ∃ bytes, input.bytes = bytes ++ rest.bytes ∧ GroupForm valueForm tag bytes) from
    hfuel _ input (Nat.lt_succ_self _)
  -- With the input open: each key that is read leaves fewer bytes, for which less fuel is enough.
  intro fuel
  induction fuel with
  | zero =>
    intro input enough
    omega
  | succ fuel ih =>
    intro input enough
    rw [groupForm_step_iff h]
    simp only [skipGroup]
    split
    · next fault failed => simp [failed]
    · next key mid hkey =>
      have hmid := recognizes_read.size_lt consumes_form hkey
      simp only [hkey, Except.ok.injEq, Prod.mk.injEq]
      split
      · next ends =>
        obtain ⟨keyTag, wire⟩ := key
        simp only at ends
        subst ends
        split
        · next same =>
          simp only at same
          subst same
          simp only [Except.ok.injEq, Prod.mk.injEq, true_and]
          constructor
          · exact .inl
          · rintro (rfl | ⟨_, _, _, ⟨rfl, rfl⟩, inside, -⟩)
            · rfl
            · exact absurd rfl inside
        · next other =>
          simp only [reduceCtorEq, Key.mk.injEq, and_true, false_iff]
          rintro (⟨same, -⟩ | ⟨_, _, _, ⟨rfl, rfl⟩, inside, -⟩)
          · exact other same
          · exact inside rfl
      · next inside =>
        have hopen : key ≠ ⟨tag, .endGroup⟩ := fun same => inside (by rw [same])
        simp only [hopen, false_and, false_or]
        split
        · next fault failed =>
          simp only [reduceCtorEq, false_iff]
          rintro ⟨_, _, _, ⟨rfl, rfl⟩, -, skipped, -⟩
          rw [failed] at skipped
          cases skipped
        · next next hnext =>
          have hsize : next.size ≤ mid.size := (h key).size_le hnext
          rw [ih next (by omega)]
          constructor
          · intro further
            exact ⟨key, mid, next, ⟨rfl, rfl⟩, inside, hnext, further⟩
          · rintro ⟨_, _, _, ⟨rfl, rfl⟩, -, skipped, further⟩
            rw [hnext] at skipped
            cases skipped
            exact further

theorem recognizes_skipValue (budget : Nat) (key : Key) :
    (skipValue budget key).Recognizes fun bytes _ => ValueForm budget key bytes := by
  induction budget generalizing key with
  | zero => exact Reader.recognizes_fail _
  | succ budget ih =>
    simp only [skipValue, ValueForm]
    cases key.wire with
    | varint =>
      refine (Varint.recognizes_read.returning fun _ => ()).congr fun bytes _ => ?_
      simp
    | thirtyTwoBit => exact Reader.recognizes_skip 4
    | sixtyFourBit => exact Reader.recognizes_skip 8
    | lengthDelimited =>
      have hskip (n : Nat) :
          (Reader.skip n).Recognizes fun bytes _ => bytes.length = n ∧ True := by
        simpa using Reader.recognizes_skip n
      exact (Reader.recognizes_delimited hskip).congr fun bytes _ => by simp
    | startGroup => exact recognizes_skipGroup ih key.tag
    | endGroup => exact Reader.recognizes_fail _

section
variable {τ ω : Type} {V : τ → Type}

/-- A field whose tag is looked up in a table: what `make` makes of its value if the table knows it,
and nothing otherwise. -/
def LookupForm (table : List τ) (valueForm : (t : τ) → WireType → Bytes → V t → Prop)
    (make : (t : τ) → Nat → V t → ω) (budget : Nat) (bytes : Bytes) (o : Option ω) : Prop :=
  ∃ key lead value, bytes = lead ++ value ∧ Form lead key ∧
    ((∃ t x, table[key.tag - 1]? = some t ∧ valueForm t key.wire value x ∧
        o = some (make t key.tag x)) ∨
      (table[key.tag - 1]? = none ∧ ValueForm budget key value ∧ o = none))

theorem consumes_lookupForm {table : List τ}
    {valueForm : (t : τ) → WireType → Bytes → V t → Prop} {make : (t : τ) → Nat → V t → ω}
    {budget : Nat} : Consumes (LookupForm table valueForm make budget) := by
  rintro bytes o ⟨key, lead, value, rfl, first, -⟩
  simp [first.ne_nil]

theorem recognizes_lookup {table : List τ}
    {valueForm : (t : τ) → WireType → Bytes → V t → Prop} {make : (t : τ) → Nat → V t → ω}
    {budget : Nat} {next : Key → Reader (Option ω)}
    (known : ∀ {key t}, table[key.tag - 1]? = some t →
      (next key).Recognizes fun value o =>
        ∃ x, valueForm t key.wire value x ∧ o = some (make t key.tag x))
    (unknown : ∀ {key}, table[key.tag - 1]? = none →
      next key = do skipValue budget key; return none) :
    (read >>= next).Recognizes (LookupForm table valueForm make budget) := by
  have hnext (key : Key) : (next key).Recognizes fun value o =>
      (∃ t x, table[key.tag - 1]? = some t ∧ valueForm t key.wire value x ∧
        o = some (make t key.tag x)) ∨
      (table[key.tag - 1]? = none ∧ ValueForm budget key value ∧ o = none) := by
    cases hentry : table[key.tag - 1]? with
    | some t =>
      refine (known hentry).congr fun value o => ?_
      simp
    | none =>
      rw [unknown hentry]
      refine ((recognizes_skipValue budget key).returning fun _ => none).congr fun value o => ?_
      simp
  exact recognizes_read.bind hnext

end

end Key

end ToxEvents.Wire
