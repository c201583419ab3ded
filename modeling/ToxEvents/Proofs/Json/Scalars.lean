import ToxEvents.Json.Reader
import ToxEvents.Proofs.Text.Scanning
set_option autoImplicit false

namespace ToxEvents

namespace Text

theorem hexDigit?_digitChar : ∀ d < 16, hexDigit? (Nat.digitChar d) = some d := by decide

theorem isHexDigit_digitChar : ∀ d < 16, isHexDigit (Nat.digitChar d) := by decide

theorem ofDigits_toDigits (n : Nat) : ofDigits 10 (Nat.toDigits 10 n) = n := by
  induction n using Nat.strongRecOn with
  | ind n ih =>
    rw [Nat.toDigits_eq_if (by decide)]
    split
    case isTrue hsmall => simp [ofDigits, hexDigit?_digitChar n (by omega)]
    case isFalse hlarge =>
      have hfront := ih (n / 10) (by omega)
      have hlast := hexDigit?_digitChar (n % 10) (by omega)
      unfold ofDigits at hfront ⊢
      rw [List.foldl_append, hfront, List.foldl_cons, List.foldl_nil, hlast, Option.getD_some]
      omega

theorem leading_toDigits {n : Nat} (positive : 0 < n) :
    ∃ c cs, Nat.toDigits 10 n = c :: cs ∧ c ≠ '0' := by
  induction n using Nat.strongRecOn with
  | ind n ih =>
    rw [Nat.toDigits_eq_if (by decide)]
    split
    case isTrue hsmall =>
      have hdigit : ∀ d < 10, 0 < d → Nat.digitChar d ≠ '0' := by decide
      exact ⟨_, [], rfl, hdigit n hsmall positive⟩
    case isFalse hlarge =>
      obtain ⟨c, cs, hfront, hne⟩ := ih (n / 10) (by omega) (by omega)
      rw [hfront]
      exact ⟨c, _, rfl, hne⟩

/-- No numeral with a zero before other digits is written. -/
theorem toDigits_ne_zero_cons (n : Nat) (c : Char) (cs : List Char) :
    Nat.toDigits 10 n ≠ '0' :: c :: cs := by
  intro written
  rcases Nat.eq_zero_or_pos n with rfl | hpos
  · simp at written
  · obtain ⟨d, ds, hleading, hne⟩ := leading_toDigits hpos
    rw [written] at hleading
    exact hne (List.head_eq_of_cons_eq hleading).symm

theorem toList_ofNat (n : Nat) : (toString (Int.ofNat n)).toList = Nat.toDigits 10 n := by
  change (Nat.repr n).toList = _
  rw [Nat.repr_eq_ofList_toDigits, String.toList_ofList]

theorem toList_negSucc (n : Nat) :
    (toString (Int.negSucc n)).toList = '-' :: Nat.toDigits 10 (n + 1) := by
  change ("-" ++ Nat.repr (n + 1)).toList = _
  simp [Nat.repr_eq_ofList_toDigits]

theorem all_isDigit (n : Nat) : (Nat.toDigits 10 n).all Char.isDigit :=
  List.all_eq_true.mpr fun _ member => Nat.isDigit_of_mem_toDigits (by decide) (by decide) member

theorem exists_digit (n : Nat) : ∃ c cs, Nat.toDigits 10 n = c :: cs ∧ c.isDigit := by
  obtain ⟨c, cs, hdigits⟩ := List.exists_cons_of_ne_nil (Nat.toDigits_ne_nil (b := 10) (n := n))
  have hmember : c ∈ Nat.toDigits 10 n := hdigits ▸ List.mem_cons_self ..
  exact ⟨c, cs, hdigits, List.all_eq_true.mp (all_isDigit n) c hmember⟩

/-- What a whole number can begin with. -/
def Leads (c : Char) : Prop := c = '-' ∨ c.isDigit

theorem leads_toString (n : Int) : ∃ c cs, (toString n).toList = c :: cs ∧ Leads c := by
  cases n with
  | ofNat n =>
    obtain ⟨c, cs, hdigits, hdigit⟩ := exists_digit n
    exact ⟨c, cs, (toList_ofNat n).trans hdigits, .inr hdigit⟩
  | negSucc n => exact ⟨'-', _, toList_negSucc n, .inl rfl⟩

theorem Leads.ne {c d : Char} (leads : Leads c) (hsign : d ≠ '-') (hdigit : d.isDigit = false) :
    c ≠ d := by
  rintro rfl
  rcases leads with same | digit
  · exact hsign same
  · rw [hdigit] at digit
    cases digit

end Text

namespace Json
open Scanner

theorem escapeChar_ne_nil (c : Char) : escapeChar c ≠ [] := by
  unfold escapeChar
  repeat' split
  all_goals simp

namespace Reader

variable {c : Char} {rest : List Char}

theorem codeUnit_control {n : Nat} (control : n < 32) (rest : List Char) :
    codeUnit ('0' :: '0' :: Nat.digitChar (n / 16) :: Nat.digitChar (n % 16) :: rest) =
      some (n, rest) := by
  have hhigh : n / 16 < 16 := by omega
  have hlow : n % 16 < 16 := by omega
  have hfront : exactly 4 Text.isHexDigit
      ('0' :: '0' :: Nat.digitChar (n / 16) :: Nat.digitChar (n % 16) :: rest) =
        some (['0', '0', Nat.digitChar (n / 16), Nat.digitChar (n % 16)], rest) := by
    have hzero : Text.isHexDigit '0' := by decide
    simp [exactly, hzero, Text.isHexDigit_digitChar _ hhigh, Text.isHexDigit_digitChar _ hlow]
  have hvalue :
      Text.ofDigits 16 ['0', '0', Nat.digitChar (n / 16), Nat.digitChar (n % 16)] = n := by
    have hzero : Text.hexDigit? '0' = some 0 := by decide
    simp only [Text.ofDigits, List.foldl_cons, List.foldl_nil, hzero,
      Text.hexDigit?_digitChar _ hhigh, Text.hexDigit?_digitChar _ hlow, Option.getD_some]
    omega
  unfold codeUnit
  rw [bind_of_some hfront, hvalue]
  rfl

theorem unit_escaped {n : Nat} {text : List Char} (read : escape text = some (n, rest)) :
    unit ('\\' :: text) = some (n, rest) := read

theorem unit_plain (hquote : c ≠ '"') (hslash : c ≠ '\\') (hprint : ¬c.toNat < 32) :
    unit (c :: rest) = some (c.toNat, rest) := by
  change (if c = '\\' then escape else if c = '"' ∨ c.toNat < 32 then failure else
    return c.toNat : Scanner Nat) rest = _
  rw [if_neg hslash, if_neg (by simp [hquote, hprint])]
  rfl

theorem unit_escapeChar (c : Char) (rest : List Char) :
    unit (escapeChar c ++ rest) = some (c.toNat, rest) := by
  unfold escapeChar
  split
  case isTrue hquote => rw [hquote]; rfl
  split
  case isTrue hslash => rw [hslash]; rfl
  split
  case isTrue hback => rw [hback]; rfl
  split
  case isTrue htab => rw [htab]; rfl
  split
  case isTrue hfeed => rw [hfeed]; rfl
  split
  case isTrue hform => rw [hform]; rfl
  split
  case isTrue hreturn => rw [hreturn]; rfl
  split
  case isTrue hcontrol => exact unit_escaped (codeUnit_control hcontrol rest)
  case isFalse hquote hslash _ _ _ _ _ hprint => exact unit_plain hquote hslash hprint

theorem run_unit (chars rest : List Char) :
    Run unit (chars.flatMap escapeChar ++ '"' :: rest) (chars.map Char.toNat) ('"' :: rest) := by
  induction chars with
  | nil => exact .stop rfl
  | cons c chars ih =>
    rw [List.flatMap_cons, List.append_assoc]
    refine .step (unit_escapeChar c _) ?_ ih
    have hpos := List.length_pos_iff.mpr (escapeChar_ne_nil c)
    simp only [List.length_append]
    omega

theorem joined?_toNat (chars : List Char) : joined? (chars.map Char.toNat) = some chars := by
  induction chars with
  | nil => rfl
  | cons c chars ih =>
    have hvalid : c.toNat.isValidChar := c.valid
    have hhigh : isHighHalf c.toNat = false := by
      simp only [isHighHalf, Bool.and_eq_false_iff, decide_eq_false_iff_not]
      unfold Nat.isValidChar at hvalid
      omega
    have hlow : isLowHalf c.toNat = false := by
      simp only [isLowHalf, Bool.and_eq_false_iff, decide_eq_false_iff_not]
      unfold Nat.isValidChar at hvalid
      omega
    rw [List.map_cons, joined?.eq_def]
    simp [hhigh, hlow, ih]

theorem text_quote (s : String) (rest : List Char) :
    text (quote s ++ rest) = some (some s, rest) := by
  have hunits := (run_unit s.toList rest).many
  have htext : quote s ++ rest = '"' :: (s.toList.flatMap escapeChar ++ '"' :: rest) := by
    simp [quote]
  unfold text
  rw [htext, bind_of_some (char_cons ..), bind_of_some hunits, bind_of_some (char_cons ..),
    joined?_toNat, Option.map_some, String.ofList_toList]
  rfl

/-- Nothing stands behind a value, or what separates it from the next. -/
def Follows (rest : List Char) : Prop := ∀ c, rest.head? = some c → c = ',' ∨ c = '\n'

theorem Follows.not_digit (follows : Follows rest) :
    ∀ c, rest.head? = some c → c.isDigit = false := by
  intro c first
  rcases follows c first with rfl | rfl <;> rfl

theorem Follows.fraction (follows : Follows rest) : fraction rest = none := by
  cases rest with
  | nil => rfl
  | cons c cs => rcases follows c rfl with rfl | rfl <;> rfl

theorem Follows.exponent (follows : Follows rest) : exponent rest = none := by
  cases rest with
  | nil => rfl
  | cons c cs => rcases follows c rfl with rfl | rfl <;> rfl

theorem span1_append {ok : Char → Bool} {front : List Char} (filled : front ≠ [])
    (good : front.all ok) (stops : ∀ c, rest.head? = some c → ok c = false) :
    span1 ok (front ++ rest) = some (front, rest) := by
  have hspan := span_append good stops
  simp only [span, Option.some.injEq, Prod.mk.injEq] at hspan
  unfold span1
  rw [hspan.1, hspan.2]
  cases front with
  | nil => exact absurd rfl filled
  | cons c cs => rfl

theorem whole_toDigits (n : Nat) (follows : Follows rest) :
    whole (Nat.toDigits 10 n ++ rest) = some (Nat.toDigits 10 n, rest) := by
  have hproper := Text.toDigits_ne_zero_cons n
  unfold whole
  rw [bind_of_some (span1_append Nat.toDigits_ne_nil (Text.all_isDigit n) follows.not_digit)]
  generalize Nat.toDigits 10 n = digits at hproper ⊢
  split
  case h_1 c cs => exact absurd rfl (hproper c cs)
  case h_2 => rfl

theorem number_of_sign {text : List Char} {n : Nat} {sign : Option Unit} (follows : Follows rest)
    (read : optional (char '-') text = some (sign, Nat.toDigits 10 n ++ rest))
    (proper : sign.isSome → n ≠ 0) :
    number text = some (int (if sign.isSome then -n else n), rest) := by
  unfold number
  rw [bind_of_some read, bind_of_some (whole_toDigits n follows),
    bind_of_some (optional_of_none follows.fraction),
    bind_of_some (optional_of_none follows.exponent), Text.ofDigits_toDigits]
  cases sign with
  | none => rfl
  | some sign =>
    have hn := proper rfl
    simp only [Option.isSome_some, Bool.true_and, decide_eq_false hn, Bool.not_false,
      Option.isNone_none, Bool.and_true, if_true]
    rfl

theorem number_toString (n : Int) (follows : Follows rest) :
    number ((toString n).toList ++ rest) = some (int n, rest) := by
  cases n with
  | ofNat n =>
    obtain ⟨c, cs, hdigits, hdigit⟩ := Text.exists_digit n
    have hsign : char '-' (Nat.toDigits 10 n ++ rest) = none := by
      have hne : c ≠ '-' := by
        intro same
        rw [same] at hdigit
        exact absurd hdigit (by decide)
      rw [hdigits]
      exact char_of_ne hne _
    rw [Text.toList_ofNat]
    exact number_of_sign follows (optional_of_none hsign) (fun signed => nomatch signed)
  | negSucc n =>
    rw [Text.toList_negSucc]
    exact number_of_sign follows (optional_of_some (char_cons ..)) fun _ => Nat.succ_ne_zero n

end Reader

end Json

end ToxEvents
