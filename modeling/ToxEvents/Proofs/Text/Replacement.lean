import ToxEvents.Proofs.Text.Forms
import ToxEvents.Proofs.Text.LineFeeds
set_option autoImplicit false

/-!
# Text in the place of bytes

Bytes are shown as text with each character for its own UTF-8 form, and with one U+FFFD for each
longest run of bytes with which a character could begin where none stands. There is one such text
for any bytes. Characters keep to themselves in it: none is lost next to other bytes, or made of
them.
-/
namespace ToxEvents
open Wire

namespace Utf8

/-- The bytes with which a character has begun. -/
inductive Pending.Reads : Bytes → Pending → Prop
  | first {b : UInt8} {p : Pending} (led : lead b = .opens p) : Reads [b] p
  | more {run : Bytes} {owed bits : Nat} {low high b : UInt8}
      (reads : Reads run ⟨owed + 1, low, high, bits⟩) (inside : low ≤ b ∧ b ≤ high) :
      Reads (run ++ [b]) ⟨owed, 0x80, 0xBF, bits * 64 + (b.toNat - 0x80)⟩

namespace Pending

variable {run tail : Bytes} {p : Pending} {c : Char}

theorem Reads.ne_nil (reads : Reads run p) : run ≠ [] := by
  cases reads <;> simp

theorem Reads.low_le_high (reads : Reads run p) : p.low.toNat ≤ p.high.toNat := by
  cases reads with
  | @first b p led =>
    obtain ⟨-, rfl⟩ | ⟨-, rfl⟩ | ⟨-, rfl⟩ := lead_opens led
    · exact Nat.le_of_ble_eq_true rfl
    · exact ite_le_ite (by omega) (by decide) (by decide) (by decide)
    · exact ite_le_ite (by omega) (by decide) (by decide) (by decide)
  | more => exact Nat.le_of_ble_eq_true rfl

theorem Reads.spells_iff (reads : Reads run p) : Spells (run ++ tail) c ↔ p.Ends tail c := by
  induction reads generalizing tail with
  | first led =>
    refine ⟨fun spells => ?_, .long led⟩
    cases spells with
    | whole led' => cases led.symm.trans led'
    | long led' ends => cases led.symm.trans led'; exact ends
  | more reads inside ih =>
    rw [List.append_assoc, ih]
    refine ⟨fun ends => ?_, .next inside⟩
    cases ends with | next inside later => exact later

theorem Ends.ne_nil (ends : p.Ends tail c) : tail ≠ [] := by
  cases ends <;> simp

theorem Ends.head {b : UInt8} (ends : p.Ends (b :: tail) c) : p.low ≤ b ∧ b ≤ p.high := by
  cases ends with
  | last inside => exact inside
  | next inside => exact inside

theorem exists_ends (some : p.low.toNat ≤ p.high.toNat) : ∃ tail c, p.Ends tail c := by
  obtain ⟨owed, low, high, bits⟩ := p
  have inside : low ≤ low ∧ low ≤ high := ⟨UInt8.le_refl low, some⟩
  induction owed generalizing low high bits with
  | zero => exact ⟨[low], _, .last inside rfl⟩
  | succ owed ih =>
    have hlater : (0x80 : UInt8) ≤ 0xBF := by decide
    obtain ⟨tail, c, ends⟩ :=
      ih 0x80 0xBF (bits * 64 + (low.toNat - 0x80)) hlater ⟨UInt8.le_refl _, hlater⟩
    exact ⟨low :: tail, c, .next inside ends⟩

theorem Reads.begins (reads : Reads run p) : ∃ c, run <+: String.utf8EncodeChar c := by
  obtain ⟨tail, c, ends⟩ := exists_ends reads.low_le_high
  exact ⟨c, tail, (spells_iff_form.mp (reads.spells_iff.mpr ends)).symm⟩

theorem Reads.of_prefix {part : Bytes} (reads : Reads run p) (front : part <+: run)
    (some : part ≠ []) : ∃ q, Reads part q := by
  induction reads with
  | @first b p led =>
    change part <+: [] ++ [b] at front
    obtain rfl | none := List.prefix_concat_iff.mp front
    · exact ⟨_, .first led⟩
    · exact absurd (List.prefix_nil.mp none) some
  | more reads inside ih =>
    obtain rfl | front := List.prefix_concat_iff.mp front
    · exact ⟨_, .more reads inside⟩
    · exact ih front

theorem Reads.not_prefix (reads : Reads run p) (c : Char) :
    ¬String.utf8EncodeChar c <+: run := by
  intro front
  obtain ⟨q, hq⟩ := reads.of_prefix front String.utf8EncodeChar_ne_nil
  have spells := spells_iff_form.mpr (Eq.refl (String.utf8EncodeChar c))
  rw [← List.append_nil (String.utf8EncodeChar c), hq.spells_iff] at spells
  exact spells.ne_nil rfl

end Pending

/-- Bytes that one U+FFFD stands for: no character is where they begin, and they are the longest of
those that are one byte or begin a character. -/
structure Stump (run rest : Bytes) : Prop where
  nonempty : run ≠ []
  broken (c : Char) : ¬String.utf8EncodeChar c <+: run ++ rest
  begins : run.length = 1 ∨ ∃ c, run <+: String.utf8EncodeChar c
  longest (other : Bytes) (front : other <+: run ++ rest)
    (begins : other.length = 1 ∨ ∃ c, other <+: String.utf8EncodeChar c) :
    other.length ≤ run.length

/-- The text that is shown for bytes. -/
inductive Replaced : Bytes → List Char → Prop
  | nil : Replaced [] []
  | char {c : Char} {rest : Bytes} {text : List Char} (later : Replaced rest text) :
      Replaced (String.utf8EncodeChar c ++ rest) (c :: text)
  | stump {run rest : Bytes} {text : List Char} (stump : Stump run rest)
      (later : Replaced rest text) : Replaced (run ++ rest) ('\uFFFD' :: text)

section
variable {run rest : Bytes} {p : Pending}

theorem prefix_append_cases {part : Bytes} (front : part <+: run ++ rest) :
    part <+: run ∨ ∃ tail, tail <+: rest ∧ part = run ++ tail := by
  obtain inner | ⟨tail, rfl⟩ := List.prefix_or_prefix_of_prefix front (List.prefix_append run rest)
  · exact .inl inner
  · exact .inr ⟨tail, (List.prefix_append_right_inj run).mp front, rfl⟩

/-- It is enough that no character is in the run, and none that has begun goes on behind it. -/
theorem Stump.of_ends (nonempty : run ≠ [])
    (begins : run.length = 1 ∨ ∃ c, run <+: String.utf8EncodeChar c)
    (part : ∀ c, ¬String.utf8EncodeChar c <+: run)
    (ends : ∀ c tail, tail <+: rest → run ++ tail <+: String.utf8EncodeChar c → tail = []) :
    Stump run rest where
  nonempty := nonempty
  begins := begins
  broken c front := by
    obtain inner | ⟨tail, behind, form⟩ := prefix_append_cases front
    · exact part c inner
    · have hnil := ends c tail behind (form ▸ List.prefix_rfl)
      rw [hnil, List.append_nil] at form
      exact part c (form ▸ List.prefix_rfl)
  longest other front begins := by
    obtain inner | ⟨tail, behind, rfl⟩ := prefix_append_cases front
    · exact inner.length_le
    obtain single | ⟨c, begins⟩ := begins
    · have hrun := List.length_pos_iff.mpr nonempty
      omega
    · rw [ends c tail behind begins, List.append_nil]

theorem Stump.ends {c : Char} {tail : Bytes} (stump : Stump run rest) (behind : tail <+: rest)
    (begins : run ++ tail <+: String.utf8EncodeChar c) : tail = [] := by
  have hlength := stump.longest (run ++ tail) ((List.prefix_append_right_inj run).mpr behind)
    (.inr ⟨c, begins⟩)
  rw [List.length_append] at hlength
  exact List.length_eq_zero_iff.mp (by omega)

theorem Pending.Reads.stump (reads : p.Reads run)
    (stops : ∀ b ∈ rest.head?, ¬(p.low ≤ b ∧ b ≤ p.high)) : Stump run rest := by
  refine .of_ends reads.ne_nil (.inr reads.begins) reads.not_prefix fun c tail behind begins => ?_
  cases tail with
  | nil => rfl
  | cons b tail =>
    obtain ⟨more, hmore⟩ := begins
    rw [List.append_assoc, List.cons_append] at hmore
    have ends := reads.spells_iff.mp (spells_iff_form.mpr hmore.symm)
    obtain ⟨rest, rfl⟩ := behind
    exact absurd ends.head (stops b rfl)

-- The induction is on the bytes to come; what has been read grows by each of them that goes on.
theorem scanFrom_some (reads : p.Reads run) (bytes : Bytes) :
    (∃ tail rest c, bytes = tail ++ rest ∧ Spells (run ++ tail) c ∧
      scanFrom (some p) bytes = some c :: scan rest) ∨
    ∃ more rest, bytes = more ++ rest ∧ Stump (run ++ more) rest ∧
      scanFrom (some p) bytes = none :: scan rest := by
  induction bytes generalizing run p with
  | nil =>
    refine .inr ⟨[], [], rfl, ?_, rfl⟩
    rw [List.append_nil]
    exact reads.stump (by simp)
  | cons b bytes ih =>
    by_cases inside : p.low ≤ b ∧ b ≤ p.high
    case neg =>
      refine .inr ⟨[], b :: bytes, rfl, ?_, scanFrom_refused inside bytes⟩
      rw [List.append_nil]
      exact reads.stump (by simpa using inside)
    rw [scanFrom, if_pos inside]
    obtain ⟨owed, low, high, bits⟩ := p
    cases owed with
    | zero => exact .inl ⟨[b], bytes, _, rfl, reads.spells_iff.mpr (.last inside rfl), rfl⟩
    | succ owed =>
      obtain ⟨tail, rest, c, rfl, spells, hscan⟩ | ⟨more, rest, rfl, stump, hscan⟩ :=
        ih (reads.more inside)
      · rw [List.append_assoc] at spells
        exact .inl ⟨b :: tail, rest, c, rfl, spells, hscan⟩
      · rw [List.append_assoc] at stump
        exact .inr ⟨b :: more, rest, rfl, stump, hscan⟩

theorem stump_of_stray {b : UInt8} (led : lead b = .stray) : Stump [b] rest := by
  have hnone {c : Char} (begins : [b] <+: String.utf8EncodeChar c) : False := by
    obtain ⟨tail, form⟩ := begins
    cases spells_iff_form.mpr form.symm with
    | whole led' => cases led.symm.trans led'
    | long led' => cases led.symm.trans led'
  refine .of_ends (List.cons_ne_nil b []) (.inl rfl) (fun c inner => ?_) fun c tail _ begins => ?_
  · obtain ⟨first, tail, form, -⟩ := form_shape c
    rw [form, List.cons_prefix_cons, List.prefix_nil] at inner
    rw [inner.1, inner.2] at form
    exact hnone ⟨[], form.symm⟩
  · exact (hnone ((List.prefix_append [b] tail).trans begins)).elim

theorem scan_cons (b : UInt8) (bytes : Bytes) :
    (∃ c rest, b :: bytes = String.utf8EncodeChar c ++ rest ∧
      scan (b :: bytes) = some c :: scan rest) ∨
    ∃ run rest, b :: bytes = run ++ rest ∧ Stump run rest ∧
      scan (b :: bytes) = none :: scan rest := by
  rw [scan, scanFrom]
  cases led : lead b with
  | whole c =>
    exact .inl ⟨c, bytes, (spells_iff_form.mp (.whole led)).symm ▸ rfl, rfl⟩
  | opens p =>
    obtain ⟨tail, rest, c, rfl, spells, hscan⟩ | ⟨more, rest, rfl, stump, hscan⟩ :=
      scanFrom_some (.first led) bytes
    · exact .inl ⟨c, rest, (spells_iff_form.mp spells).symm ▸ rfl, hscan⟩
    · exact .inr ⟨b :: more, rest, rfl, stump, hscan⟩
  | stray => exact .inr ⟨[b], bytes, rfl, stump_of_stray led, rfl⟩

theorem Stump.unique {run' rest' : Bytes} (stump : Stump run rest) (stump' : Stump run' rest')
    (same : run ++ rest = run' ++ rest') : run = run' ∧ rest = rest' := by
  have hle := stump'.longest run (same ▸ List.prefix_append run rest) stump.begins
  have hge := stump.longest run' (same ▸ List.prefix_append run' rest') stump'.begins
  exact List.append_inj same (Nat.le_antisymm hle hge)

theorem Pending.Ends.scanFrom {tail : Bytes} {c : Char} (ends : p.Ends tail c) :
    scanFrom (some p) (tail ++ rest) = some c :: scan rest := by
  induction ends with
  | last inside made => rw [List.cons_append, Utf8.scanFrom, if_pos inside, made]; rfl
  | next inside later ih => rw [List.cons_append, Utf8.scanFrom, if_pos inside]; exact ih

theorem scan_char (c : Char) (rest : Bytes) :
    scan (String.utf8EncodeChar c ++ rest) = some c :: scan rest := by
  have spells := spells_iff_form.mpr (Eq.refl (String.utf8EncodeChar c))
  generalize String.utf8EncodeChar c = form at spells
  cases spells with
  | whole led => rw [scan, List.cons_append, scanFrom, led]; rfl
  | long led ends => rw [scan, List.cons_append, scanFrom, led]; exact ends.scanFrom

theorem scan_stump (stump : Stump run rest) : scan (run ++ rest) = none :: scan rest := by
  obtain ⟨b, bytes, hbytes⟩ := List.exists_cons_of_ne_nil
    (List.append_ne_nil_of_left_ne_nil stump.nonempty rest)
  rw [hbytes]
  obtain ⟨c, later, hform, -⟩ | ⟨run', rest', hrun, stump', hscan⟩ := scan_cons b bytes
  · exact absurd ⟨later, hform.symm.trans hbytes.symm⟩ (stump.broken c)
  · rw [hscan, (stump.unique stump' (hbytes.trans hrun)).2]

end

theorem length_lt_of_append {bytes front rest : Bytes} (same : bytes = front ++ rest)
    (nonempty : front ≠ []) : rest.length < bytes.length := by
  have hpositive := List.length_pos_iff.mpr nonempty
  rw [same, List.length_append]
  omega

theorem decodeLossy_of_replaced {bytes : Bytes} {text : List Char}
    (replaced : Replaced bytes text) : decodeLossy bytes = text := by
  unfold decodeLossy
  induction replaced with
  | nil => rfl
  | char later ih => rw [scan_char, List.map_cons, ih]; rfl
  | stump stump later ih => rw [scan_stump stump, List.map_cons, ih]; rfl

theorem replaced_decodeLossy (bytes : Bytes) : Replaced bytes (decodeLossy bytes) := by
  unfold decodeLossy
  induction hlength : bytes.length using Nat.strongRecOn generalizing bytes with
  | ind n ih =>
    subst hlength
    cases bytes with
    | nil => exact .nil
    | cons b bytes =>
      obtain ⟨c, rest, hform, hscan⟩ | ⟨run, rest, hrun, stump, hscan⟩ := scan_cons b bytes
      · have hshorter := length_lt_of_append hform String.utf8EncodeChar_ne_nil
        rw [hscan, hform]
        exact .char (ih rest.length hshorter rest rfl)
      · have hshorter := length_lt_of_append hrun stump.nonempty
        rw [hscan, hrun]
        exact .stump stump (ih rest.length hshorter rest rfl)

theorem replaced_iff {bytes : Bytes} {text : List Char} :
    Replaced bytes text ↔ decodeLossy bytes = text :=
  ⟨decodeLossy_of_replaced, fun shown => shown ▸ replaced_decodeLossy bytes⟩

def bytesOf (s : String) : Bytes := s.toUTF8.data.toList

theorem bytesOf_ofList (text : List Char) :
    bytesOf (String.ofList text) = text.flatMap String.utf8EncodeChar := by
  rw [bytesOf, String.toUTF8, String.toByteArray_ofList, List.utf8Encode, List.data_toByteArray]

theorem bytesOf_eq (s : String) : bytesOf s = s.toList.flatMap String.utf8EncodeChar := by
  rw [← bytesOf_ofList, String.ofList_toList]

theorem bytesOf_eq_encode (s : String) : bytesOf s = encode s.toList := by
  rw [bytesOf_eq, encode]
  exact congrArg (s.toList.flatMap ·) (funext fun c => (encodeChar_eq c).symm)

theorem Replaced.before {rest : Bytes} {later : List Char} (replaced : Replaced rest later)
    (text : List Char) : Replaced (text.flatMap String.utf8EncodeChar ++ rest) (text ++ later) := by
  induction text with
  | nil => exact replaced
  | cons c text ih =>
    rw [List.flatMap_cons, List.append_assoc]
    exact .char ih

/-- Inside a character there is no place for the start of another. -/
theorem eq_nil_of_inside {front tail : Bytes} {c : Char} {text : List Char} (some : front ≠ [])
    (inside : front ++ tail <+: String.utf8EncodeChar c)
    (begins : tail <+: text.flatMap String.utf8EncodeChar) : tail = [] := by
  cases text with
  | nil => exact List.prefix_nil.mp begins
  | cons d text =>
    obtain ⟨first, others, form, -, continues⟩ := form_shape c
    obtain ⟨start, more, form', starts, -⟩ := form_shape d
    rw [List.flatMap_cons, form', List.cons_append] at begins
    cases tail with
    | nil => rfl
    | cons b tail =>
      obtain ⟨x, front, rfl⟩ := List.exists_cons_of_ne_nil some
      rw [form, List.cons_append, List.cons_prefix_cons] at inside
      have hb : b ∈ others := inside.2.subset (by simp)
      exact absurd (continues b hb) ((List.cons_prefix_cons.mp begins).1 ▸ starts)

theorem Stump.append {run rest : Bytes} (stump : Stump run rest) (text : List Char) :
    Stump run (rest ++ text.flatMap String.utf8EncodeChar) := by
  refine .of_ends stump.nonempty stump.begins (fun c inner => ?_) fun c tail behind begins => ?_
  · exact stump.broken c (inner.trans (List.prefix_append run rest))
  · obtain behind | ⟨later, hlater, rfl⟩ := prefix_append_cases behind
    · exact stump.ends behind begins
    · rw [← List.append_assoc] at begins
      have hnil := eq_nil_of_inside (List.append_ne_nil_of_left_ne_nil stump.nonempty rest) begins
        hlater
      rw [hnil, List.append_nil] at begins ⊢
      exact stump.ends List.prefix_rfl begins

theorem Replaced.after {bytes : Bytes} {shown : List Char} (replaced : Replaced bytes shown)
    (text : List Char) :
    Replaced (bytes ++ text.flatMap String.utf8EncodeChar) (shown ++ text) := by
  induction replaced with
  | nil => simpa using Replaced.nil.before text
  | char later ih =>
    rw [List.append_assoc]
    exact .char ih
  | stump stump later ih =>
    rw [List.append_assoc]
    exact .stump (stump.append text) ih

end Utf8

namespace Payload
open Utf8

variable {kind : PayloadKind}

theorem text_eq_iff {p : Payload kind} {shown : String} :
    p.text = shown ↔ Replaced p.bytes shown.toList := by
  rw [replaced_iff, text, display]
  exact ⟨fun same => same ▸ String.toList_ofList.symm, fun same => same ▸ String.ofList_toList⟩

/-- What is shown for bytes of a kind: the text that they stand for. -/
structure Faithful (kind : PayloadKind) : Prop where
  lenient (bytes : Bytes) (shown : String) :
    (⟨bytes⟩ : Payload kind).text = shown ↔ Replaced bytes shown.toList
  exact (s : String) : (⟨bytesOf s⟩ : Payload kind).text = s
  settled (bytes : Bytes) :
    (⟨bytesOf (⟨bytes⟩ : Payload kind).text⟩ : Payload kind).text = (⟨bytes⟩ : Payload kind).text
  before (s : String) (bytes : Bytes) :
    (⟨bytesOf s ++ bytes⟩ : Payload kind).text = s ++ (⟨bytes⟩ : Payload kind).text
  after (bytes : Bytes) (s : String) :
    (⟨bytes ++ bytesOf s⟩ : Payload kind).text = (⟨bytes⟩ : Payload kind).text ++ s

theorem text_faithful (kind : PayloadKind) : Faithful kind := by
  have hexact (s : String) : (⟨bytesOf s⟩ : Payload kind).text = s := by
    rw [text_eq_iff, bytesOf_eq]
    simpa using Replaced.nil.before s.toList
  refine ⟨fun bytes shown => text_eq_iff, hexact, fun bytes => hexact _, fun s bytes => ?_,
    fun bytes s => ?_⟩
  · rw [text_eq_iff, bytesOf_eq, String.toList_append]
    exact (text_eq_iff.mp rfl).before s.toList
  · rw [text_eq_iff, bytesOf_eq, String.toList_append]
    exact (text_eq_iff.mp rfl).after s.toList

/-- One U+FFFD for a form that is cut short, and two for bytes with which none begins. -/
example : (⟨[0x61, 0xE2, 0x82, 0x62, 0xC0, 0x80]⟩ : Payload .nickname).text =
    "a\uFFFDb\uFFFD\uFFFD" := by decide +kernel

end Payload

end ToxEvents
