import ToxEvents.Proofs.Wire.RoundTrip
set_option autoImplicit false

namespace ToxEvents.Wire

/-- What a field carries, before its schema says how to take it. -/
inductive Content where
  | number (n : UInt64)
  | payload (bytes : Bytes)
  | packed (ns : List UInt64)
deriving DecidableEq, Repr

namespace Content

def number? : Content → Option UInt64
  | number n => some n
  | _ => none

def payload? : Content → Option Bytes
  | payload bytes => some bytes
  | _ => none

def numbers : Content → List UInt64
  | number n => [n]
  | payload _ => []
  | packed ns => ns

end Content

structure Token where
  tag : Nat
  content : Content
deriving DecidableEq, Repr

def contents (tag : Nat) (tokens : List Token) : List Content :=
  tokens.filterMap fun token => if token.tag = tag then some token.content else none

namespace Kind

/-- How the contents of a field of this kind are laid out. Only a list may be packed, or not. -/
inductive Laid (kind : Kind) : WireType → Bytes → Content → Prop
  | number {bytes : Bytes} {n : UInt64} (hkind : kind ≠ .bytes) (formed : Varint.Form bytes n) :
      Laid kind .varint bytes (.number n)
  | payload {bytes payload : Bytes} (hkind : kind = .bytes) (behind : Delimits bytes payload) :
      Laid kind .lengthDelimited bytes (.payload payload)
  | packed {bytes payload : Bytes} {ns : List UInt64} (hkind : kind = .int32s)
      (behind : Delimits bytes payload) (elements : Sequence Varint.Form payload ns) :
      Laid kind .lengthDelimited bytes (.packed ns)

/-- The value of a field that has these contents, in this order. -/
def told : (kind : Kind) → List Content → kind.Value
  | uint32, cs => ((cs.filterMap Content.number?).getLastD 0).toUInt32
  | uint64, cs => (cs.filterMap Content.number?).getLastD 0
  | int32, cs => int32OfVarint ((cs.filterMap Content.number?).getLastD 0)
  | bool, cs => (cs.filterMap Content.number?).getLastD 0 != 0
  | bytes, cs => (cs.filterMap Content.payload?).getLastD []
  | int32s, cs => (cs.flatMap Content.numbers).map int32OfVarint

end Kind

namespace Schema

variable {ρ : Type} (schema : Schema ρ)

/-- Bytes that are fields of the record and unknown fields, and the tokens of the former. -/
inductive Spells (budget : Nat) : Bytes → List Token → Prop
  | nil : Spells budget [] []
  | own {lead value others : Bytes} {key : Key} {field : Field ρ} {content : Content}
      {tokens : List Token} (first : Key.Form lead key)
      (found : schema.fields[key.tag - 1]? = some field)
      (laid : field.kind.Laid key.wire value content) (more : Spells budget others tokens) :
      Spells budget (lead ++ value ++ others) (⟨key.tag, content⟩ :: tokens)
  | unknown {lead value others : Bytes} {key : Key} {tokens : List Token}
      (first : Key.Form lead key) (absent : schema.fields[key.tag - 1]? = none)
      (wellFormed : Key.ValueForm budget key value) (more : Spells budget others tokens) :
      Spells budget (lead ++ value ++ others) tokens

def Holds (record : ρ) (tokens : List Token) : Prop :=
  ∀ (i : Nat) (field : Field ρ), schema.fields[i]? = some field →
    field.get record = field.kind.told (contents (i + 1) tokens)

/-- How a record is read: by the tokens of its fields, which leave nothing open. -/
structure ReadsTokens : Prop where
  determined : ∀ tokens, ∃! record, schema.Holds record tokens
  alone : ∀ bytes record, schema.decode bytes = .ok record ↔
    ∃ tokens, schema.Spells Key.depthLimit bytes tokens ∧ schema.Holds record tokens
  /-- Behind a length, in a buffer that goes on. -/
  nested : ∀ budget input rest record, schema.readNested budget input = .ok (record, rest) ↔
    ∃ value payload tokens, input.bytes = value ++ rest.bytes ∧ Delimits value payload ∧
      schema.Spells (budget - 1) payload tokens ∧ schema.Holds record tokens

/-- Setting a field changes it, and none of the fields before it. -/
structure Apart : Prop where
  own : ∀ field ∈ schema.fields, ∀ x record, field.get (field.set x record) = x
  others : schema.fields.Pairwise fun field later =>
    ∀ x record, field.get (later.set x record) = field.get record

end Schema

namespace Kind

def value? : (kind : Kind) → Content → Option kind.Value
  | uint32, .number n => some n.toUInt32
  | uint64, .number n => some n
  | int32, .number n => some (int32OfVarint n)
  | bool, .number n => some (n != 0)
  | bytes, .payload payload => some payload
  | int32s, .number n => some [int32OfVarint n]
  | int32s, .packed ns => some (ns.map int32OfVarint)
  | _, _ => none

theorem sequence_elementForm_iff {bytes : Bytes} {values : List Int32} :
    Sequence ElementForm bytes values ↔
      ∃ ns, Sequence Varint.Form bytes ns ∧ values = ns.map int32OfVarint := by
  constructor
  · intro h
    induction h with
    | nil => exact ⟨[], .nil, rfl⟩
    | cons first _ ih =>
      obtain ⟨n, formed, rfl⟩ := first
      obtain ⟨ns, others, rfl⟩ := ih
      exact ⟨n :: ns, .cons formed others, rfl⟩
  · rintro ⟨ns, h, rfl⟩
    induction h with
    | nil => exact .nil
    | cons first _ ih => exact .cons ⟨_, first, rfl⟩ ih

theorem form_of_laid {kind : Kind} {wire : WireType} {bytes : Bytes} {content : Content}
    (laid : kind.Laid wire bytes content) :
    ∃ x, kind.value? content = some x ∧ kind.Form wire bytes x := by
  cases laid with
  | @number _ n hkind formed =>
    cases kind with
    | bytes => exact absurd rfl hkind
    | uint64 => exact ⟨n, rfl, rfl, formed⟩
    | int32s => exact ⟨_, rfl, .inr ⟨rfl, _, ⟨n, formed, rfl⟩, rfl⟩⟩
    | _ => exact ⟨_, rfl, rfl, n, formed, rfl⟩
  | payload hkind behind =>
    subst hkind
    exact ⟨_, rfl, rfl, behind⟩
  | packed hkind behind elements =>
    subst hkind
    exact ⟨_, rfl, .inl ⟨rfl, _, behind, sequence_elementForm_iff.mpr ⟨_, elements, rfl⟩⟩⟩

theorem laid_of_form {kind : Kind} {wire : WireType} {bytes : Bytes} {x : kind.Value}
    (formed : kind.Form wire bytes x) :
    ∃ content, kind.Laid wire bytes content ∧ kind.value? content = some x := by
  cases kind with
  | bytes =>
    obtain ⟨rfl, behind⟩ := formed
    exact ⟨.payload x, .payload rfl behind, rfl⟩
  | uint64 =>
    obtain ⟨rfl, formed⟩ := formed
    exact ⟨.number x, .number nofun formed, rfl⟩
  | int32s =>
    obtain ⟨rfl, payload, behind, elements⟩ | ⟨rfl, _, ⟨n, formed, rfl⟩, rfl⟩ := formed
    · obtain ⟨ns, hns, rfl⟩ := sequence_elementForm_iff.mp elements
      exact ⟨.packed ns, .packed rfl behind hns, rfl⟩
    · exact ⟨.number n, .number nofun formed, rfl⟩
  | _ =>
    obtain ⟨rfl, n, formed, rfl⟩ := formed
    exact ⟨.number n, .number nofun formed, rfl⟩

theorem getLastD_number {α : Type} (f : UInt64 → α) {taken : Content → Option α}
    (same : ∀ c, taken c = c.number?.map f) (cs : List Content) :
    (cs.filterMap taken).getLastD (f 0) = f ((cs.filterMap Content.number?).getLastD 0) := by
  have hmap : cs.filterMap taken = (cs.filterMap Content.number?).map f := by
    rw [List.map_filterMap]
    exact List.filterMap_congr fun c _ => same c
  rw [hmap, List.getLastD_eq_getLast?, List.getLast?_map, List.getLastD_eq_getLast?]
  cases (cs.filterMap Content.number?).getLast? <;> rfl

theorem flatten_numbers (cs : List Content) :
    (cs.filterMap int32s.value?).flatten = (cs.flatMap Content.numbers).map int32OfVarint := by
  induction cs with
  | nil => rfl
  | cons c cs ih =>
    rw [List.flatMap_cons, List.map_append, ← ih]
    cases c <;> rfl

theorem gather_value? (kind : Kind) (cs : List Content) :
    kind.gather (cs.filterMap kind.value?) = kind.told cs := by
  cases kind with
  | uint32 => exact getLastD_number UInt64.toUInt32 (fun c => by cases c <;> rfl) cs
  | uint64 => exact getLastD_number id (fun c => by cases c <;> rfl) cs
  | int32 => exact getLastD_number int32OfVarint (fun c => by cases c <;> rfl) cs
  | bool => exact getLastD_number (· != 0) (fun c => by cases c <;> rfl) cs
  | bytes =>
    have htaken : (bytes.value? : Content → Option Bytes) = Content.payload? := by
      funext c
      cases c <;> rfl
    exact congrArg (fun taken => (cs.filterMap taken).getLastD []) htaken
  | int32s => exact flatten_numbers cs

end Kind

namespace Schema

variable {ρ : Type} {schema : Schema ρ}

def occurrence? (schema : Schema ρ) (token : Token) : Option Occurrence := do
  let field ← schema.fields[token.tag - 1]?
  let x ← field.kind.value? token.content
  return ⟨token.tag, field.kind, x⟩

theorem occurrence?_eq_some {tag : Nat} {content : Content} {field : Field ρ} {x : field.kind.Value}
    (found : schema.fields[tag - 1]? = some field) (taken : field.kind.value? content = some x) :
    schema.occurrence? ⟨tag, content⟩ = some ⟨tag, field.kind, x⟩ := by
  simp [occurrence?, found, taken]

theorem filterMap_occurrence? (tokens : List Token) {i : Nat} {field : Field ρ}
    (found : schema.fields[i]? = some field) :
    (tokens.filterMap schema.occurrence?).filterMap (·.valueOf? (i + 1) field.kind) =
      (contents (i + 1) tokens).filterMap field.kind.value? := by
  rw [contents, List.filterMap_filterMap, List.filterMap_filterMap]
  refine List.filterMap_congr fun token _ => ?_
  obtain ⟨tag, content⟩ := token
  by_cases same : tag = i + 1
  · subst same
    cases taken : field.kind.value? content with
    | none => simp [occurrence?, found, taken]
    | some x =>
      have named : schema.occurrence? ⟨i + 1, content⟩ = some ⟨i + 1, field.kind, x⟩ :=
        occurrence?_eq_some found taken
      simp [named, Occurrence.valueOf?, taken]
  -- The occurrence may be one of another field, but it keeps the tag of its token.
  · cases named : schema.occurrence? ⟨tag, content⟩ with
    | none => simp [same]
    | some o =>
      have htag : o.tag = tag := by
        simp only [occurrence?, Option.bind_eq_bind, Option.bind_eq_some_iff] at named
        obtain ⟨_, _, _, _, ⟨⟩⟩ := named
        rfl
      simp [same, Occurrence.valueOf?, htag]

theorem Spells.sequence {budget : Nat} {bytes : Bytes} {tokens : List Token}
    (h : schema.Spells budget bytes tokens) :
    ∃ fields, Sequence (schema.FieldForm budget) bytes fields ∧
      fields.filterMap id = tokens.filterMap schema.occurrence? := by
  induction h with
  | nil => exact ⟨[], .nil, rfl⟩
  | @own lead value others key field content tokens first found laid _ ih =>
    obtain ⟨fields, formed, same⟩ := ih
    obtain ⟨x, taken, hvalue⟩ := Kind.form_of_laid laid
    refine ⟨some ⟨key.tag, field.kind, x⟩ :: fields, .cons (.known first found hvalue) formed, ?_⟩
    simpa [occurrence?_eq_some found taken] using same
  | @unknown lead value others key tokens first absent wellFormed _ ih =>
    obtain ⟨fields, formed, same⟩ := ih
    exact ⟨none :: fields, .cons (.unknown first absent wellFormed) formed, by simpa using same⟩

theorem Spells.of_sequence {budget : Nat} {bytes : Bytes} {fields : List (Option Occurrence)}
    (h : Sequence (schema.FieldForm budget) bytes fields) :
    ∃ tokens, schema.Spells budget bytes tokens ∧
      fields.filterMap id = tokens.filterMap schema.occurrence? := by
  induction h with
  | nil => exact ⟨[], .nil, rfl⟩
  | cons first _ ih =>
    obtain ⟨tokens, spells, same⟩ := ih
    cases first with
    | known first found formed =>
      obtain ⟨content, laid, taken⟩ := Kind.laid_of_form formed
      exact ⟨_, .own first found laid spells, by simpa [occurrence?_eq_some found taken] using same⟩
    | unknown first absent wellFormed =>
      exact ⟨tokens, .unknown first absent wellFormed spells, by simpa using same⟩

theorem form_iff_spells {budget : Nat} {bytes : Bytes} {record : ρ} :
    schema.Form budget bytes record ↔
      ∃ tokens, schema.Spells budget bytes tokens ∧
        record = schema.ofOccurrences (tokens.filterMap schema.occurrence?) := by
  constructor
  · rintro ⟨fields, formed, rfl⟩
    obtain ⟨tokens, spells, same⟩ := Spells.of_sequence formed
    exact ⟨tokens, spells, by rw [same]⟩
  · rintro ⟨tokens, spells, rfl⟩
    obtain ⟨fields, formed, same⟩ := spells.sequence
    exact ⟨fields, formed, by rw [same]⟩

section
variable {parts : List (Field ρ × Nat)} (value : (part : Field ρ × Nat) → part.1.kind.Value)

theorem get_setAll_of_apart {field : Field ρ}
    (apart : ∀ part ∈ parts, ∀ x record, field.get (part.1.set x record) = field.get record)
    (record : ρ) :
    field.get (parts.foldl (fun record part => part.1.set (value part) record) record) =
      field.get record := by
  induction parts generalizing record with
  | nil => rfl
  | cons part parts ih =>
    rw [List.foldl_cons, ih (fun other h => apart other (List.mem_cons_of_mem _ h)),
      apart part List.mem_cons_self]

theorem get_setAll (own : ∀ part ∈ parts, ∀ x record, part.1.get (part.1.set x record) = x)
    (others : parts.Pairwise fun part later =>
      ∀ x record, part.1.get (later.1.set x record) = part.1.get record)
    {part : Field ρ × Nat} (hpart : part ∈ parts) (record : ρ) :
    part.1.get (parts.foldl (fun record part => part.1.set (value part) record) record) =
      value part := by
  induction parts generalizing record with
  | nil => cases hpart
  | cons head parts ih =>
    rw [List.pairwise_cons] at others
    rw [List.foldl_cons]
    rcases List.mem_cons.mp hpart with rfl | hlater
    · rw [get_setAll_of_apart value others.1, own part List.mem_cons_self]
    · exact ih (fun later h => own later (List.mem_cons_of_mem _ h)) others.2 hlater _

end

theorem Apart.get_ofOccurrences (apart : schema.Apart) (occurrences : List Occurrence) {i : Nat}
    {field : Field ρ} (found : schema.fields[i]? = some field) :
    field.get (schema.ofOccurrences occurrences) =
      field.kind.gather (occurrences.filterMap (·.valueOf? (i + 1) field.kind)) := by
  have hpart : (field, i) ∈ schema.fields.zipIdx := List.mem_zipIdx_iff_getElem?.mpr found
  have others := apart.others
  rw [← List.zipIdx_map_fst 0 schema.fields, List.pairwise_map] at others
  exact get_setAll
    (fun part => part.1.kind.gather (occurrences.filterMap (·.valueOf? (part.2 + 1) part.1.kind)))
    (fun part h => apart.own part.1 (List.fst_mem_of_mem_zipIdx h)) others hpart schema.blank

theorem Lawful.ext (lawful : schema.Lawful) {record record' : ρ}
    (same : ∀ field ∈ schema.fields, field.get record = field.get record') : record = record' := by
  rw [← lawful.rebuild record, ← lawful.rebuild record']
  exact List.foldl_ext _ _ _ fun built field h => by rw [same field h]

theorem Apart.holds_iff (apart : schema.Apart) (lawful : schema.Lawful) {record : ρ}
    {tokens : List Token} :
    schema.Holds record tokens ↔
      record = schema.ofOccurrences (tokens.filterMap schema.occurrence?) := by
  have hread :
      schema.Holds (schema.ofOccurrences (tokens.filterMap schema.occurrence?)) tokens := by
    intro i field found
    rw [apart.get_ofOccurrences _ found, filterMap_occurrence? tokens found,
      Kind.gather_value?]
  constructor
  · intro holds
    refine lawful.ext fun field hfield => ?_
    obtain ⟨i, found⟩ := List.getElem?_of_mem hfield
    rw [holds i field found, hread i field found]
  · rintro rfl
    exact hread

theorem Apart.readsTokens (apart : schema.Apart) (lawful : schema.Lawful) :
    schema.ReadsTokens where
  determined tokens := by
    simp only [apart.holds_iff lawful]
    exact ⟨_, rfl, fun _ h => h⟩
  alone bytes record := by
    rw [schema.decode_eq_ok_iff, form_iff_spells]
    simp only [apart.holds_iff lawful]
  nested budget input rest record := by
    rw [schema.recognizes_readNested budget input rest record]
    simp only [form_iff_spells, apart.holds_iff lawful]
    constructor
    · rintro ⟨value, split, payload, behind, tokens, spells, holds⟩
      exact ⟨value, payload, tokens, split, behind, spells, holds⟩
    · rintro ⟨value, payload, tokens, split, behind, spells, holds⟩
      exact ⟨value, split, payload, behind, tokens, spells, holds⟩

end Schema

end ToxEvents.Wire
