import Mathlib.Data.List.Nodup
import ToxEvents.Proofs.Wire.Writing
set_option autoImplicit false

namespace ToxEvents.Wire

theorem flatMap_eq_of_unique {α β : Type} {g : α → List β} {x : α} {xs : List α}
    (nodup : xs.Nodup) (hx : x ∈ xs) (others : ∀ y ∈ xs, y ≠ x → g y = []) :
    xs.flatMap g = g x := by
  induction xs with
  | nil => cases hx
  | cons y ys ih =>
    rw [List.nodup_cons] at nodup
    rw [List.flatMap_cons]
    by_cases same : y = x
    · subst same
      have hnil : ys.flatMap g = [] := List.flatMap_eq_nil_iff.mpr fun z hz =>
        others z (List.mem_cons_of_mem _ hz) fun heq => nodup.1 (heq ▸ hz)
      rw [hnil, List.append_nil]
    · have hmem : x ∈ ys := (List.mem_cons.mp hx).resolve_left (Ne.symm same)
      rw [others y List.mem_cons_self same, List.nil_append]
      exact ih nodup.2 hmem fun z hz => others z (List.mem_cons_of_mem _ hz)

theorem length_le_length_flatMap {α β : Type} {g : α → List β} {x : α} {xs : List α}
    (hx : x ∈ xs) : (g x).length ≤ (xs.flatMap g).length := by
  induction xs with
  | nil => cases hx
  | cons y ys ih =>
    rw [List.flatMap_cons, List.length_append]
    rcases List.mem_cons.mp hx with rfl | hmem
    · omega
    · have := ih hmem
      omega

theorem nodup_zipIdx {α : Type} (xs : List α) : xs.zipIdx.Nodup := by
  apply List.Nodup.of_map Prod.snd
  rw [List.zipIdx_map_snd]
  exact List.nodup_range'

theorem Kind.gather_nil (kind : Kind) : kind.gather [] = kind.default := by
  cases kind <;> rfl

theorem Kind.gather_single (kind : Kind) (value : kind.Value) : kind.gather [value] = value := by
  cases kind with
  | int32s => simp [gather]
  | _ => rfl

/-- How a field of a record occurs in the record's encoding. -/
def Field.occurrences {ρ : Type} (field : Field ρ) (tag : Nat) (record : ρ) :
    List (Option Occurrence) :=
  if field.get record = field.kind.default then []
  else [some ⟨tag, field.kind, field.get record⟩]

theorem Field.gather_occurrences {ρ : Type} (field : Field ρ) (tag : Nat) (record : ρ) :
    field.kind.gather (((field.occurrences tag record).filterMap id).filterMap
      (·.valueOf? tag field.kind)) = field.get record := by
  unfold occurrences
  split
  · next blank => rw [blank]; exact field.kind.gather_nil
  · next holds =>
    simpa [Occurrence.valueOf?] using field.kind.gather_single (field.get record)

theorem Field.occurrences_other {ρ : Type} (field : Field ρ) {tag tag' : Nat} (kind : Kind)
    (record : ρ) (other : tag ≠ tag') :
    ((field.occurrences tag record).filterMap id).filterMap (·.valueOf? tag' kind) = [] := by
  unfold occurrences
  split
  · rfl
  · simp [Occurrence.valueOf?, other]

namespace Schema

variable {ρ : Type}

/-- A record is made of its fields, and their tags fit into keys. -/
structure Lawful (schema : Schema ρ) : Prop where
  rebuild : ∀ record, schema.fields.foldl (fun built field => field.set (field.get record) built)
    schema.blank = record
  few : schema.fields.length < 0x1000000

def written (schema : Schema ρ) (record : ρ) : List (Option Occurrence) :=
  schema.fields.zipIdx.flatMap fun (field, i) => field.occurrences (i + 1) record

variable {schema : Schema ρ}

theorem gather_written (record : ρ) {field : Field ρ} {i : Nat}
    (hfield : (field, i) ∈ schema.fields.zipIdx) :
    field.kind.gather (((schema.written record).filterMap id).filterMap
      (·.valueOf? (i + 1) field.kind)) = field.get record := by
  unfold written
  -- Positions do not repeat, so no other field's part holds an occurrence with this tag.
  rw [List.filterMap_flatMap, List.filterMap_flatMap,
    flatMap_eq_of_unique (nodup_zipIdx _) hfield]
  · exact field.gather_occurrences (i + 1) record
  · rintro ⟨field', j⟩ hfield' different
    apply field'.occurrences_other
    rintro same
    have hij : j = i := Nat.succ.inj same
    subst hij
    rw [List.mem_zipIdx_iff_getElem?] at hfield hfield'
    have hsame : field' = field := by
      rw [hfield] at hfield'
      exact (Option.some.inj hfield').symm
    exact different (by rw [hsame])

theorem Lawful.ofOccurrences_written (lawful : schema.Lawful) (record : ρ) :
    schema.ofOccurrences ((schema.written record).filterMap id) = record := by
  calc
    schema.ofOccurrences ((schema.written record).filterMap id) =
        schema.fields.zipIdx.foldl (fun built part => part.1.set (part.1.get record) built)
          schema.blank := by
      apply List.foldl_ext
      rintro built ⟨field, i⟩ hfield
      change field.set (field.kind.gather _) built = field.set (field.get record) built
      rw [gather_written record hfield]
    _ = (schema.fields.zipIdx.map Prod.fst).foldl
          (fun built field => field.set (field.get record) built) schema.blank := by
      rw [List.foldl_map]
    _ = record := by rw [List.zipIdx_map_fst, lawful.rebuild]

theorem Lawful.sequence_encode (lawful : schema.Lawful) (budget : Nat) (record : ρ)
    (short : (schema.encode record).length < 0x8000000000000000) :
    Sequence (schema.FieldForm budget) (schema.encode record) (schema.written record) := by
  have few := lawful.few
  apply Sequence.flatMap
  rintro ⟨field, i⟩ hfield
  have hlength : (field.kind.encode (i + 1) (field.get record)).length ≤
      (schema.encode record).length :=
    length_le_length_flatMap
      (g := fun part : Field ρ × Nat => part.1.kind.encode (part.2 + 1) (part.1.get record)) hfield
  rw [List.mem_zipIdx_iff_getElem?] at hfield
  have hi : i < schema.fields.length := (List.getElem?_eq_some_iff.mp hfield).1
  simp only [Kind.encode, Field.occurrences] at hlength ⊢
  split
  · exact .nil
  · next holds =>
    rw [if_neg holds, List.length_append] at hlength
    have hcode := field.kind.wire.code_lt
    have hkey : Key.Form (Key.encode ⟨i + 1, field.kind.wire⟩) ⟨i + 1, field.kind.wire⟩ :=
      Key.form_encode (Nat.succ_pos i) (by simp only; omega)
    exact .single (.known hkey hfield (field.kind.form_encodeValue _ (by omega)))

theorem Lawful.form_encode (lawful : schema.Lawful) (budget : Nat) (record : ρ)
    (short : (schema.encode record).length < 0x8000000000000000) :
    schema.Form budget (schema.encode record) record :=
  ⟨_, lawful.sequence_encode budget record short, (lawful.ofOccurrences_written record).symm⟩

end Schema

end ToxEvents.Wire
