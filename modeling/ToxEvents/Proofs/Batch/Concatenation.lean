import Mathlib.Data.List.Forall2
import ToxEvents.Proofs.Batch.RoundTrip
import ToxEvents.Proofs.Wire.Prefix
set_option autoImplicit false

namespace ToxEvents.Batch
open Wire

section
variable {C : Type} [DecidableEq C] [Surface C]

def append (first second : Batch C) : Batch C := fun c => first c ++ second c

theorem ofEntries_append (entries entries' : List (Entry C)) :
    ofEntries (entries ++ entries') = (ofEntries entries).append (ofEntries entries') := by
  funext c
  exact List.filterMap_append

theorem size_append (first second : Batch C) :
    (first.append second).size = first.size + second.size := by
  unfold size
  simp only [Surface.total_eq]
  induction Surface.all (C := C) with
  | nil => rfl
  | cons c cs ih =>
    have hlength : (first.append second c).length = (first c).length + (second c).length :=
      List.length_append
    simp only [List.map_cons, List.foldr_cons, ih, hlength]
    omega

theorem readEntries_append {front : Bytes} {entries : List (Entry C)}
    (found : readEntries front = .ok entries) (back : Bytes) :
    readEntries (front ++ back) = (readEntries back).map (entries ++ ·) := by
  obtain ⟨fields, sequence, rfl⟩ := readEntries_eq_ok_iff.mp found
  unfold readEntries
  rw [Reader.items_append recognizes_readEntry consumes_fieldForm sequence]
  cases Reader.items (readEntry (C := C)) 0 (.ofBytes back) with
  | error fault => rfl
  | ok result =>
    change Except.ok ((fields ++ result.1).filterMap id) = Except.ok _
    rw [List.filterMap_append]

theorem decode_append {front : Bytes} {first : Batch C} (found : decode C front = .ok first)
    (back : Bytes) : decode C (front ++ back) = (decode C back).map first.append := by
  obtain ⟨entries, hentries, rfl⟩ := return_eq_ok_iff.mp found
  unfold decode
  rw [readEntries_append hentries]
  cases readEntries (C := C) back with
  | error fault => rfl
  | ok entries' =>
    change Except.ok (ofEntries (entries ++ entries')) = Except.ok _
    rw [ofEntries_append]

def join (batches : List (Batch C)) : Batch C := fun c => batches.flatMap (· c)

theorem decode_flatten {recordings : List Bytes} {batches : List (Batch C)}
    (found : List.Forall₂ (fun bytes batch => decode C bytes = .ok batch) recordings batches) :
    decode C recordings.flatten = .ok (join batches) := by
  induction found with
  | nil => rfl
  | cons first _ ih =>
    rw [List.flatten_cons, decode_append first, ih]
    rfl

variable (C) in
/-- Recordings of this surface can be joined, and cut again where a batch ends. -/
structure Concatenates : Prop where
  joined : ∀ {front back : Bytes} {first second : Batch C}, decode C front = .ok first →
    decode C back = .ok second → decode C (front ++ back) = .ok (first.append second)
  /-- The fault is the same, with its trail of fields. -/
  refused : ∀ {front back : Bytes} {first : Batch C} {fault : Fault}, decode C front = .ok first →
    decode C back = .error fault → decode C (front ++ back) = .error fault
  size : ∀ first second : Batch C, (first.append second).size = first.size + second.size
  all : ∀ {recordings : List Bytes} {batches : List (Batch C)},
    List.Forall₂ (fun bytes batch => decode C bytes = .ok batch) recordings batches →
      decode C recordings.flatten = .ok (join batches)
  cut : ∀ {front back : Bytes} {first whole : Batch C}, decode C front = .ok first →
    decode C (front ++ back) = .ok whole →
      ∃ second, decode C back = .ok second ∧ whole = first.append second

theorem concatenates : Concatenates C where
  joined hfront hback := by
    rw [decode_append hfront, hback]
    rfl
  refused hfront hback := by
    rw [decode_append hfront, hback]
    rfl
  size := size_append
  all := decode_flatten
  cut {front back first whole} hfront hwhole := by
    rw [decode_append hfront] at hwhole
    cases hback : decode C back with
    | error fault =>
      rw [hback] at hwhole
      cases hwhole
    | ok second =>
      rw [hback] at hwhole
      cases hwhole
      exact ⟨second, rfl, rfl⟩

end

/-- On both surfaces reading turns the joining of bytes into the joining of batches, and what is no
batch is refused behind a batch as it is refused alone. -/
theorem decode_homomorphism : Concatenates CoreCategory ∧ Concatenates AvCategory :=
  ⟨concatenates, concatenates⟩

/-- A batch is joined to another one, and to a record that is cut off. -/
theorem decode_homomorphism_samples :
    let names : CoreBatch := fun
      | .friendName => [⟨7, [0x68]⟩]
      | _ => []
    let typing : CoreBatch := fun
      | .friendName => [{}]
      | .friendTyping => [⟨7, true⟩]
      | _ => []
    let calls : AvBatch := fun
      | .call => [⟨9, true, false⟩]
      | _ => []
    let cutOff : Bytes := typing.encode.take 5
    let fault : Fault := ⟨.bufferUnderflow, [⟨"CoreEvents", "friend_typing"⟩]⟩
    decode CoreCategory (names.encode ++ typing.encode) = .ok (names.append typing) ∧
    (decode CoreCategory cutOff = .error fault ∧
      decode CoreCategory (names.encode ++ cutOff) = .error fault) ∧
    decode AvCategory [calls.encode, [], calls.encode].flatten =
      .ok (join [calls, fun _ => [], calls]) := by
  intro names typing calls cutOff fault
  have hnames : decode CoreCategory names.encode = .ok names :=
    decode_encode CoreCategory.lawful names (by decide +kernel)
  have htyping : decode CoreCategory typing.encode = .ok typing :=
    decode_encode CoreCategory.lawful typing (by decide +kernel)
  have hcalls : decode AvCategory calls.encode = .ok calls :=
    decode_encode AvCategory.lawful calls (by decide +kernel)
  have hcutOff : decode CoreCategory cutOff = .error fault := rfl
  obtain ⟨core, av⟩ := decode_homomorphism
  exact ⟨core.joined hnames htyping, ⟨hcutOff, core.refused hnames hcutOff⟩,
    av.all (.cons hcalls (.cons rfl (.cons hcalls .nil)))⟩

end ToxEvents.Batch
