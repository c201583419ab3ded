import Mathlib.Data.List.Forall2
import ToxEvents.Proofs.Json.RoundTrip
import ToxEvents.Replay.Report
set_option autoImplicit false

namespace ToxEvents

namespace Json

variable {α : Type} {read : Json → Option α} {write : α → Json}

def member? (name : String) : Json → Option Json
  | object members => members.lookup name
  | _ => none

def nat? : Json → Option Nat
  | int n => n.toNat?
  | _ => none

def word? (json : Json) : Option UInt32 := do
  let n ← json.nat?
  if n < UInt32.size then return UInt32.ofNat n else none

def text? : Json → Option String
  | string text => some text
  | _ => none

def items? (read : Json → Option α) : Json → Option (List α)
  | array items => items.mapM read
  | _ => none

def entries? (read : Json → Option α) : Json → Option (List (String × α))
  | object members => members.mapM fun (name, json) => (read json).map (name, ·)
  | _ => none

def orNull? (read : Json → Option α) : Json → Option (Option α)
  | null => some none
  | json => (read json).map some

theorem nat?_ofNat (n : Nat) : (ofNat n).nat? = some n := rfl

theorem word?_ofNat (n : UInt32) : (ofNat n.toNat).word? = some n := by
  have hsize := n.toNat_lt_size
  simp [word?, nat?_ofNat, hsize]

theorem items?_map (inverse : ∀ a, read (write a) = some a) (as : List α) :
    (array (as.map write)).items? read = some as :=
  mapM_inverse read write inverse as

theorem entries?_map (inverse : ∀ a, read (write a) = some a) (entries : List (String × α)) :
    (object (entries.map fun (name, a) => (name, write a))).entries? read = some entries := by
  refine mapM_inverse _ _ (fun entry => ?_) entries
  simp [inverse]

theorem orNull?_ofOption (inverse : ∀ a, read (write a) = some a) (filled : ∀ a, write a ≠ null)
    (a : Option α) : (ofOption write a).orNull? read = some a := by
  cases a with
  | none => rfl
  | some a =>
    have hwrite := filled a
    change (write a).orNull? read = some (some a)
    rw [orNull?.eq_def]
    split
    case h_1 hnull => exact absurd hnull hwrite
    case h_2 => rw [inverse, Option.map_some]

theorem ofOption_eq_null_iff (filled : ∀ a, write a ≠ null) (a : Option α) :
    ofOption write a = null ↔ a = none := by
  cases a with
  | none => simp [ofOption]
  | some a => simp [ofOption, filled a]

theorem ofNat_ne_null (n : Nat) : ofNat n ≠ null := nofun

end Json

def EventRecord.ofJson? (json : Json) : Option EventRecord := do
  return {
    batch := ← (← json.member? "batch").nat?
    category := ← (← json.member? "category").text?
    friend := ← (← json.member? "friend").orNull? Json.word?
    detail := ← (← json.member? "detail").text? }

theorem EventRecord.ofJson?_eventJson (e : EventRecord) :
    ofJson? (Report.eventJson e) = some e := by
  have hfriend := Json.orNull?_ofOption Json.word?_ofNat
    (fun f => Json.ofNat_ne_null f.toNat) e.friend
  simp [ofJson?, Report.eventJson, Json.member?, List.lookup_cons, hfriend, Json.nat?_ofNat,
    Json.text?]

namespace Report

variable {r : Report}

/-- A report from its fields; events that are not there were not kept. -/
def ofJson? (json : Json) : Option Report := do
  return {
    generatedAt := ← (← json.member? "generated_at").text?
    coreBatches := ← (← json.member? "core_batches").nat?
    avBatches := ← (← json.member? "av_batches").nat?
    totalEvents := ← (← json.member? "total_events").nat?
    counts := ← (← json.member? "counts").entries? Json.nat?
    friends := ← (← json.member? "friends").items? Json.word?
    lastCallState := ← (← json.member? "last_call_state").orNull? Json.word?
    reusedFrameBuffers := ← (← json.member? "reused_frame_buffers").nat?
    events := ← match json.member? "events" with
      | none => some none
      | some events => (events.items? EventRecord.ofJson?).map some }

theorem ofJson?_json (r : Report) : ofJson? r.json = some r := by
  have hcounts := Json.entries?_map Json.nat?_ofNat r.counts
  have hfriends := Json.items?_map Json.word?_ofNat r.friends
  have hstate := Json.orNull?_ofOption Json.word?_ofNat
    (fun mask => Json.ofNat_ne_null mask.toNat) r.lastCallState
  have hevents (events : List EventRecord) :=
    Json.items?_map EventRecord.ofJson?_eventJson events
  cases r with
  | mk generatedAt coreBatches avBatches totalEvents counts friends lastCallState reused events =>
    cases events <;>
      simp [ofJson?, json, Json.member?, List.lookup_cons, hcounts, hfriends, hstate, hevents,
        Json.nat?_ofNat, Json.text?]

theorem plain_ofNat (n : Nat) : (Json.ofNat n).Plain := .int n

theorem plain_ofOption {α : Type} {write : α → Json} (plain : ∀ a, (write a).Plain) (a : Option α) :
    (Json.ofOption write a).Plain := by
  cases a with
  | none => exact .null
  | some a => exact plain a

theorem plain_eventJson (e : EventRecord) : (eventJson e).Plain := by
  have hfriend : (Json.ofOption (fun f : UInt32 => .ofNat f.toNat) e.friend).Plain :=
    plain_ofOption (fun f => plain_ofNat f.toNat) e.friend
  refine .object ?_
  simp only [List.forall_mem_cons]
  exact ⟨plain_ofNat _, .string _, hfriend, .string _, List.forall_mem_nil _⟩

theorem plain_json (r : Report) : r.json.Plain := by
  have hcounts : (Json.object (r.counts.map fun entry => (entry.1, .ofNat entry.2))).Plain :=
    .object (List.forall_mem_map.mpr fun entry _ => plain_ofNat entry.2)
  have hfriends : (Json.array (r.friends.map fun f => .ofNat f.toNat)).Plain :=
    .array (List.forall_mem_map.mpr fun f _ => plain_ofNat f.toNat)
  have hstate : (Json.ofOption (fun mask : UInt32 => .ofNat mask.toNat) r.lastCallState).Plain :=
    plain_ofOption (fun mask => plain_ofNat mask.toNat) r.lastCallState
  refine .object ?_
  simp only [List.forall_mem_append, List.forall_mem_cons]
  refine ⟨⟨.string _, plain_ofNat _, plain_ofNat _, plain_ofNat _, hcounts, hfriends, hstate,
    plain_ofNat _, List.forall_mem_nil _⟩, ?_⟩
  cases r.events with
  | none => exact List.forall_mem_nil _
  | some events =>
    have hevents : (Json.array (events.map eventJson)).Plain :=
      .array (List.forall_mem_map.mpr fun e _ => plain_eventJson e)
    exact List.forall_mem_singleton.mpr hevents

theorem read?_json (r : Report) : Json.read? (r.render .json).toList = some r.json :=
  Json.read?_render r.plain_json

theorem render_json_injective {r other : Report} (same : other.render .json = r.render .json) :
    other = r := by
  have hjson : some other.json = some r.json := by rw [← read?_json, ← read?_json, same]
  have hvalue := other.ofJson?_json
  rw [Option.some.inj hjson, ofJson?_json] at hvalue
  exact (Option.some.inj hvalue).symm

def fieldNames : List String :=
  ["generated_at", "core_batches", "av_batches", "total_events", "counts", "friends",
    "last_call_state", "reused_frame_buffers"]

/-- The fields of an event in their order, and one that may be missing. -/
structure EventTold (e : EventRecord) (item : Json) : Prop where
  names : ∃ members, item = .object members ∧
    members.map Prod.fst = ["batch", "category", "friend", "detail"]
  friend : item.member? "friend" = some .null ↔ e.friend = none

/-- What the members of an object tell of a report. -/
structure Told (r : Report) (members : List (String × Json)) : Prop where
  names : members.map Prod.fst = fieldNames ++ if r.events.isSome then ["events"] else []
  values : ofJson? (.object members) = some r
  counts : ∃ counts, members.lookup "counts" = some (.object counts) ∧
    counts.map Prod.fst = r.counts.map Prod.fst ∧ (counts.map Prod.fst).Pairwise (· < ·)
  callState : members.lookup "last_call_state" = some .null ↔ r.lastCallState = none
  events : ∀ events, r.events = some events → ∃ items,
    members.lookup "events" = some (.array items) ∧ List.Forall₂ EventTold events items

theorem told_counts (sorted : r.counts.Pairwise (·.1 < ·.1)) :
    ∃ counts, r.json.member? "counts" = some (.object counts) ∧
      counts.map Prod.fst = r.counts.map Prod.fst ∧ (counts.map Prod.fst).Pairwise (· < ·) := by
  have hnames : (r.counts.map fun entry => (entry.1, Json.ofNat entry.2)).map Prod.fst =
      r.counts.map Prod.fst := by simp
  exact ⟨_, rfl, hnames, hnames ▸ List.pairwise_map.mpr sorted⟩

theorem told_callState (r : Report) :
    r.json.member? "last_call_state" = some .null ↔ r.lastCallState = none := by
  have hnull := Json.ofOption_eq_null_iff (fun mask : UInt32 => Json.ofNat_ne_null mask.toNat)
    r.lastCallState
  rw [← hnull]
  exact Option.some_inj

theorem told_event (e : EventRecord) : EventTold e (eventJson e) where
  names := ⟨_, rfl, rfl⟩
  friend := by
    have hnull := Json.ofOption_eq_null_iff (fun f : UInt32 => Json.ofNat_ne_null f.toNat) e.friend
    rw [← hnull]
    exact Option.some_inj

/-- The text of a report as JSON is one object that tells all of the report, so no other report has
this text. -/
theorem render_json_lossless (r : Report) (sorted : r.counts.Pairwise (·.1 < ·.1)) :
    ∃ members, Json.read? (r.render .json).toList = some (.object members) ∧ r.Told members ∧
      ∀ other : Report, other.render .json = r.render .json → other = r := by
  refine ⟨_, r.read?_json, ?_, fun _ => render_json_injective⟩
  exact {
    names := by cases r.events <;> rfl
    values := r.ofJson?_json
    counts := told_counts sorted
    callState := r.told_callState
    events := by
      intro events kept
      rw [kept]
      refine ⟨events.map eventJson, rfl, ?_⟩
      exact List.forall₂_map_right_iff.mpr (List.forall₂_same.mpr fun e _ => told_event e) }

def awkward : Report where
  generatedAt := "<time>"
  coreBatches := 1
  avBatches := 0
  totalEvents := 18446744073709551615
  counts := [("", 0), ("line\nbreak", 2), ("quote\"", 1)]
  friends := []
  lastCallState := none
  reusedFrameBuffers := 0
  events := some
    [⟨0, "back\\slash", none, "\t\r\x08\x0c\x00\x1f"⟩, ⟨1, "", some 4294967295, "ü"⟩]

theorem render_json_lossless_awkward :
    awkward.counts.Pairwise (·.1 < ·.1) ∧
      ∃ members, Json.read? (awkward.render .json).toList = some (.object members) ∧
        awkward.Told members := by
  have hsorted : awkward.counts.Pairwise (·.1 < ·.1) := by decide
  obtain ⟨members, hread, told, -⟩ := render_json_lossless awkward hsorted
  exact ⟨hsorted, members, hread, told⟩

end Report

end ToxEvents
