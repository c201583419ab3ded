import ToxEvents.Batch.Category
import ToxEvents.Json.Basic
import ToxEvents.Replay.Tally
set_option autoImplicit false

namespace ToxEvents

inductive ReportFormat where
  | txt
  | json
deriving DecidableEq, Repr

structure Report where
  generatedAt : String
  coreBatches : Nat
  avBatches : Nat
  totalEvents : Nat
  /-- By name, with every category. -/
  counts : List (String × Nat)
  friends : List UInt32
  lastCallState : Option UInt32
  reusedFrameBuffers : Nat
  events : Option (List EventRecord)
deriving DecidableEq, Repr

/-- Every category's name, in the order of delivery, the core surface first. -/
def categoryNames : List String :=
  CoreCategory.all.map CoreCategory.name ++ AvCategory.all.map AvCategory.name

def putCount (name : String) (n : Nat) : List (String × Nat) → List (String × Nat)
  | [] => [(name, n)]
  | (other, m) :: rest =>
    if name = other then (other, n) :: rest
    else if name < other then (name, n) :: (other, m) :: rest
    else (other, m) :: putCount name n rest

namespace Report

/-- The counts of a tally, and zero for categories that have not come. -/
def fullCounts (counts : List (String × Nat)) : List (String × Nat) :=
  let zeros := categoryNames.foldl (fun table name => putCount name 0 table) []
  counts.foldl (fun table (name, n) => putCount name n table) zeros

def ofTally (generatedAt : String) (tally : Tally) (coreBatches avBatches reused : Nat) :
    Report where
  generatedAt
  coreBatches
  avBatches
  totalEvents := tally.total
  counts := fullCounts tally.counts
  friends := tally.friends
  lastCallState := tally.lastCallState
  reusedFrameBuffers := reused
  events := tally.events.map Array.toList

def rule : String := String.ofList (List.replicate 47 (Char.ofNat 0x2500))

def countLine (name : String) (count : String) : String :=
  Text.padRight 28 name ++ " " ++ Text.padLeft 10 ' ' count

def countOf (r : Report) (name : String) : Nat := (r.counts.lookup name).getD 0

def eventLine (e : EventRecord) : String :=
  let friend := match e.friend with
    | some f => s!"friend {f}"
    | none => "-"
  "[" ++ Text.padLeft 4 ' ' (toString e.batch) ++ "] " ++ Text.padRight 24 e.category ++ " "
    ++ Text.padRight 10 friend ++ " " ++ e.detail

def headLines (r : Report) : List String :=
  ["Tox Event Replay Report",
    s!"Generated: {r.generatedAt}",
    rule,
    s!"Core batches:  {r.coreBatches}",
    s!"AV batches:    {r.avBatches}",
    s!"Total events:  {r.totalEvents}",
    s!"Friends seen:  {r.friends.length}"]

def callStateLines (r : Report) : List String :=
  match r.lastCallState with
  | none => []
  | some mask =>
    ["Call state:    " ++ Text.binary 6 mask.toNat ++ " " ++ (CallFlags.ofMask mask).described]

def reusedLines (r : Report) : List String :=
  if 0 < r.reusedFrameBuffers then [s!"Reused frames: {r.reusedFrameBuffers}"] else []

def countLines (r : Report) : List String :=
  categoryNames.map fun name => countLine name (toString (r.countOf name))

def eventLines (r : Report) : List String :=
  match r.events with
  | none => []
  | some events => ["", "Events", rule] ++ events.map eventLine

def lines (r : Report) : List String :=
  r.headLines ++ r.callStateLines ++ r.reusedLines
    ++ ["", countLine "Category" "Events", rule] ++ r.countLines ++ r.eventLines

def text (r : Report) : String := String.join (r.lines.map (· ++ "\n"))

def eventJson (e : EventRecord) : Json :=
  .object [
    ("batch", .ofNat e.batch),
    ("category", .string e.category),
    ("friend", .ofOption (fun f => .ofNat f.toNat) e.friend),
    ("detail", .string e.detail)]

/-- Events are left out if they were not kept. -/
def json (r : Report) : Json :=
  .object ([
    ("generated_at", .string r.generatedAt),
    ("core_batches", .ofNat r.coreBatches),
    ("av_batches", .ofNat r.avBatches),
    ("total_events", .ofNat r.totalEvents),
    ("counts", .object (r.counts.map fun (name, n) => (name, .ofNat n))),
    ("friends", .array (r.friends.map fun f => .ofNat f.toNat)),
    ("last_call_state", .ofOption (fun mask => .ofNat mask.toNat) r.lastCallState),
    ("reused_frame_buffers", .ofNat r.reusedFrameBuffers)]
    ++ match r.events with
      | none => []
      | some events => [("events", .array (events.map eventJson))])

def render (format : ReportFormat) (r : Report) : String :=
  match format with
  | .txt => r.text
  | .json => r.json.render

end Report

end ToxEvents
