import ToxEvents.Proofs.Replay.FullCounts
import ToxEvents.Proofs.Replay.Playing
set_option autoImplicit false

namespace ToxEvents
open Wire

def seenIn {C : Type} [DecidableEq C] [Surface C] (wrap : Entry C → Seen) (given : Option Bytes) :
    List Seen :=
  (given.bind fun bytes => (Batch.decode C bytes).toOption).elim [] fun batch =>
    batch.toEntries.map wrap

def Side.seen : Side → Option Bytes → List Seen
  | core => seenIn .core
  | av => seenIn .av

def Item.seen (item : Item) : List Seen := item.side.seen (batch item.bytes)

/-- A file that is played is a turn of its side, after which the next tick is announced. -/
theorem Item.turn_of_play {item : Item} {p next : Progress} (played : item.play p = .ok next) :
    ∃ tally, (item.side.turn (batch item.bytes) p.tally).run p.recorder =
      (.ok tally, next.recorder) ∧ next.tally = tally.nextBatch := by
  rw [← dispatch_eq]
  unfold play at played
  rcases hdispatch : item.dispatch p with ⟨rejection | tally, left⟩
  · rw [hdispatch] at played
    cases played
  · rw [hdispatch] at played
    cases played
    exact ⟨tally, rfl, rfl⟩

section
variable {holds : List (Nat × Seen) → Tally → Prop} {records : List (Nat × Seen)}
  {given : Option Bytes} {t last : Tally} {r left : Recorder}

theorem Handler.turn_obeys {C ε : Type} [DecidableEq C] [Surface C]
    {h : Handler C ε Recorder Tally} {wrap : Entry C → Seen} (logs : h.Logs wrap)
    (law : Tally.Law holds) (held : holds records t)
    (taken : (h.turn given t).run r = (.ok last, left)) :
    last.batch = t.batch ∧ holds (records ++ (seenIn wrap given).map (t.batch, ·)) last := by
  rcases turn_ok taken with ⟨rfl, rfl, rfl⟩ | ⟨bytes, batch, rfl, decoded, hfold⟩
  · exact ⟨rfl, (List.append_nil records).symm ▸ held⟩
  · obtain ⟨calls, handed⟩ := exists_handoff hfold
    obtain ⟨hbatch, hlast⟩ := handed.obeys logs law held
    refine ⟨hbatch, ?_⟩
    rw [seenIn, Option.bind_some, decoded]
    change holds (records ++ (batch.toEntries.map wrap).map _) last
    rw [List.map_map]
    exact hlast

theorem Side.turn_obeys {side : Side} (law : Tally.Law holds) (held : holds records t)
    (taken : (side.turn given t).run r = (.ok last, left)) :
    last.batch = t.batch ∧ holds (records ++ (side.seen given).map (t.batch, ·)) last := by
  cases side with
  | core => exact Handler.turn_obeys CoreListener.logs law held taken
  | av => exact Handler.turn_obeys AvListener.logs law held taken

end

namespace Playback

variable {holds : List (Nat × Seen) → Tally → Prop} {records : List (Nat × Seen)}
  {p next last : Progress} {item : Item} {given : List Item}

/-- The records of files that are played one after the other, each with the position of its file. -/
def recordsOf (first : Nat) (given : List Item) : List (Nat × Seen) :=
  (given.zipIdx first).flatMap fun (item, position) => item.seen.map (position, ·)

theorem recordsOf_cons (first : Nat) (item : Item) (given : List Item) :
    recordsOf first (item :: given) = item.seen.map (first, ·) ++ recordsOf (first + 1) given := by
  rw [recordsOf, List.zipIdx_cons, List.flatMap_cons, recordsOf]

theorem play_obeys (law : Tally.Law holds) (held : holds records p.tally)
    (played : item.play p = .ok next) :
    next.tally.batch = p.tally.batch + 1 ∧
      holds (records ++ item.seen.map (p.tally.batch, ·)) next.tally := by
  obtain ⟨tally, hturn, hnext⟩ := Item.turn_of_play played
  obtain ⟨hbatch, hlast⟩ := Side.turn_obeys law held hturn
  rw [hnext]
  exact ⟨congrArg (· + 1) hbatch, law.nextBatch hlast⟩

theorem foldlM_obeys (law : Tally.Law holds) (held : holds records p.tally)
    (played : given.foldlM Item.play p = .ok last) :
    last.tally.batch = p.tally.batch + given.length ∧
      holds (records ++ recordsOf p.tally.batch given) last.tally := by
  induction given generalizing p records with
  | nil =>
    cases played
    exact ⟨rfl, (List.append_nil records).symm ▸ held⟩
  | cons item given ih =>
    obtain ⟨next, hitem, hlater⟩ := bind_eq_ok played
    obtain ⟨hbatch, hnext⟩ := play_obeys law held hitem
    obtain ⟨hlast, hall⟩ := ih hnext hlater
    rw [hbatch] at hlast hall
    rw [List.append_assoc, ← recordsOf_cons] at hall
    exact ⟨by rw [hlast, List.length_cons, Nat.add_right_comm, Nat.add_assoc], hall⟩

theorem foldlM_accounts {settings : Settings}
    (played : given.foldlM Item.play (.start settings) = .ok last) :
    last.tally.Accounts settings.output.includeEvents (recordsOf 0 given) :=
  (foldlM_obeys (Tally.Accounts.law _) (.start _) played).2

/-- What a report says of the progress that the last file left, field by field. -/
structure Reports (generatedAt : String) (settings : Settings) (last : Progress)
    (report : Report) : Prop where
  generatedAt : report.generatedAt = generatedAt
  coreBatches : report.coreBatches = settings.coreFiles.length
  avBatches : report.avBatches = settings.avFiles.length
  totalEvents : report.totalEvents = (last.tally.counts.map Prod.snd).sum
  sorted : report.counts.Pairwise (·.1 < ·.1)
  /-- A category that has not come is there as well, with zero. -/
  counts : ∀ name, report.counts.lookup name =
    (last.tally.counts.lookup name).or (if name ∈ categoryNames then some 0 else none)
  friends : report.friends = last.tally.friends
  lastCallState : report.lastCallState = last.tally.lastCallState
  reused : report.reusedFrameBuffers = last.recorder.reused
  events : report.events = last.tally.events.map Array.toList

theorem reports_iff {generatedAt : String} {settings : Settings} {report : Report}
    (played : given.foldlM Item.play (.start settings) = .ok last) :
    Reports generatedAt settings last report ↔
      Report.ofTally generatedAt last.tally settings.coreFiles.length settings.avFiles.length
        last.recorder.reused = report := by
  have hlookup (name : String) : (Report.fullCounts last.tally.counts).lookup name = _ :=
    Report.lookup_fullCounts (CountTable.nodup_names (foldlM_accounts played).names)
  constructor
  · intro reports
    obtain ⟨generatedAt', coreBatches, avBatches, total, counts, friends, mask, reused, events⟩ :=
      report
    obtain ⟨rfl, rfl, rfl, rfl, ordered, hcounts, rfl, rfl, rfl, rfl⟩ := reports
    have hfull : Report.fullCounts last.tally.counts = counts :=
      CountTable.eq_of_lookup (Report.pairwise_fullCounts _) ordered fun name =>
        (hlookup name).trans (hcounts name).symm
    rw [Report.ofTally, hfull]
    rfl
  · rintro rfl
    exact {
      generatedAt := rfl
      coreBatches := rfl
      avBatches := rfl
      totalEvents := rfl
      sorted := Report.pairwise_fullCounts _
      counts := hlookup
      friends := rfl
      lastCallState := rfl
      reused := rfl
      events := rfl }

end Playback

end ToxEvents
