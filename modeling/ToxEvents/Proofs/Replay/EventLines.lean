import ToxEvents.Proofs.Batch.RoundTrip
import ToxEvents.Proofs.Replay.Provenance
import ToxEvents.Proofs.Replay.TextReport
import ToxEvents.Proofs.Text.LineFeeds
set_option autoImplicit false

namespace ToxEvents
open Wire Text

@[simp]
theorem feeds_uint32 (n : UInt32) : feeds (toString n) = 0 := feeds_repr n.toNat

@[simp]
theorem feeds_uint64 (n : UInt64) : feeds (toString n) = 0 := feeds_repr n.toNat

theorem feeds_int (n : Int) : feeds (toString n) = 0 := by
  cases n with
  | ofNat n => exact feeds_repr n
  | negSucc n =>
    change feeds ("-" ++ (n + 1).repr) = 0
    rw [feeds_append, feeds_repr]
    rfl

@[simp]
theorem feeds_int32 (n : Int32) : feeds (toString n) = 0 := feeds_int n.toInt

@[simp]
theorem feeds_bool (b : Bool) : feeds (toString b) = 0 := by cases b <;> rfl

@[simp]
theorem Number.feeds_text {kind : NumberKind} (n : Number kind) : feeds n.text = 0 :=
  feeds_uint32 n.value

@[simp]
theorem PublicKey.feeds_text (key : PublicKey) : feeds key.text = 0 := by
  have hdigit : ∀ d < 16, upperHexDigit d ≠ '\n' := by decide
  rw [feeds_eq_zero_iff, text, String.toList_ofList]
  intro member
  obtain ⟨b, -, hb⟩ := List.mem_flatMap.mp member
  have hlt := b.toNat_lt
  have hfirst := hdigit (b.toNat / 16) (by omega)
  have hsecond := hdigit (b.toNat % 16) (by omega)
  simp [upperHexByte, hfirst.symm, hsecond.symm] at hb

@[simp]
theorem FileKind.feeds_text (kind : FileKind) : feeds kind.text = 0 := by
  unfold text
  split
  · rfl
  split
  · rfl
  · simp +decide

theorem Enumeration.feeds_text : (∀ c : Connection, feeds (text c) = 0) ∧
    (∀ s : UserStatus, feeds (text s) = 0) ∧ (∀ k : MessageType, feeds (text k) = 0) ∧
    ∀ c : FileControl, feeds (text c) = 0 := by
  refine ⟨?_, ?_, ?_, ?_⟩ <;> intro e <;> cases e <;> decide +kernel

def CoreEvent.speech : CoreEvent → Bytes
  | friendName _ name => name.bytes
  | friendStatusMessage _ message => message.bytes
  | friendRequest _ _ message => message.bytes
  | friendMessage _ _ _ message => message.bytes
  | fileOffer _ _ _ _ name => name.bytes
  | _ => []

theorem CoreEvent.feeds_detail (event : CoreEvent) :
    feeds event.detail = event.speech.count 10 := by
  have hplain {text : String} (plain : '\n' ∉ text.toList) : feeds text = 0 :=
    feeds_eq_zero_iff.mpr plain
  cases event <;> dsimp only [detail, speech]
  case friendTyping typing => cases typing <;> rfl
  all_goals simp +decide [Enumeration.feeds_text, hplain]

theorem AvEvent.feeds_detail (event : AvEvent) : feeds event.detail = 0 := by
  cases event <;> dsimp only [detail] <;> simp +decide

namespace Seen

/-- The text that the event of a record carries. -/
def speech : Seen → Bytes
  | core entry => (CoreEvent.ofRecord entry.1 entry.2).toOption.elim [] CoreEvent.speech
  | av _ => []

theorem feeds_detail (seen : Seen) : feeds seen.detail = seen.speech.count 10 := by
  cases seen with
  | core entry =>
    change feeds ((CoreEvent.ofRecord entry.1 entry.2).toOption.elim "" CoreEvent.detail) =
      ((CoreEvent.ofRecord entry.1 entry.2).toOption.elim [] CoreEvent.speech).count 10
    cases CoreEvent.ofRecord entry.1 entry.2 with
    | error rejection => rfl
    | ok event => exact event.feeds_detail
  | av entry =>
    change feeds ((AvEvent.ofRecord none entry.1 entry.2).toOption.elim "" AvEvent.detail) = 0
    cases AvEvent.ofRecord none entry.1 entry.2 with
    | error rejection => rfl
    | ok event => exact event.feeds_detail

theorem feeds_category (seen : Seen) : feeds seen.category = 0 :=
  categoryNames_whole _ seen.category_mem

end Seen

namespace Report

theorem feeds_eventLine (e : EventRecord) :
    feeds (eventLine e) = feeds e.category + feeds e.detail := by
  have hplain {text : String} (plain : '\n' ∉ text.toList) : feeds text = 0 :=
    feeds_eq_zero_iff.mpr plain
  unfold eventLine
  cases e.friend <;> simp +decide [hplain]

theorem feeds_logged (record : Nat × Seen) :
    feeds (eventLine (record.2.logged record.1)) = record.2.speech.count 10 := by
  have hline := feeds_eventLine (record.2.logged record.1)
  change _ = feeds record.2.category + feeds record.2.detail at hline
  rw [hline, record.2.feeds_category, record.2.feeds_detail, Nat.zero_add]

def loggedLines (records : List (Nat × Seen)) : List String :=
  records.flatMap fun record => pieces (eventLine (record.2.logged record.1))

theorem length_loggedLines (records : List (Nat × Seen)) : (loggedLines records).length =
    records.length + (records.map fun record => record.2.speech.count 10).sum := by
  induction records with
  | nil => rfl
  | cons record records ih =>
    have hrecord : (pieces (eventLine (record.2.logged record.1))).length =
        record.2.speech.count 10 + 1 := by
      rw [length_pieces, feeds_logged]
    unfold loggedLines at ih ⊢
    rw [List.flatMap_cons, List.length_append, List.length_cons, List.map_cons, List.sum_cons]
    omega

theorem loggedLines_eq_iff (records : List (Nat × Seen)) :
    (loggedLines records = records.map fun record => eventLine (record.2.logged record.1)) ↔
      ∀ record ∈ records, 10 ∉ record.2.speech := by
  constructor
  -- Equal lists are of one length, which leaves no line feed to be counted.
  · intro same record member broken
    have hcount : 0 < record.2.speech.count 10 := List.count_pos_iff.mpr broken
    have hsum : 0 < (records.map fun record => record.2.speech.count 10).sum :=
      List.sum_pos_iff_exists_pos_nat.mpr ⟨_, List.mem_map_of_mem member, hcount⟩
    have hlength := congrArg List.length same
    rw [length_loggedLines, List.length_map] at hlength
    omega
  · intro whole
    have hlines : ∀ line ∈ records.map fun record => eventLine (record.2.logged record.1),
        feeds line = 0 := by
      refine List.forall_mem_map.mpr fun record member => ?_
      rw [feeds_logged]
      exact List.count_eq_zero.mpr (whole record member)
    have hpieces := flatMap_pieces hlines
    rw [List.flatMap_map] at hpieces
    exact hpieces

end Report

theorem Tally.start_law : Tally.Law fun records t =>
    t.log = some (records.map fun record => record.2.logged record.1) where
  see {records t} seen logged := by
    rw [log_see, logged]
    simp
  nextBatch logged := logged

namespace Meeting

variable {β : Type}

/-- Behind its heading the section of events has a line for each event and one more for each line
feed in the text that the event carries. So each event has the one line that is its own exactly if
no text has a line feed. -/
theorem event_lines (hub : Hub β) (listener : Recorder) (given : List Feed)
    (seconds coreBatches avBatches reused : Nat) :
    let start : Meeting β Recorder Tally := { hub, listener, state := Tally.start true }
    let told := records (start.ledger given 0)
    let r := Report.ofTally (Calendar.stamp seconds) (start.fed given).state coreBatches avBatches
      reused
    let events := behindBlock (behindBlock (Text.lines (r.render .txt)))
    r.events = some (told.map fun record => record.2.logged record.1) ∧
      events.take 2 = ["Events", Report.rule] ∧
      events.drop 2 = Report.loggedLines told ∧
      (events.drop 2).length =
        told.length + (told.map fun record => record.2.speech.count 10).sum ∧
      ((events.drop 2 = told.map fun record => Report.eventLine (record.2.logged record.1)) ↔
        ∀ record ∈ told, 10 ∉ record.2.speech) := by
  intro start told r events
  have hstart : start.state.log = some
      ([].map fun record : Nat × Seen => record.2.logged record.1) := rfl
  have hlog : r.events = some (told.map fun record => record.2.logged record.1) :=
    (fed_obeys Tally.start_law hstart given).2
  have hevents : events = "Events" :: Report.rule :: Report.loggedLines told := by
    have hsection : events = r.eventBlock := Report.behind_table (Calendar.feeds_stamp seconds)
    rw [hsection, Report.eventBlock, hlog, Option.elim_some, List.flatMap_map]
    rfl
  rw [hevents]
  exact ⟨hlog, rfl, rfl, Report.length_loggedLines told, Report.loggedLines_eq_iff told⟩

theorem fed_name (m : Meeting β Recorder Tally) {bytes : Bytes} {record : Raw.FriendName}
    (decoded : Batch.decode CoreCategory bytes = .ok (Batch.ofEntries [⟨.friendName, record⟩])) :
    (m.fed [.core (some bytes)]).state = m.state.see (.core ⟨.friendName, record⟩)
      (CoreEvent.friendName ⟨record.friend⟩ ⟨record.name⟩).detail := by
  have hturn : (Side.core.turn (some bytes) m.state).run m.listener =
      (.ok (m.state.see (.core ⟨.friendName, record⟩)
        (CoreEvent.friendName ⟨record.friend⟩ ⟨record.name⟩).detail), m.listener) := by
    rw [Side.turn, Handler.turn_of_decoded decoded]
    rfl
  obtain ⟨log, hreceive⟩ := receive_of_ok m.hub (Side.core.does (some bytes) m.state) hturn
  change (m.receive Side.core.pass (.ok (some bytes), m.hub)).2.state = _
  rw [hreceive]

def forged : Raw.FriendName where
  friend := 1
  name := Utf8.encode "Eve\"\n[   0] friend_name              friend 2   name \"Bob".toList

theorem forged_lines {r : Report} (dated : feeds r.generatedAt = 0)
    (logged : r.events = some [⟨0, "friend_name", some forged.friend,
      (CoreEvent.friendName ⟨forged.friend⟩ ⟨forged.name⟩).detail⟩]) :
    (behindBlock (behindBlock (Text.lines (r.render .txt)))).drop 2 =
      [Report.eventLine ⟨0, "friend_name", some 1, "name \"Eve\""⟩,
        Report.eventLine ⟨0, "friend_name", some 2, "name \"Bob\""⟩] := by
  rw [Report.render, Report.behind_table dated, Report.eventBlock, logged, Option.elim_some]
  decide +kernel

/-- One event of friend 1 makes two lines, of which the second is that of an event of friend 2. -/
theorem event_lines_forged :
    let batch : CoreBatch := Batch.ofEntries [⟨.friendName, forged⟩]
    let start : Meeting Script Recorder Tally :=
      { listener := { reuses := true }, state := Tally.start true }
    let r := Report.ofTally (Calendar.stamp 0) (start.fed [.core (some batch.encode)]).state 1 0 0
    let events := behindBlock (behindBlock (Text.lines (r.render .txt)))
    r.totalEvents = 1 ∧ r.friends = [1] ∧
      events.drop 2 =
        [Report.eventLine ⟨0, "friend_name", some 1, "name \"Eve\""⟩,
          Report.eventLine ⟨0, "friend_name", some 2, "name \"Bob\""⟩] := by
  intro batch start
  have decoded : Batch.decode CoreCategory batch.encode = .ok batch :=
    Batch.decode_encode CoreCategory.lawful batch (by decide +kernel)
  rw [fed_name start decoded]
  exact ⟨rfl, rfl, forged_lines (Calendar.feeds_stamp 0) rfl⟩

end Meeting

end ToxEvents
