import ToxEvents.Replay.Recorder
import ToxEvents.Session.Meeting
import ToxEvents.Proofs.Delivery.SingleFold
import ToxEvents.Proofs.Replay.Tallying
set_option autoImplicit false

namespace ToxEvents
open Wire

theorem CoreEvent.friend_ofRecord {c : CoreCategory} {record : c.Rec} {event : CoreEvent}
    (made : ofRecord c record = .ok event) :
    event.friend?.map Number.value = c.friendOf record := by
  cases c
  case selfConnectionStatus | friendStatus | friendConnectionStatus | friendRequest |
      friendMessage | fileControl =>
    obtain ⟨x, -, rfl⟩ := return_eq_ok_iff.mp made
    rfl
  all_goals
    cases made
    rfl

theorem AvEvent.friend_ofRecord {offered : Option FrameBuffers} {c : AvCategory} {record : c.Rec}
    {event : AvEvent} (made : ofRecord offered c record = .ok event) :
    event.friend.value = c.friendOf record := by
  cases c
  case callState | audioFrame | videoFrame =>
    obtain ⟨x, -, rfl⟩ := return_eq_ok_iff.mp made
    rfl
  all_goals
    cases made
    rfl

/-- Counting an event is seeing its record, but for the call state. -/
theorem Tally.record_eq_see (seen : Seen) {category : String} {friend : Option FriendNumber}
    (same : category = seen.category) (named : friend.map Number.value = seen.friend?)
    (detail : Unit → String) (t : Tally) :
    t.record category friend detail =
      { t.see seen (detail ()) with lastCallState := t.lastCallState } := by
  subst category
  unfold record see
  rw [← named]
  cases friend <;> rfl

namespace Recorder

theorem onCore_see {entry : Entry CoreCategory} {event : CoreEvent}
    (made : CoreEvent.ofRecord entry.1 entry.2 = .ok event) (t : Tally) (r : Recorder) :
    (onCore event t r).1 = t.see (.core entry) event.detail := by
  have hcategory := congrArg CoreCategory.name (CoreEvent.category_ofRecord made)
  have hfriend := CoreEvent.friend_ofRecord made
  exact Tally.record_eq_see (.core entry) hcategory hfriend (fun _ => event.detail) t

theorem onAv_fst (event : AvEvent) (t : Tally) (r : Recorder) :
    (onAv event t r).1 = tallyAv event t := by
  cases event <;> rfl

theorem onAv_see {offered : Option FrameBuffers} {entry : Entry AvCategory} {event : AvEvent}
    (made : AvEvent.ofRecord offered entry.1 entry.2 = .ok event) (t : Tally) (r : Recorder) :
    (onAv event t r).1 = t.see (.av entry) event.detail := by
  have hcategory := congrArg AvCategory.name (AvEvent.category_ofRecord made)
  have hfriend : (some event.friend).map Number.value = Seen.friend? (.av entry) :=
    congrArg some (AvEvent.friend_ofRecord made)
  have hrecord := Tally.record_eq_see (.av entry) hcategory hfriend (fun _ => event.detail) t
  rw [onAv_fst]
  unfold tallyAv
  rw [hrecord]
  obtain ⟨c, record⟩ := entry
  cases c
  case callState =>
    obtain ⟨flags, hflags, rfl⟩ := return_eq_ok_iff.mp made
    have hmask : Seen.mask? (.av ⟨.callState, record⟩) = some flags.mask := by
      rw [Seen.mask?, hflags]
      rfl
    unfold Tally.see
    rw [hmask]
    rfl
  case audioFrame | videoFrame =>
    obtain ⟨x, -, rfl⟩ := return_eq_ok_iff.mp made
    rfl
  all_goals
    cases made
    rfl

theorem reuses_onAv (event : AvEvent) (t : Tally) (r : Recorder) :
    (onAv event t r).2.reuses = r.reuses := by
  cases event with
  | videoFrame friend frame =>
    change (keep frame r).reuses = _
    unfold keep
    split <;> rfl
  | _ => rfl

theorem translate_plain {entry : Entry AvCategory} {event : AvEvent}
    (made : AvEvent.ofRecord none entry.1 entry.2 = .ok event) {r : Recorder}
    (plain : r.reuses = false ∨ entry.1 ≠ .videoFrame) :
    (avListener.handler.translate entry).run r = (.ok event, r) := by
  have hoffer : avListener.offer entry r = (none, r) := by
    obtain ⟨c, record⟩ := entry
    cases c
    case videoFrame =>
      have hreuses := plain.resolve_right (not_not_intro rfl)
      change offer _ r = _
      simp [offer, hreuses]
    all_goals rfl
  change (AvEvent.ofRecord (avListener.offer entry r).1 entry.1 entry.2,
    (avListener.offer entry r).2) = _
  rw [hoffer, made]

end Recorder

namespace Seen

/-- What is told of a record, whatever buffers are offered for it. -/
def detail : Seen → String
  | core entry => (CoreEvent.ofRecord entry.1 entry.2).toOption.elim "" CoreEvent.detail
  | av entry => (AvEvent.ofRecord none entry.1 entry.2).toOption.elim "" AvEvent.detail

def logged (position : Nat) (seen : Seen) : EventRecord :=
  ⟨position, seen.category, seen.friend?, seen.detail⟩

theorem detail_core {entry : Entry CoreCategory} {event : CoreEvent}
    (made : CoreEvent.ofRecord entry.1 entry.2 = .ok event) :
    detail (.core entry) = event.detail := by
  rw [detail, made]
  rfl

theorem detail_av {offered : Option FrameBuffers} {entry : Entry AvCategory} {event : AvEvent}
    (made : AvEvent.ofRecord offered entry.1 entry.2 = .ok event) :
    detail (.av entry) = event.detail := by
  obtain ⟨c, record⟩ := entry
  cases c
  case videoFrame =>
    obtain ⟨planes, -, rfl⟩ := return_eq_ok_iff.mp made
    rfl
  all_goals
    change AvEvent.ofRecord none _ record = .ok event at made
    rw [detail, made]
    rfl

end Seen

/-- What is said of a list of records and of a tally stays true with every record that the tally
sees and with every tick. -/
structure Tally.Law (holds : List (Nat × Seen) → Tally → Prop) : Prop where
  see : ∀ {records : List (Nat × Seen)} {t : Tally} (seen : Seen), holds records t →
    holds (records ++ [(t.batch, seen)]) (t.see seen seen.detail)
  nextBatch : ∀ {records : List (Nat × Seen)} {t : Tally},
    holds records t → holds records t.nextBatch

theorem Tally.Accounts.law (keeps : Bool) :
    Tally.Law fun records t => t.Accounts keeps records where
  see seen accounts := accounts.see seen seen.detail
  nextBatch := Tally.Accounts.nextBatch

section
variable {C ε : Type} [DecidableEq C] [Surface C] {h : Handler C ε Recorder Tally}
  {wrap : Entry C → Seen} {holds : List (Nat × Seen) → Tally → Prop}

def Handler.Logs (h : Handler C ε Recorder Tally) (wrap : Entry C → Seen) : Prop :=
  ∀ {entry : Entry C} {event : ε} {r mid : Recorder} (t : Tally),
    (h.translate entry).run r = (.ok event, mid) →
      (h.invoke event t mid).1 = t.see (wrap entry) (wrap entry).detail

theorem Handler.Handoff.obeys (logs : h.Logs wrap) (law : Tally.Law holds)
    {entries : List (Entry C)} {t last : Tally} {r left : Recorder}
    {calls : List (Invocation ε Tally)} {records : List (Nat × Seen)}
    (handed : h.Handoff entries t r calls last left)
    (held : holds records t) :
    last.batch = t.batch ∧
      holds (records ++ entries.map fun entry => (t.batch, wrap entry)) last := by
  induction handed generalizing records with
  | nil => exact ⟨rfl, by rwa [List.map_nil, List.append_nil]⟩
  | @cons entry entries event t answer last r mid after left calls translated _ answered _ ih =>
    have hanswer := logs t translated
    rw [answered] at hanswer
    obtain rfl : answer = t.see (wrap entry) (wrap entry).detail := hanswer
    obtain ⟨hbatch, hlast⟩ := ih (law.see (wrap entry) held)
    refine ⟨hbatch, ?_⟩
    rwa [List.append_assoc] at hlast

end

theorem CoreListener.logs : Recorder.coreListener.handler.Logs .core := by
  intro entry event r mid t translated
  have hmade : CoreEvent.ofRecord entry.1 entry.2 = .ok event := congrArg Prod.fst translated
  rw [Seen.detail_core hmade]
  exact Recorder.onCore_see hmade t mid

theorem AvListener.logs : Recorder.avListener.handler.Logs .av := by
  intro entry event r mid t translated
  have hmade : AvEvent.ofRecord (Recorder.avListener.offer entry r).1 entry.1 entry.2 =
      .ok event := congrArg Prod.fst translated
  rw [Seen.detail_av hmade]
  exact Recorder.onAv_see hmade t mid

/-- What a recorder is given. The next tick is announced by itself. -/
inductive Feed where
  | core (batch : Option Bytes)
  | av (batch : Option Bytes)
  | next

def Feed.ticks : Feed → Nat
  | next => 1
  | _ => 0

inductive Accepted where
  | core (batch : CoreBatch)
  | av (batch : AvBatch)

namespace Accepted

def size : Accepted → Nat
  | core batch => batch.size
  | av batch => batch.size

def seen : Accepted → List Seen
  | core batch => batch.toEntries.map .core
  | av batch => batch.toEntries.map .av

theorem length_seen (accepted : Accepted) : accepted.seen.length = accepted.size := by
  cases accepted with
  | core batch => exact (List.length_map _).trans batch.length_toEntries
  | av batch => exact (List.length_map _).trans batch.length_toEntries

end Accepted

namespace Meeting

variable {β : Type}

def feed (m : Meeting β Recorder Tally) : Feed → Meeting β Recorder Tally
  | .core batch => (m.receive Recorder.coreListener.receive (.ok batch, m.hub)).2
  | .av batch => (m.receive Recorder.avListener.receive (.ok batch, m.hub)).2
  | .next => { m with state := m.state.nextBatch }

def fed (given : List Feed) (m : Meeting β Recorder Tally) : Meeting β Recorder Tally :=
  given.foldl feed m

/-- The batch that was decoded, if all of it is received. -/
def taken (C : Type) [DecidableEq C] [Surface C] (pass : Option Bytes → Tally → Pass Recorder Tally)
    (batch : Option Bytes) (m : Meeting β Recorder Tally) : Option (Batch C) :=
  match batch, (m.receive pass (.ok batch, m.hub)).1 with
  | some bytes, .received _ => (Batch.decode C bytes).toOption
  | _, _ => none

def accepted (m : Meeting β Recorder Tally) : Feed → Option Accepted
  | .core batch => (m.taken CoreCategory Recorder.coreListener.receive batch).map .core
  | .av batch => (m.taken AvCategory Recorder.avListener.receive batch).map .av
  | .next => none

/-- The accepted batches, each with the number of ticks that were announced before it. -/
def ledger : List Feed → Nat → Meeting β Recorder Tally → List (Nat × Accepted)
  | [], _, _ => []
  | given :: later, ticks, m =>
    (m.accepted given).toList.map (ticks, ·) ++ ledger later (ticks + given.ticks) (m.feed given)

def records (ledger : List (Nat × Accepted)) : List (Nat × Seen) :=
  ledger.flatMap fun entry => entry.2.seen.map (entry.1, ·)

variable {m : Meeting β Recorder Tally} {keeps : Bool} {seen : List (Nat × Seen)}
  {holds : List (Nat × Seen) → Tally → Prop}

theorem receive_cases {C ε : Type} [DecidableEq C] [Surface C] {h : Handler C ε Recorder Tally}
    {pass : Option Bytes → Tally → Pass Recorder Tally} (delivers : h.Delivers pass)
    (m : Meeting β Recorder Tally) (given : Option Bytes) :
    (m.taken C pass given = none ∧ (m.receive pass (.ok given, m.hub)).2.state = m.state) ∨
      ∃ batch left, m.taken C pass given = some batch ∧
        (batch.toEntries.foldlM h.step m.state).run m.listener =
          (.ok (m.receive pass (.ok given, m.hub)).2.state, left) := by
  rcases hrun : (pass given m.state).run { listener := m.listener, log := m.hub.log }
    with ⟨result, stage⟩
  -- A pass that ends well was given a batch that it folded, or nothing; then it changed nothing.
  cases result with
  | error rejection =>
    have hreceive : m.receive pass (.ok given, m.hub) = (.stopped rejection,
        { m with hub := { m.hub with log := stage.log }, listener := stage.listener }) := by
      simp only [receive, hrun]
    refine .inl ⟨?_, by rw [hreceive]⟩
    unfold taken
    rw [hreceive]
    cases given <;> rfl
  | ok last =>
    have hreceive : m.receive pass (.ok given, m.hub) = (.received last,
        { hub := { m.hub with log := stage.log }, listener := stage.listener, state := last }) := by
      simp only [receive, hrun]
    cases given with
    | none =>
      rw [delivers.absent] at hrun
      obtain rfl : m.state = last := Except.ok.inj (congrArg Prod.fst hrun)
      exact .inl ⟨rfl, by rw [hreceive]⟩
    | some bytes =>
      cases decoded : Batch.decode C bytes with
      | error fault =>
        rw [delivers.malformed decoded] at hrun
        cases congrArg Prod.fst hrun
      | ok batch =>
        have houtcome := delivers.decoded m.state decoded
          { listener := m.listener, log := m.hub.log }
        rw [Pass.outcome, hrun] at houtcome
        refine .inr ⟨batch, stage.listener, ?_, by rw [hreceive, ← houtcome]⟩
        unfold taken
        rw [hreceive]
        change (Batch.decode C bytes).toOption = some batch
        rw [decoded]
        rfl

theorem receive_obeys {C ε : Type} [DecidableEq C] [Surface C] {h : Handler C ε Recorder Tally}
    {wrap : Entry C → Seen} (logs : h.Logs wrap) {pass : Option Bytes → Tally → Pass Recorder Tally}
    (delivers : h.Delivers pass) (law : Tally.Law holds) (held : holds seen m.state)
    (given : Option Bytes) :
    (m.receive pass (.ok given, m.hub)).2.state.batch = m.state.batch ∧
      holds (seen ++ (m.taken C pass given).toList.flatMap fun batch =>
          batch.toEntries.map fun entry => (m.state.batch, wrap entry))
        (m.receive pass (.ok given, m.hub)).2.state := by
  rcases receive_cases delivers m given with ⟨htaken, hstate⟩ | ⟨batch, left, htaken, hfold⟩
  · rw [htaken, hstate]
    exact ⟨rfl, (List.append_nil seen).symm ▸ held⟩
  · obtain ⟨calls, handed⟩ := Handler.exists_handoff hfold
    rw [htaken]
    simpa using handed.obeys logs law held

theorem receive_refused {C ε : Type} [DecidableEq C] [Surface C] {h : Handler C ε Recorder Tally}
    {pass : Option Bytes → Tally → Pass Recorder Tally} (delivers : h.Delivers pass)
    {given : Option Bytes} (refused : m.taken C pass given = none) :
    (m.receive pass (.ok given, m.hub)).2.state = m.state := by
  rcases receive_cases delivers m given with ⟨-, hstate⟩ | ⟨_, _, htaken, -⟩
  · exact hstate
  · rw [htaken] at refused
    cases refused

theorem feed_refused (m : Meeting β Recorder Tally) (given : Feed) (brought : given.ticks = 0)
    (refused : m.accepted given = none) : (m.feed given).state = m.state := by
  cases given with
  | next => cases brought
  | core batch => exact receive_refused (CoreListener.delivers _) (Option.map_eq_none_iff.mp refused)
  | av batch => exact receive_refused (AvListener.delivers _) (Option.map_eq_none_iff.mp refused)

theorem records_taken {C : Type} [DecidableEq C] [Surface C] {wrap : Entry C → Seen}
    {accept : Batch C → Accepted} (own : ∀ batch, (accept batch).seen = batch.toEntries.map wrap)
    (taken : Option (Batch C)) (ticks : Nat) :
    records ((taken.map accept).toList.map (ticks, ·)) =
      taken.toList.flatMap fun batch => batch.toEntries.map fun entry => (ticks, wrap entry) := by
  cases taken with
  | none => rfl
  | some batch => simp [records, own, Function.comp_def]

theorem feed_obeys (law : Tally.Law holds) (held : holds seen m.state) (given : Feed) :
    (m.feed given).state.batch = m.state.batch + given.ticks ∧
      holds (seen ++ records ((m.accepted given).toList.map (m.state.batch, ·)))
        (m.feed given).state := by
  cases given with
  | next => exact ⟨rfl, (List.append_nil seen).symm ▸ law.nextBatch held⟩
  | core batch =>
    have hreceive := receive_obeys CoreListener.logs (CoreListener.delivers _) law held batch
    unfold accepted
    rw [records_taken fun _ => rfl]
    exact hreceive
  | av batch =>
    have hreceive := receive_obeys AvListener.logs (AvListener.delivers _) law held batch
    unfold accepted
    rw [records_taken fun _ => rfl]
    exact hreceive

theorem fed_obeys (law : Tally.Law holds) (held : holds seen m.state) (given : List Feed) :
    (m.fed given).state.batch = m.state.batch + (given.map Feed.ticks).sum ∧
      holds (seen ++ records (ledger given m.state.batch m)) (m.fed given).state := by
  induction given generalizing m seen with
  | nil => exact ⟨rfl, (List.append_nil seen).symm ▸ held⟩
  | cons first later ih =>
    obtain ⟨hbatch, hfirst⟩ := feed_obeys law held first
    obtain ⟨hlast, hlater⟩ := ih hfirst
    refine ⟨?_, ?_⟩
    · rw [List.map_cons, List.sum_cons, ← Nat.add_assoc, ← hbatch]
      exact hlast
    · rw [hbatch, List.append_assoc] at hlater
      unfold ledger records
      rw [List.flatMap_append]
      exact hlater

theorem fed_accounts (accounts : m.state.Accounts keeps seen) (given : List Feed) :
    (m.fed given).state.batch = m.state.batch + (given.map Feed.ticks).sum ∧
      (m.fed given).state.Accounts keeps (seen ++ records (ledger given m.state.batch m)) :=
  fed_obeys (Tally.Accounts.law keeps) accounts given

theorem length_records (ledger : List (Nat × Accepted)) :
    (records ledger).length = (ledger.map (·.2.size)).sum := by
  unfold records
  rw [List.length_flatMap]
  simp only [List.length_map, Accepted.length_seen]

/-- Batches that cannot be refused. A frame may be refused if kept planes are offered for it. -/
structure Accepts (m : Meeting β Recorder Tally) : Prop where
  core : ∀ {bytes : Bytes} {batch : CoreBatch}, Batch.decode CoreCategory bytes = .ok batch →
    (∀ entry ∈ batch.toEntries, ∃ event, CoreEvent.ofRecord entry.1 entry.2 = .ok event) →
      m.accepted (.core (some bytes)) = some (.core batch)
  av : ∀ {bytes : Bytes} {batch : AvBatch}, Batch.decode AvCategory bytes = .ok batch →
    m.listener.reuses = false ∨ batch .videoFrame = [] →
    (∀ entry ∈ batch.toEntries, ∃ event, AvEvent.ofRecord none entry.1 entry.2 = .ok event) →
      m.accepted (.av (some bytes)) = some (.av batch)

theorem taken_of_handoff {C ε : Type} [DecidableEq C] [Surface C]
    {h : Handler C ε Recorder Tally} {pass : Option Bytes → Tally → Pass Recorder Tally}
    (delivers : h.Delivers pass) {bytes : Bytes} {batch : Batch C}
    (decoded : Batch.decode C bytes = .ok batch)
    (handed : ∃ calls last left, h.Handoff batch.toEntries m.state m.listener calls last left) :
    m.taken C pass (some bytes) = some batch := by
  obtain ⟨calls, last, left, handed⟩ := handed
  have houtcome := delivers.decoded m.state decoded { listener := m.listener, log := m.hub.log }
  rcases hrun : (pass (some bytes) m.state).run { listener := m.listener, log := m.hub.log }
    with ⟨result, stage⟩
  rw [Pass.outcome, hrun, handed.folds] at houtcome
  obtain rfl : result = .ok last := congrArg Prod.fst houtcome
  unfold taken
  simp only [receive, hrun, decoded]
  rfl

theorem accepts (m : Meeting β Recorder Tally) : m.Accepts where
  core {bytes batch} decoded translates := by
    have handed : ∃ calls last left, Recorder.coreListener.handler.Handoff batch.toEntries
        m.state m.listener calls last left := by
      refine Handler.handoff_of_translates (fun _ => True) trivial ?_
      intro entry member before _ state
      obtain ⟨event, made⟩ := translates entry member
      exact ⟨event, before, congrArg (·, before) made, trivial⟩
    have htaken := taken_of_handoff (CoreListener.delivers _) decoded handed
    exact congrArg (Option.map Accepted.core) htaken
  av {bytes batch} decoded spared translates := by
    have handed : ∃ calls last left, Recorder.avListener.handler.Handoff batch.toEntries
        m.state m.listener calls last left := by
      refine Handler.handoff_of_translates (fun r => r.reuses = m.listener.reuses) rfl ?_
      intro entry member before kept state
      obtain ⟨event, made⟩ := translates entry member
      have plain : before.reuses = false ∨ entry.1 ≠ .videoFrame := by
        rw [kept]
        refine spared.imp_right fun none => ?_
        obtain ⟨c, record⟩ := entry
        rintro rfl
        have hframe := Batch.mem_toEntries.mp member
        rw [none] at hframe
        cases hframe
      exact ⟨event, before, Recorder.translate_plain made plain,
        (Recorder.reuses_onAv event state before).trans kept⟩
    have htaken := taken_of_handoff (AvListener.delivers _) decoded handed
    exact congrArg (Option.map Accepted.av) htaken

/-- Whatever a recorder is given from the start, its tally counts the ticks and accounts for the
records of the accepted batches; what is given next and is not accepted leaves it as it is, and a
batch that translates is accepted. -/
theorem replay_accounts (hub : Hub β) (reuses keeps : Bool) (given : List Feed) :
    let start : Meeting β Recorder Tally :=
      { hub, listener := { reuses }, state := Tally.start keeps }
    let m := start.fed given
    m.state.batch = (given.map Feed.ticks).sum ∧
      m.state.total = ((start.ledger given 0).map (·.2.size)).sum ∧
      m.state.Accounts keeps (records (start.ledger given 0)) ∧
      (∀ last, last.ticks = 0 → m.accepted last = none → (m.feed last).state = m.state) ∧
      m.Accepts := by
  intro start m
  have hstart : start.state.Accounts keeps [] := .start keeps
  obtain ⟨hbatch, haccounts⟩ := fed_accounts hstart given
  have htotal := haccounts.total
  rw [List.nil_append, length_records] at htotal
  exact ⟨hbatch.trans (Nat.zero_add _), htotal, haccounts, feed_refused m, accepts m⟩

/-- Two records are accepted before the tick, and what follows it cannot be read. -/
example :
    let start : Meeting Unit Recorder Tally :=
      { hub := {}, listener := { reuses := false }, state := Tally.start true }
    let batch : CoreBatch := fun
      | .friendTyping => [⟨7, true⟩, ⟨9, false⟩]
      | _ => []
    let given : List Feed := [.core (some batch.encode), .next, .av (some [0x0A]), .av none]
    (start.ledger given 0).map (fun entry => (entry.1, entry.2.size)) = [(0, 2)] ∧
      (start.fed given).state.total = 2 ∧ (start.fed given).state.batch = 1 := by
  decide +kernel

end Meeting

end ToxEvents
