import ToxEvents.Proofs.Replay.Loading
import ToxEvents.Proofs.Replay.Telling
set_option autoImplicit false

/-!
# How a playback ends

A playback fails for the first file that cannot be read; if there is none, for the first file whose
batch is refused; and if there is none of these either, it reports what one fold over all files has
seen. The sessions through which the files are played leave no trace in the result: they are open
while there is something to play and closed afterwards.
-/
namespace ToxEvents
open Wire

namespace Playback

variable {disk : Disk} {settings : Settings} {core av : List (String × Bytes)}

def lobby (settings : Settings) : Room where
  listener := { reuses := settings.replay.reuseFrameBuffers }
  state := Tally.start settings.output.includeEvents

/-- All files are loaded, and the core session is open. -/
def entered (settings : Settings) (core : BatchFiles) (coreRecords avRecords : List LogRecord) :
    Room :=
  note avRecords (carryOut (.openCore coreName core) (note coreRecords (lobby settings)))

def opened (settings : Settings) (core av : BatchFiles) (coreRecords avRecords : List LogRecord) :
    Room :=
  ((entered settings core coreRecords avRecords).perform audience
    (.openAv avName coreName av)).2

def waiting (core av : BatchFiles) : Side → List (Option Bytes)
  | .core => core.batches
  | .av => av.batches

theorem perform_openAv (settings : Settings) (core av : BatchFiles)
    (coreRecords avRecords : List LogRecord) :
    ∃ log, (entered settings core coreRecords avRecords).perform audience
        (.openAv avName coreName av) =
      (.done, { lobby settings with hub := staged (waiting core av) #[] log }) :=
  ⟨_, rfl⟩

theorem opened_eq (settings : Settings) (core av : BatchFiles)
    (coreRecords avRecords : List LogRecord) :
    progress (opened settings core av coreRecords avRecords) = .start settings ∧
      Staged (waiting core av) (opened settings core av coreRecords avRecords).hub := by
  obtain ⟨log, hperform⟩ := perform_openAv settings core av coreRecords avRecords
  rw [opened, hperform]
  exact ⟨rfl, #[], log, rfl⟩

def finish (generatedAt : String) (settings : Settings) :
    Except Failure Unit × Room → Except Failure Report × Log
  | (result, room) =>
    (result.map fun _ => Report.ofTally generatedAt room.state settings.coreFiles.length
      settings.avFiles.length room.listener.reused, (leave room).hub.log)

theorem run_of_loaded {generatedAt : String} {core av : BatchFiles}
    {coreRecords avRecords : List LogRecord}
    (hcore : load disk settings.coreFiles = (.ok core, coreRecords))
    (hav : load disk settings.avFiles = (.ok av, avRecords)) :
    run generatedAt disk settings =
      finish generatedAt settings
        (playAll settings (opened settings core av coreRecords avRecords)) := by
  obtain ⟨log, hperform⟩ := perform_openAv settings core av coreRecords avRecords
  simp only [entered, lobby] at hperform
  simp only [run, hcore, hav, opened, entered, lobby, hperform]
  rfl

/-- Closing the core session closes the other one with it. -/
theorem closed_of_staged {queues : Side → List (Option Bytes)} {room : Room}
    (ready : Staged queues room.hub) :
    progress (carryOut (.closeCore coreName) room) = progress room ∧
      (carryOut (.closeCore coreName) room).standings =
        [(coreName, .closed), (avName, .closed)] := by
  obtain ⟨happenings, log, hhub⟩ := ready
  obtain ⟨hub, listener, state⟩ := room
  obtain rfl := hhub
  exact ⟨rfl, rfl⟩

theorem playAll_eq {room : Room} (ready : Staged (waiting ⟨queue core⟩ ⟨queue av⟩) room.hub)
    (hcore : core.map Prod.fst = settings.coreFiles) (hav : av.map Prod.fst = settings.avFiles) :
    ∃ left, playAll settings room =
        (((items .core core ++ items .av av).foldlM Item.play (progress room)).map fun _ => (),
          left) ∧
      ∀ reached,
        (items .core core ++ items .av av).foldlM Item.play (progress room) = .ok reached →
          progress left = reached ∧ left.standings = [(coreName, .closed), (avName, .closed)] := by
  obtain ⟨mid, hplayCore, hmid⟩ := play_eq .core core ready rfl
  rw [hcore] at hplayCore
  change play "core" (.tickCore coreName) .coreRejected settings.coreFiles room = _ at hplayCore
  rw [List.foldlM_append]
  cases hfoldCore : (items .core core).foldlM Item.play (progress room) with
  | error failure =>
    rw [hfoldCore] at hplayCore
    refine ⟨mid, ?_, fun reached folded => nomatch folded⟩
    simp only [playAll, hplayCore]
    rfl
  | ok between =>
    rw [hfoldCore] at hplayCore
    obtain ⟨rfl, hstaged⟩ := hmid between hfoldCore
    obtain ⟨last, hplayAv, hlast⟩ := play_eq .av av hstaged rfl
    rw [hav] at hplayAv
    change play "AV" (.tickAv avName) .avRejected settings.avFiles mid = _ at hplayAv
    change ∃ left, playAll settings room =
      (((items .av av).foldlM Item.play (progress mid)).map fun _ => (), left) ∧
        ∀ reached, (items .av av).foldlM Item.play (progress mid) = .ok reached → _
    cases hfoldAv : (items .av av).foldlM Item.play (progress mid) with
    | error failure =>
      rw [hfoldAv] at hplayAv
      refine ⟨last, ?_, fun reached folded => nomatch folded⟩
      simp only [playAll, hplayCore, hplayAv, Except.map]
    | ok reached =>
      rw [hfoldAv] at hplayAv
      obtain ⟨rfl, hready⟩ := hlast reached hfoldAv
      obtain ⟨hprogress, hclosed⟩ := closed_of_staged hready
      refine ⟨_, by simp only [playAll, hplayCore, hplayAv, Except.map]; rfl, ?_⟩
      rintro _ ⟨⟩
      exact ⟨hprogress, hclosed⟩

/-- The ways in which a playback can end. -/
inductive Ending (generatedAt : String) (disk : Disk) (settings : Settings) :
    Except Failure Report → Prop
  | unreadable {path : String} {error : DiskError}
      (missing : Missing disk (settings.coreFiles ++ settings.avFiles) path error) :
      Ending generatedAt disk settings (.error (.batchUnreadable path error))
  | rejected {core av : List (String × Bytes)} {before after : List Item} {item : Item}
      {reached : Progress} {rejection : Rejection} {left : Recorder}
      (readCore : Contents disk settings.coreFiles core)
      (readAv : Contents disk settings.avFiles av)
      (order : items .core core ++ items .av av = before ++ item :: after)
      (played : before.foldlM Item.play (.start settings) = .ok reached)
      (refused : item.dispatch reached = (.error rejection, left)) :
      Ending generatedAt disk settings (.error (item.side.failure item.path rejection))
  | reported {core av : List (String × Bytes)} {last : Progress} {report : Report}
      (readCore : Contents disk settings.coreFiles core)
      (readAv : Contents disk settings.avFiles av)
      (played :
        (items .core core ++ items .av av).foldlM Item.play (.start settings) = .ok last)
      (reports : Reports generatedAt settings last report) :
      Ending generatedAt disk settings (.ok report)

theorem run_of_contents (generatedAt : String) (readCore : Contents disk settings.coreFiles core)
    (readAv : Contents disk settings.avFiles av) :
    (run generatedAt disk settings).1 =
      ((items .core core ++ items .av av).foldlM Item.play (.start settings)).map fun last =>
        Report.ofTally generatedAt last.tally settings.coreFiles.length settings.avFiles.length
          last.recorder.reused := by
  obtain ⟨hprogress, hstaged⟩ := opened_eq settings ⟨queue core⟩ ⟨queue av⟩
    (load disk settings.coreFiles).2 (load disk settings.avFiles).2
  obtain ⟨left, hplayAll, hleft⟩ := playAll_eq hstaged readCore.named readAv.named
  rw [hprogress] at hplayAll hleft
  rw [run_of_loaded (load_of_contents readCore) (load_of_contents readAv), hplayAll, finish]
  cases hfold : (items .core core ++ items .av av).foldlM Item.play (.start settings) with
  | error failure => rfl
  | ok last =>
    obtain ⟨rfl, -⟩ := hleft last hfold
    rfl

theorem played_of_reported {generatedAt : String} {report : Report}
    (readCore : Contents disk settings.coreFiles core) (readAv : Contents disk settings.avFiles av)
    (reported : (run generatedAt disk settings).1 = .ok report) :
    ∃ last, (items .core core ++ items .av av).foldlM Item.play (.start settings) = .ok last ∧
      Reports generatedAt settings last report := by
  rw [run_of_contents generatedAt readCore readAv] at reported
  cases hfold : (items .core core ++ items .av av).foldlM Item.play (.start settings) with
  | error failure =>
    rw [hfold] at reported
    cases reported
  | ok last =>
    rw [hfold] at reported
    exact ⟨last, rfl, (reports_iff hfold).mpr (Except.ok.inj reported)⟩

/-- What a report says of the files that were played: how many there were and what was in them. -/
structure Tells (core av : List (String × Bytes)) (records : List (Nat × Seen)) (report : Report) :
    Prop where
  coreBatches : report.coreBatches = core.length
  avBatches : report.avBatches = av.length
  totalEvents : report.totalEvents = records.length
  counts : ∀ name ∈ categoryNames, report.counts.lookup name =
    some (records.countP (·.2.category = name))
  friends : ∀ n, n ∈ report.friends ↔ ∃ record ∈ records, record.2.friend? = some n
  lastCallState : report.lastCallState = (records.filterMap (·.2.mask?)).getLast?

theorem tells_of_reported {generatedAt : String} {report : Report}
    (readCore : Contents disk settings.coreFiles core) (readAv : Contents disk settings.avFiles av)
    (reported : (run generatedAt disk settings).1 = .ok report) :
    Tells core av (recordsOf 0 (items .core core ++ items .av av)) report := by
  obtain ⟨last, hfold, reports⟩ := played_of_reported readCore readAv reported
  have haccounts := foldlM_accounts hfold
  exact {
    coreBatches := by rw [reports.coreBatches, ← readCore.named, List.length_map]
    avBatches := by rw [reports.avBatches, ← readAv.named, List.length_map]
    totalEvents := reports.totalEvents.trans haccounts.total
    counts := fun name known => by
      rw [reports.counts, if_pos known, haccounts.counts]
      dsimp only
      split
      case isTrue hzero => rw [hzero, Option.none_or]
      case isFalse => rw [Option.some_or]
    friends := fun n => by
      rw [reports.friends]
      exact haccounts.friends n
    lastCallState := reports.lastCallState.trans haccounts.lastCallState }

theorem closed_of_played {core av : BatchFiles} {coreRecords avRecords : List LogRecord}
    (hcore : load disk settings.coreFiles = (.ok core, coreRecords))
    (hav : load disk settings.avFiles = (.ok av, avRecords))
    (played : (playAll settings (opened settings core av coreRecords avRecords)).1 = .ok ()) :
    (playAll settings (opened settings core av coreRecords avRecords)).2.standings =
      [(coreName, .closed), (avName, .closed)] := by
  obtain ⟨coreContents, readCore, rfl⟩ := contents_of_load hcore
  obtain ⟨avContents, readAv, rfl⟩ := contents_of_load hav
  obtain ⟨hprogress, hstaged⟩ :=
    opened_eq settings ⟨queue coreContents⟩ ⟨queue avContents⟩ coreRecords avRecords
  obtain ⟨left, hplayAll, hleft⟩ := playAll_eq hstaged readCore.named readAv.named
  rw [hprogress] at hplayAll hleft
  rw [hplayAll] at played ⊢
  cases hfold : (items .core coreContents ++ items .av avContents).foldlM Item.play
      (.start settings) with
  | error failure =>
    rw [hfold] at played
    cases played
  | ok last => exact (hleft last hfold).2

theorem run_of_missing (generatedAt : String) {path : String} {error : DiskError}
    (missing : Missing disk (settings.coreFiles ++ settings.avFiles) path error) :
    (run generatedAt disk settings).1 = .error (.batchUnreadable path error) := by
  rcases missing.of_append with hcore | ⟨core, hcore, hav⟩
  · rw [run, load_of_missing hcore]
  · rw [run, load_of_contents hcore, load_of_missing hav]

theorem play_eq_error_iff {item : Item} {p : Progress} {failure : Failure} :
    item.play p = .error failure ↔ ∃ rejection left, item.dispatch p = (.error rejection, left) ∧
      item.side.failure item.path rejection = failure := by
  unfold Item.play
  rcases item.dispatch p with ⟨_ | _, _⟩ <;> simp

theorem Ending.run_eq {generatedAt : String} {result : Except Failure Report}
    (ending : Ending generatedAt disk settings result) :
    (run generatedAt disk settings).1 = result := by
  cases ending with
  | unreadable missing => exact run_of_missing generatedAt missing
  | rejected readCore readAv order played refused =>
    have hplay := play_eq_error_iff.mpr ⟨_, _, refused, rfl⟩
    rw [run_of_contents generatedAt readCore readAv, order, List.foldlM_append, played]
    change Except.map _ (List.foldlM Item.play _ (_ :: _)) = _
    rw [List.foldlM_cons, hplay]
    rfl
  | reported readCore readAv played reports =>
    rw [run_of_contents generatedAt readCore readAv, played]
    exact congrArg Except.ok ((reports_iff played).mp reports)

theorem exists_ending (generatedAt : String) (disk : Disk) (settings : Settings) :
    ∃ result, Ending generatedAt disk settings result := by
  rcases contents_or_missing_append disk settings.coreFiles settings.avFiles with
    ⟨core, av, readCore, readAv⟩ | ⟨path, error, missing⟩
  · cases hfold : (items .core core ++ items .av av).foldlM Item.play (.start settings) with
    | ok last => exact ⟨_, .reported readCore readAv hfold ((reports_iff hfold).mpr rfl)⟩
    | error failure =>
      obtain ⟨before, item, after, reached, order, played, hplay⟩ := foldlM_eq_error hfold
      obtain ⟨rejection, left, refused, -⟩ := play_eq_error_iff.mp hplay
      exact ⟨_, .rejected readCore readAv order played refused⟩
  · exact ⟨_, .unreadable missing⟩

theorem run_eq_iff_ending {generatedAt : String} {result : Except Failure Report} :
    (run generatedAt disk settings).1 = result ↔ Ending generatedAt disk settings result := by
  refine ⟨?_, Ending.run_eq⟩
  rintro rfl
  obtain ⟨result, ending⟩ := exists_ending generatedAt disk settings
  rwa [ending.run_eq]

theorem run_congr (generatedAt : String) {other : Disk}
    (same : ∀ path ∈ settings.coreFiles ++ settings.avFiles, other.read path = disk.read path) :
    run generatedAt other settings = run generatedAt disk settings := by
  obtain ⟨hcore, hav⟩ := List.forall_mem_append.mp same
  rw [run, run, load_congr hcore, load_congr hav]

theorem log_dropCore (settings : Settings) (core : BatchFiles)
    (coreRecords avRecords : List LogRecord) :
    (carryOut (.dropCore coreName) (entered settings core coreRecords avRecords)).hub.log =
      (#[] : Log) ++ coreRecords ++ avRecords ++
        ([⟨.debug, .session, s!"Closing session, running {0} on-close callback(s)"⟩] :
          List LogRecord) ++ core.release.1 := rfl

theorem run_silent (generatedAt : String) {path : String} {error : DiskError}
    (missing : Missing disk (settings.coreFiles ++ settings.avFiles) path error) :
    ∀ record ∈ (run generatedAt disk settings).2, ¬ TellsOfBatch record := by
  rcases missing.of_append with hcore | ⟨core, hcore, hav⟩
  · rw [run, load_of_missing hcore]
    simpa [note, Hub.note] using load_silent disk settings.coreFiles
  · rw [run, load_of_contents hcore, load_of_missing hav]
    change ∀ record ∈ (carryOut (.dropCore coreName) (entered settings _ _ _)).hub.log, _
    rw [log_dropCore]
    simp only [List.toArray_appendList, List.nil_append, List.mem_toArray, List.forall_mem_append]
    refine ⟨⟨⟨load_silent disk _, load_silent disk _⟩, ?_⟩, release_silent _⟩
    refine List.forall_mem_singleton.mpr (not_tellsOfBatch (by decide) ?_)
    simp [toString]

/-- The limit of the settings; where there is none, any number does that is large enough. -/
def Allows (settings : Settings) (limit : Nat) : Prop :=
  settings.replay.maxBatches = some limit ∨ settings.replay.maxBatches = none ∧
    settings.input.core.length + settings.input.av.length ≤ limit

theorem coreFiles_eq {limit : Nat} (allowed : Allows settings limit) :
    settings.coreFiles = settings.input.core.take (min settings.input.core.length limit) := by
  rw [Nat.min_comm, ← List.take_eq_take_min]
  rcases allowed with hmax | ⟨hmax, hall⟩
  · simp only [Settings.coreFiles, hmax]
  · simp only [Settings.coreFiles, hmax]
    exact (List.take_of_length_le (by omega)).symm

theorem avFiles_eq {limit : Nat} (allowed : Allows settings limit) :
    settings.avFiles = settings.input.av.take
      (min settings.input.av.length (limit - settings.coreFiles.length)) := by
  have hcore := congrArg List.length (coreFiles_eq allowed)
  rw [List.length_take] at hcore
  rw [Nat.min_comm, ← List.take_eq_take_min]
  rcases allowed with hmax | ⟨hmax, hall⟩
  · simp only [Settings.avFiles, hmax]
  · simp only [Settings.avFiles, hmax]
    exact (List.take_of_length_le (by omega)).symm

def withoutLimit (settings : Settings) : Settings :=
  { settings with
    input := ⟨settings.coreFiles, settings.avFiles⟩
    replay := { settings.replay with maxBatches := none } }

theorem run_withoutLimit (generatedAt : String) (disk : Disk) (settings : Settings) :
    run generatedAt disk (withoutLimit settings) = run generatedAt disk settings := rfl

theorem dispatch_ne_closed (item : Item) (p : Progress) (left : Recorder) :
    item.dispatch p ≠ (.error .sessionClosed, left) := by
  rw [Item.dispatch_eq]
  intro failed
  obtain ⟨side, path, bytes⟩ := item
  cases side with
  | core =>
    rcases Handler.turn_error failed with ⟨fault, hfault⟩ | ⟨batch, hfold⟩
    · cases hfault
    · cases CoreListener.foldlM_error hfold
  | av =>
    rcases Handler.turn_error failed with ⟨fault, hfault⟩ | ⟨batch, hfold⟩
    · cases hfault
    · rcases AvListener.foldlM_error hfold with own | ⟨plane, required, available, short⟩
      · cases own
      · cases short

theorem failure_cases {generatedAt : String} {failure : Failure}
    (failed : (run generatedAt disk settings).1 = .error failure) :
    (∃ path error, failure = .batchUnreadable path error) ∨
      ∃ (item : Item) (rejection : Rejection), rejection ≠ .sessionClosed ∧
        failure = item.side.failure item.path rejection := by
  generalize hresult : Except.error failure = result at failed
  cases run_eq_iff_ending.mp failed with
  | unreadable missing => exact .inl ⟨_, _, Except.error.inj hresult⟩
  | @rejected _ _ _ _ item reached rejection _ _ _ _ _ refused =>
    refine .inr ⟨item, rejection, ?_, Except.error.inj hresult⟩
    rintro rfl
    exact dispatch_ne_closed item reached _ refused
  | reported => cases hresult

theorem unclosed_of_failure {generatedAt path : String} {rejection : Rejection} {failure : Failure}
    (failed : (run generatedAt disk settings).1 = .error failure) :
    failure ≠ .sessionRejected rejection ∧ failure ≠ .coreRejected path .sessionClosed ∧
      failure ≠ .avRejected path .sessionClosed := by
  rcases failure_cases failed with ⟨path', error, rfl⟩ | ⟨⟨side, path', bytes⟩, reason, other, rfl⟩
  · exact ⟨nofun, nofun, nofun⟩
  · cases side with
    | core => exact ⟨nofun, fun same => other (Failure.coreRejected.inj same).2, nofun⟩
    | av => exact ⟨nofun, nofun, fun same => other (Failure.avRejected.inj same).2⟩

/-- What is to be said of a playback, whatever the settings are and whatever is on the disk. -/
structure Conclusive (generatedAt : String) (disk : Disk) (settings : Settings) : Prop where
  /-- The limit spans both kinds of files. -/
  limited : ∀ limit, Allows settings limit →
    settings.coreFiles = settings.input.core.take (min settings.input.core.length limit) ∧
    settings.avFiles = settings.input.av.take
      (min settings.input.av.length (limit - settings.coreFiles.length)) ∧
    settings.coreFiles.length = min settings.input.core.length limit ∧
    settings.avFiles.length =
      min settings.input.av.length (limit - settings.coreFiles.length) ∧
    settings.coreFiles.length ≤ limit
  /-- The first file that cannot be read decides, then the first that is refused. -/
  ending : ∀ result,
    (run generatedAt disk settings).1 = result ↔ Ending generatedAt disk settings result
  /-- A report counts the files and tells of all their records and of nothing else. -/
  told : ∀ report core av, (run generatedAt disk settings).1 = .ok report →
    Contents disk settings.coreFiles core → Contents disk settings.avFiles av →
      Tells core av (recordsOf 0 (items .core core ++ items .av av)) report
  /-- Nothing is played unless all files can be read. -/
  silent : ∀ path error, Missing disk (settings.coreFiles ++ settings.avFiles) path error →
    ∀ record ∈ (run generatedAt disk settings).2, ¬ TellsOfBatch record
  /-- No session is found closed while files are played. -/
  unclosed : ∀ failure, (run generatedAt disk settings).1 = .error failure →
    ∀ path rejection, failure ≠ .sessionRejected rejection ∧
      failure ≠ .coreRejected path .sessionClosed ∧ failure ≠ .avRejected path .sessionClosed
  closed : ∀ core av coreRecords avRecords,
    load disk settings.coreFiles = (.ok core, coreRecords) →
    load disk settings.avFiles = (.ok av, avRecords) →
      let played := playAll settings (opened settings core av coreRecords avRecords)
      run generatedAt disk settings = finish generatedAt settings played ∧
        (played.1 = .ok () → played.2.standings = [(coreName, .closed), (avName, .closed)])
  confined : ∀ other : Disk,
    (∀ path ∈ settings.coreFiles ++ settings.avFiles, other.read path = disk.read path) →
      run generatedAt other settings = run generatedAt disk settings
  /-- To limit the files is to name fewer of them. -/
  unlimited : run generatedAt disk (withoutLimit settings) = run generatedAt disk settings

theorem run_conclusive (generatedAt : String) (disk : Disk) (settings : Settings) :
    Conclusive generatedAt disk settings where
  limited limit allowed := by
    have hcore := congrArg List.length (coreFiles_eq allowed)
    have hav := congrArg List.length (avFiles_eq allowed)
    rw [List.length_take, Nat.min_eq_left (Nat.min_le_left _ _)] at hcore hav
    refine ⟨coreFiles_eq allowed, avFiles_eq allowed, hcore, hav, ?_⟩
    rw [hcore]
    exact Nat.min_le_right _ _
  ending _ := run_eq_iff_ending
  told _ _ _ reported readCore readAv := tells_of_reported readCore readAv reported
  silent _ _ := run_silent generatedAt
  unclosed _ failed _ _ := unclosed_of_failure failed
  closed _ _ _ _ hcore hav := ⟨run_of_loaded hcore hav, closed_of_played hcore hav⟩
  confined _ := run_congr generatedAt
  unlimited := run_withoutLimit generatedAt disk settings

end Playback

end ToxEvents
