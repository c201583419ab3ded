import ToxEvents.Proofs.Replay.Frames
import ToxEvents.Proofs.Replay.Outcome
set_option autoImplicit false

namespace ToxEvents
open Wire

def Accepted.frames : Accepted → List Raw.VideoFrame
  | core _ => []
  | av batch => batch .videoFrame

def Side.feed : Side → Option Bytes → Feed
  | core => .core
  | av => .av

namespace Meeting

variable {β : Type} {kept : Option Raw.VideoFrame} {m m' : Meeting β Recorder Tally}

def answer (m : Meeting β Recorder Tally) : Feed → Outcome Tally
  | .core batch => (m.receive Recorder.coreListener.receive (.ok batch, m.hub)).1
  | .av batch => (m.receive Recorder.avListener.receive (.ok batch, m.hub)).1
  | .next => .received m.state.nextBatch

def answers : List Feed → Meeting β Recorder Tally → List (Outcome Tally)
  | [], _ => []
  | given :: later, m => m.answer given :: answers later (m.feed given)

def frames (ledger : List (Nat × Accepted)) : List Raw.VideoFrame :=
  ledger.flatMap fun entry => entry.2.frames

theorem answer_feed (m : Meeting β Recorder Tally) (side : Side) (given : Option Bytes) :
    m.answer (side.feed given) = (m.receive side.pass (.ok given, m.hub)).1 := by
  cases side <;> rfl

theorem answer_of_ok (side : Side) {given : Option Bytes} {tally : Tally} {left : Recorder}
    (taken : (side.turn given m.state).run m.listener = (.ok tally, left)) :
    m.answer (side.feed given) = .received tally := by
  obtain ⟨log, hreceive⟩ := receive_of_ok m.hub (side.does given m.state) taken
  rw [answer_feed, hreceive]

theorem answer_of_error (side : Side) {given : Option Bytes} {rejection : Rejection}
    {left : Recorder}
    (refused : (side.turn given m.state).run m.listener = (.error rejection, left)) :
    m.answer (side.feed given) = .stopped rejection := by
  obtain ⟨log, hreceive⟩ := receive_of_error m.hub (side.does given m.state) refused
  rw [answer_feed, hreceive]

/-- Two meetings with the same tally, of which the second reuses buffers. -/
structure Twins (kept : Option Raw.VideoFrame) (m m' : Meeting β Recorder Tally) : Prop where
  state : m'.state = m.state
  plain : m.listener.reuses = false
  keeps : m'.listener.Keeps kept

/-- What becomes of two such meetings when they are given the same. -/
inductive Parted (kept : Option Raw.VideoFrame) (frames : List Raw.VideoFrame) :
    Outcome Tally × Meeting β Recorder Tally → Outcome Tally × Meeting β Recorder Tally → Prop
  | together {answer : Outcome Tally} {m m' : Meeting β Recorder Tally}
      (steady : Steady kept frames) (twins : Twins (frames.foldl keptAfter kept) m m') :
      Parted kept frames (answer, m) (answer, m')
  | apart {tally : Tally} {rejection : Rejection} {m m' : Meeting β Recorder Tally}
      (unsteady : ¬ Steady kept frames) (short : rejection.IsShort) :
      Parted kept frames (.received tally, m) (.stopped rejection, m')

def delivered (frames : List Raw.VideoFrame) : Outcome Tally → List Raw.VideoFrame
  | .received _ => frames
  | _ => []

theorem receive_parted (twins : Twins kept m m') (side : Side) (given : Option Bytes) :
    Parted kept (delivered (side.frames given) (m.receive side.pass (.ok given, m.hub)).1)
      (m.receive side.pass (.ok given, m.hub)) (m'.receive side.pass (.ok given, m'.hub)) := by
  obtain ⟨hstate, hplain, hkeeps⟩ := twins
  have hdoes := side.does given m.state
  have hdoes' := side.does given m'.state
  have hcompared := side.compared given m.state hplain hkeeps
  generalize hturn : (side.turn given m.state).run m.listener = result at hcompared
  generalize hturn' : (side.turn given m.state).run m'.listener = result' at hcompared
  rw [← hstate] at hturn'
  cases hcompared with
  | refused other =>
    obtain ⟨log, hreceive⟩ := receive_of_error m.hub hdoes hturn
    obtain ⟨log', hreceive'⟩ := receive_of_error m'.hub hdoes' hturn'
    rw [hreceive, hreceive']
    exact .together trivial ⟨hstate, hplain, hkeeps⟩
  | taken tally steady keeps =>
    obtain ⟨log, hreceive⟩ := receive_of_ok m.hub hdoes hturn
    obtain ⟨log', hreceive'⟩ := receive_of_ok m'.hub hdoes' hturn'
    rw [hreceive, hreceive']
    exact .together steady ⟨rfl, hplain, keeps⟩
  | short tally unsteady short =>
    obtain ⟨log, hreceive⟩ := receive_of_ok m.hub hdoes hturn
    obtain ⟨log', hreceive'⟩ := receive_of_error m'.hub hdoes' hturn'
    rw [hreceive, hreceive']
    exact .apart unsteady short

theorem frames_accepted (m : Meeting β Recorder Tally) (side : Side) (given : Option Bytes) :
    (m.accepted (side.feed given)).elim [] Accepted.frames =
      delivered (side.frames given) (m.receive side.pass (.ok given, m.hub)).1 := by
  cases side with
  | core =>
    have hdelivered (outcome : Outcome Tally) : delivered [] outcome = [] := by
      cases outcome <;> rfl
    change ((m.taken CoreCategory _ given).map Accepted.core).elim [] _ = delivered [] _
    rw [hdelivered]
    cases m.taken CoreCategory Recorder.coreListener.receive given <;> rfl
  | av =>
    change ((m.taken AvCategory Recorder.avListener.receive given).map Accepted.av).elim [] _ =
      delivered _ (m.receive Recorder.avListener.receive (.ok given, m.hub)).1
    unfold taken Side.frames
    cases (m.receive Recorder.avListener.receive (.ok given, m.hub)).1 with
    | received tally =>
      cases given with
      | none => rfl
      | some bytes =>
        change ((Batch.decode AvCategory bytes).toOption.map _).elim _ _ =
          (Batch.decode AvCategory bytes).toOption.elim _ _
        cases (Batch.decode AvCategory bytes).toOption <;> rfl
    | _ => cases given <;> rfl

theorem feed_parted (twins : Twins kept m m') (given : Feed) :
    Parted kept ((m.accepted given).elim [] Accepted.frames)
      (m.answer given, m.feed given) (m'.answer given, m'.feed given) := by
  cases given with
  | core given =>
    have hparted := receive_parted twins .core given
    rw [← frames_accepted] at hparted
    exact hparted
  | av given =>
    have hparted := receive_parted twins .av given
    rw [← frames_accepted] at hparted
    exact hparted
  | next =>
    obtain ⟨hstate, hplain, hkeeps⟩ := twins
    have hanswer : m'.answer .next = m.answer .next :=
      congrArg (fun tally : Tally => Outcome.received tally.nextBatch) hstate
    rw [hanswer]
    exact .together trivial ⟨congrArg Tally.nextBatch hstate, hplain, hkeeps⟩

theorem frames_ledger_cons (given : Feed) (later : List Feed) (ticks : Nat)
    (m : Meeting β Recorder Tally) :
    frames (m.ledger (given :: later) ticks) =
      (m.accepted given).elim [] Accepted.frames ++
        frames ((m.feed given).ledger later (ticks + given.ticks)) := by
  rw [ledger, frames, List.flatMap_append]
  cases m.accepted given with
  | none => rfl
  | some accepted =>
    rw [Option.toList_some, List.map_singleton, List.flatMap_singleton]
    rfl

theorem answers_eq_iff (twins : Twins kept m m') (given : List Feed) (ticks : Nat) :
    m'.answers given = m.answers given ↔ Steady kept (frames (m.ledger given ticks)) := by
  induction given generalizing m m' kept ticks with
  | nil => exact iff_of_true rfl trivial
  | cons first later ih =>
    have hparted := feed_parted twins first
    rw [frames_ledger_cons, steady_append, answers, answers]
    generalize hhead : (m.answer first, m.feed first) = head at hparted
    generalize hhead' : (m'.answer first, m'.feed first) = head' at hparted
    cases hparted with
    | together steady twins =>
      obtain ⟨rfl, rfl⟩ := Prod.mk.inj hhead
      obtain ⟨hanswer, rfl⟩ := Prod.mk.inj hhead'
      rw [hanswer, List.cons_inj_right, ih twins (ticks + first.ticks)]
      exact (and_iff_right steady).symm
    | apart unsteady short =>
      refine iff_of_false (fun same => ?_) fun steady => unsteady steady.1
      have hanswers := (List.cons.inj same).1
      rw [(Prod.mk.inj hhead).1, (Prod.mk.inj hhead').1] at hanswers
      cases hanswers

end Meeting

def Failure.IsShort (failure : Failure) : Prop :=
  ∃ path rejection, rejection.IsShort ∧ failure = .avRejected path rejection

theorem Side.isShort_of_failure {side : Side} {path : String} {rejection : Rejection}
    (short : (side.failure path rejection).IsShort) : rejection.IsShort := by
  obtain ⟨path', rejection', hshort, hfailure⟩ := short
  cases side with
  | core => cases hfailure
  | av =>
    cases hfailure
    exact hshort

def Item.frames (item : Item) : List Raw.VideoFrame := item.side.frames (batch item.bytes)

namespace Playback

variable {kept : Option Raw.VideoFrame} {p q : Progress}

def played : List Item → Progress → List Raw.VideoFrame
  | [], _ => []
  | item :: later, p =>
    match item.play p with
    | .ok next => item.frames ++ played later next
    | .error _ => []

/-- Playing one item without reuse and with it. -/
inductive ItemCompared (kept : Option Raw.VideoFrame) (frames : List Raw.VideoFrame) :
    Except Failure Progress → Except Failure Progress → Prop
  | refused {failure : Failure} (other : ¬ failure.IsShort) :
      ItemCompared kept frames (.error failure) (.error failure)
  | taken {next next' : Progress} (steady : Steady kept frames)
      (plain : next.recorder.reuses = false) (same : next'.tally = next.tally)
      (keeps : next'.recorder.Keeps (frames.foldl keptAfter kept)) :
      ItemCompared kept frames (.ok next) (.ok next')
  | short {next : Progress} {failure : Failure} (unsteady : ¬ Steady kept frames)
      (plain : next.recorder.reuses = false) (short : failure.IsShort) :
      ItemCompared kept frames (.ok next) (.error failure)

theorem play_compared (plain : p.recorder.reuses = false) (keeps : q.recorder.Keeps kept)
    (same : q.tally = p.tally) (item : Item) :
    ItemCompared kept item.frames (item.play p) (item.play q) := by
  have hcompared := item.side.compared (Item.batch item.bytes) p.tally plain keeps
  rw [← Item.dispatch_eq, ← same, ← Item.dispatch_eq] at hcompared
  generalize hp : item.dispatch p = result at hcompared
  generalize hq : item.dispatch q = result' at hcompared
  unfold Item.play
  rw [hp, hq]
  cases hcompared with
  | refused other => exact .refused fun short => other (Side.isShort_of_failure short)
  | taken tally steady keeps => exact .taken steady plain rfl keeps
  | @short tally rejection left unsteady short =>
    refine .short unsteady plain ?_
    obtain ⟨side, path, bytes⟩ := item
    cases side with
    | core => exact (unsteady trivial).elim
    | av => exact ⟨path, rejection, short, rfl⟩

theorem foldlM_play_plain {items : List Item} {failure : Failure}
    (plain : p.recorder.reuses = false) (failed : items.foldlM Item.play p = .error failure) :
    ¬ failure.IsShort := by
  induction items generalizing p with
  | nil => cases failed
  | cons item items ih =>
    rw [List.foldlM_cons] at failed
    have keeps : Recorder.Keeps ⟨true, none, 0⟩ none := .nothing
    have hcompared := @play_compared _ p ⟨_, p.tally⟩ plain keeps rfl item
    generalize item.play p = result at hcompared failed
    generalize item.play _ = result' at hcompared
    cases hcompared with
    | refused other =>
      cases failed
      exact other
    | taken _ plain _ _ => exact ih plain failed
    | short _ plain _ => exact ih plain failed

/-- How a playback goes without reuse and with it. -/
inductive Ran (kept : Option Raw.VideoFrame) (frames : List Raw.VideoFrame) :
    Except Failure Progress → Except Failure Progress → Prop
  | reported {last last' : Progress} (steady : Steady kept frames)
      (same : last'.tally = last.tally) : Ran kept frames (.ok last) (.ok last')
  | failed {failure : Failure} (steady : Steady kept frames) (other : ¬ failure.IsShort) :
      Ran kept frames (.error failure) (.error failure)
  | short {result : Except Failure Progress} {failure : Failure} (unsteady : ¬ Steady kept frames)
      (other : ∀ failure, result = .error failure → ¬ failure.IsShort) (short : failure.IsShort) :
      Ran kept frames result (.error failure)

theorem Ran.after {frames later : List Raw.VideoFrame} {result result' : Except Failure Progress}
    (steady : Steady kept frames) (ran : Ran (frames.foldl keptAfter kept) later result result') :
    Ran kept (frames ++ later) result result' := by
  cases ran with
  | reported steadyLater same => exact .reported (steady_append.mpr ⟨steady, steadyLater⟩) same
  | failed steadyLater other => exact .failed (steady_append.mpr ⟨steady, steadyLater⟩) other
  | short unsteady other short =>
    exact .short (fun steadyAll => unsteady (steady_append.mp steadyAll).2) other short

theorem foldlM_play_ran (plain : p.recorder.reuses = false) (keeps : q.recorder.Keeps kept)
    (same : q.tally = p.tally) (items : List Item) :
    Ran kept (played items p) (items.foldlM Item.play p) (items.foldlM Item.play q) := by
  induction items generalizing p q kept with
  | nil => exact .reported trivial same
  | cons item items ih =>
    have hcompared := play_compared plain keeps same item
    rw [List.foldlM_cons, List.foldlM_cons, played]
    generalize item.play p = result at hcompared ⊢
    generalize item.play q = result' at hcompared ⊢
    cases hcompared with
    | refused other => exact .failed trivial other
    | taken steady plain same keeps => exact (ih plain keeps same).after steady
    | short unsteady plain short =>
      refine .short (fun steady => unsteady (steady_append.mp steady).1) ?_ short
      exact fun failure failed => foldlM_play_plain plain failed

end Playback

def Settings.reusing (reuses : Bool) (settings : Settings) : Settings :=
  { settings with replay := { settings.replay with reuseFrameBuffers := reuses } }

/-- A report without the time and without the number of reused buffers. -/
def Report.essence (report : Report) : Report :=
  { report with generatedAt := "", reusedFrameBuffers := 0 }

namespace Playback

variable {disk : Disk} {settings : Settings} {kept : Option Raw.VideoFrame}

/-- The frames in the files are steady, as far as the files are played. -/
def SteadyFiles (disk : Disk) (settings : Settings) : Prop :=
  ∀ core av, Contents disk settings.coreFiles core → Contents disk settings.avFiles av →
    Steady none
      (played (items .core core ++ items .av av) (.start (settings.reusing false)))

theorem Ran.alike_iff {frames : List Raw.VideoFrame} {result result' : Except Failure Progress}
    (ran : Ran kept frames result result') {report report' : Progress → Report}
    (same : ∀ last last' : Progress, last'.tally = last.tally →
      (report' last').essence = (report last).essence) :
    ((result'.map report').map Report.essence = (result.map report).map Report.essence ↔
        Steady kept frames) ∧
      ((∃ failure : Failure, failure.IsShort ∧ result'.map report' = .error failure) ↔
        ¬ Steady kept frames) := by
  cases ran with
  | reported steady tallies =>
    refine ⟨iff_of_true (congrArg Except.ok (same _ _ tallies)) steady, iff_of_false ?_ ?_⟩
    · rintro ⟨failure, -, hfailure⟩
      cases hfailure
    · exact fun unsteady => unsteady steady
  | failed steady other =>
    refine ⟨iff_of_true rfl steady, iff_of_false ?_ fun unsteady => unsteady steady⟩
    rintro ⟨failure, short, hfailure⟩
    cases hfailure
    exact other short
  | short unsteady other short =>
    refine ⟨iff_of_false (fun alike => ?_) unsteady, iff_of_true ⟨_, short, rfl⟩ unsteady⟩
    cases result with
    | ok last => cases alike
    | error failure =>
      cases alike
      exact other _ rfl short

theorem run_compared (generatedAt generatedAt' : String) {core av : List (String × Bytes)}
    (readCore : Contents disk settings.coreFiles core)
    (readAv : Contents disk settings.avFiles av) :
    let frames := played (items .core core ++ items .av av) (.start (settings.reusing false))
    let plain := (run generatedAt' disk (settings.reusing false)).1
    let reusing := (run generatedAt disk (settings.reusing true)).1
    (reusing.map Report.essence = plain.map Report.essence ↔ Steady none frames) ∧
      ((∃ failure : Failure, failure.IsShort ∧ reusing = .error failure) ↔
        ¬ Steady none frames) := by
  intro frames plain reusing
  have keeps : (Progress.start (settings.reusing true)).recorder.Keeps none := .nothing
  have hran := @foldlM_play_ran none (.start (settings.reusing false)) _ rfl keeps rfl
    (items .core core ++ items .av av)
  have hplain : plain = _ :=
    @run_of_contents disk (settings.reusing false) core av generatedAt' readCore readAv
  have hreusing : reusing = _ :=
    @run_of_contents disk (settings.reusing true) core av generatedAt readCore readAv
  rw [hplain, hreusing]
  refine hran.alike_iff fun last last' tallies => ?_
  unfold Report.essence Report.ofTally
  rw [tallies]
  rfl

/-- Reuse makes a difference exactly when there is a frame that is too long. -/
theorem run_reusing (generatedAt generatedAt' : String) (disk : Disk) (settings : Settings) :
    let plain := (run generatedAt' disk (settings.reusing false)).1
    let reusing := (run generatedAt disk (settings.reusing true)).1
    (reusing.map Report.essence = plain.map Report.essence ↔ SteadyFiles disk settings) ∧
      ((∃ failure : Failure, failure.IsShort ∧ reusing = .error failure) ↔
        ¬ SteadyFiles disk settings) := by
  intro plain reusing
  have hmissing {path : String} {error : DiskError}
      (missing : Missing disk (settings.coreFiles ++ settings.avFiles) path error) :
      plain = .error (.batchUnreadable path error) ∧
        reusing = .error (.batchUnreadable path error) :=
    ⟨run_of_missing generatedAt' missing, run_of_missing generatedAt missing⟩
  have hcases := contents_or_missing_append disk settings.coreFiles settings.avFiles
  have hcompared {core av : List (String × Bytes)}
      (readCore : Contents disk settings.coreFiles core)
      (readAv : Contents disk settings.avFiles av) :=
    run_compared generatedAt generatedAt' readCore readAv
  refine ⟨⟨fun alike core av readCore readAv => ?_, fun steady => ?_⟩, fun refused steady => ?_,
    fun unsteady => ?_⟩
  · exact (hcompared readCore readAv).1.mp alike
  · rcases hcases with ⟨core, av, readCore, readAv⟩ | ⟨path, error, missing⟩
    · exact (hcompared readCore readAv).1.mpr (steady core av readCore readAv)
    · rw [(hmissing missing).1, (hmissing missing).2]
  · rcases hcases with ⟨core, av, readCore, readAv⟩ | ⟨path, error, missing⟩
    · exact (hcompared readCore readAv).2.mp refused (steady core av readCore readAv)
    · obtain ⟨failure, ⟨path', rejection, -, rfl⟩, hfailure⟩ := refused
      rw [(hmissing missing).2] at hfailure
      cases hfailure
  · unfold SteadyFiles at unsteady
    simp only [not_forall] at unsteady
    obtain ⟨core, av, readCore, readAv, hunsteady⟩ := unsteady
    exact (hcompared readCore readAv).2.mpr hunsteady

end Playback

namespace Meeting

variable {β : Type}

/-- Reuse makes a difference exactly when a frame is too long for the buffers that are kept for it:
to what comes of a sequence of batches, and to what a playback reports or where it fails. -/
theorem reuse_matters_iff (hub : Hub β) (keeps : Bool) (given : List Feed)
    (generatedAt generatedAt' : String) (disk : Disk) (settings : Settings) :
    let start (reuses : Bool) : Meeting β Recorder Tally :=
      { hub, listener := { reuses }, state := Tally.start keeps }
    let reusing := (Playback.run generatedAt disk (settings.reusing true)).1
    let plain := (Playback.run generatedAt' disk (settings.reusing false)).1
    ((start true).answers given = (start false).answers given ↔
        Steady none (frames ((start false).ledger given 0))) ∧
      (reusing.map Report.essence = plain.map Report.essence ↔
        Playback.SteadyFiles disk settings) ∧
      ((∃ failure : Failure, failure.IsShort ∧ reusing = .error failure) ↔
        ¬ Playback.SteadyFiles disk settings) := by
  intro start reusing plain
  have twins : Twins none (start false) (start true) := ⟨rfl, rfl, .nothing⟩
  exact ⟨answers_eq_iff twins given 0,
    Playback.run_reusing generatedAt generatedAt' disk settings⟩

/-- Two frames of one shape in one batch, of which the second is wider. Each plane is as long as new
buffers for the frame would be. -/
theorem answers_wider_frame :
    let first : Raw.VideoFrame :=
      { friend := 1, width := 2, height := 2, y := [1, 2, 3, 4], u := [5], v := [6],
        yStride := 2, uStride := 1, vStride := 1 }
    let second : Raw.VideoFrame :=
      { friend := 1, width := 4, height := 2, y := [7, 7, 7, 7, 7, 7, 7, 7], u := [8, 8],
        v := [9, 9], yStride := 2, uStride := 1, vStride := 1 }
    let batch : AvBatch := Batch.ofEntries [⟨.videoFrame, first⟩, ⟨.videoFrame, second⟩]
    let given := [Feed.av (some batch.encode)]
    let start (reuses : Bool) : Meeting Script Recorder Tally :=
      { listener := { reuses }, state := Tally.start true }
    FrameBuffers.sizes ⟨2⟩ first.shape = first.planes.lengths ∧
      FrameBuffers.sizes ⟨4⟩ second.shape = second.planes.lengths ∧
      (start true).answers given = [.stopped (.planeTooSmall .y 8 4)] ∧
      (start false).answers given =
        [.received ([first, second].foldl Recorder.tallyFrame (Tally.start true))] ∧
      (start true).answers given ≠ (start false).answers given := by
  intro first second batch given start
  have decoded : Batch.decode AvCategory batch.encode = .ok batch :=
    Batch.decode_encode AvCategory.lawful batch (by decide +kernel)
  have hreusing : (start true).answers given = [.stopped (.planeTooSmall .y 8 4)] := by
    have hturn : (Side.av.turn (some batch.encode) (Tally.start true)).run { reuses := true } =
        (.error (.planeTooSmall .y 8 4), { reuses := true, reused := 1 }) := by
      rw [Side.turn, Handler.turn_of_decoded decoded]
      rfl
    have hanswer : (start true).answer (.av (some batch.encode)) = _ := answer_of_error .av hturn
    rw [answers, answers, hanswer]
  have hplain : (start false).answers given =
      [.received ([first, second].foldl Recorder.tallyFrame (Tally.start true))] := by
    have hturn : (Side.av.turn (some batch.encode) (Tally.start true)).run { reuses := false } =
        (.ok ([first, second].foldl Recorder.tallyFrame (Tally.start true)),
          { reuses := false }) := by
      rw [Side.turn, Handler.turn_of_decoded decoded]
      rfl
    have hanswer : (start false).answer (.av (some batch.encode)) = _ := answer_of_ok .av hturn
    rw [answers, answers, hanswer]
  refine ⟨by decide, by decide, hreusing, hplain, ?_⟩
  rw [hreusing, hplain]
  intro same
  cases same

end Meeting

end ToxEvents
