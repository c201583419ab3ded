import Mathlib.Logic.Function.Basic
import ToxEvents.Replay.Playback
import ToxEvents.Proofs.Delivery.Refusals
import ToxEvents.Proofs.Replay.Accounting
set_option autoImplicit false

namespace ToxEvents
open Wire

namespace Handler

variable {C ε lam σ : Type} [DecidableEq C] [Surface C]

def turn (h : Handler C ε lam σ) : Option Bytes → σ → Turn lam σ
  | none, state => pure state
  | some bytes, state =>
    match Batch.decode C bytes with
    | .error fault => throw (.malformed fault)
    | .ok batch => batch.toEntries.foldlM h.step state

variable {h : Handler C ε lam σ} {bytes : Bytes}

theorem turn_of_malformed {fault : Fault} (decoded : Batch.decode C bytes = .error fault)
    (state : σ) : h.turn (some bytes) state = throw (.malformed fault) := by
  simp only [turn, decoded]

theorem turn_of_decoded {batch : Batch C} (decoded : Batch.decode C bytes = .ok batch)
    (state : σ) : h.turn (some bytes) state = batch.toEntries.foldlM h.step state := by
  simp only [turn, decoded]

theorem Delivers.does {pass : Option Bytes → σ → Pass lam σ} (delivers : h.Delivers pass)
    (given : Option Bytes) (state : σ) : (pass given state).Does (h.turn given state) := by
  cases given with
  | none =>
    rw [delivers.absent]
    exact Pass.does_pure state
  | some bytes =>
    cases decoded : Batch.decode C bytes with
    | error fault =>
      rw [delivers.malformed decoded, turn_of_malformed decoded]
      exact fun _ => rfl
    | ok batch =>
      rw [turn_of_decoded decoded]
      exact delivers.decoded state decoded

theorem turn_ok {given : Option Bytes} {state last : σ} {before left : lam}
    (taken : (h.turn given state).run before = (.ok last, left)) :
    (given = none ∧ last = state ∧ left = before) ∨
      ∃ bytes batch, given = some bytes ∧ Batch.decode C bytes = .ok batch ∧
        (batch.toEntries.foldlM h.step state).run before = (.ok last, left) := by
  cases given with
  | none =>
    cases taken
    exact .inl ⟨rfl, rfl, rfl⟩
  | some bytes =>
    cases decoded : Batch.decode C bytes with
    | error fault =>
      rw [turn_of_malformed decoded] at taken
      cases taken
    | ok batch =>
      rw [turn_of_decoded decoded] at taken
      exact .inr ⟨bytes, batch, rfl, decoded, taken⟩

theorem turn_error {given : Option Bytes} {state : σ} {before left : lam} {rejection : Rejection}
    (failed : (h.turn given state).run before = (.error rejection, left)) :
    (∃ fault, rejection = .malformed fault) ∨ ∃ batch : Batch C,
      (batch.toEntries.foldlM h.step state).run before = (.error rejection, left) := by
  cases given with
  | none => cases failed
  | some bytes =>
    cases decoded : Batch.decode C bytes with
    | error fault =>
      rw [turn_of_malformed decoded] at failed
      cases failed
      exact .inl ⟨fault, rfl⟩
    | ok batch =>
      rw [turn_of_decoded decoded] at failed
      exact .inr ⟨batch, failed⟩

end Handler

/-- The two kinds of batches, each with the session that it is played through. -/
inductive Side where
  | core
  | av
deriving DecidableEq

namespace Side

def kind : Side → String
  | core => "core"
  | av => "AV"

def tick : Side → Step BatchFiles
  | core => .tickCore Playback.coreName
  | av => .tickAv Playback.avName

def failure : Side → String → Rejection → Failure
  | core => .coreRejected
  | av => .avRejected

def pass : Side → Option Bytes → Tally → Pass Recorder Tally
  | core => Recorder.coreListener.receive
  | av => Recorder.avListener.receive

def turn : Side → Option Bytes → Tally → Turn Recorder Tally
  | core => Recorder.coreListener.handler.turn
  | av => Recorder.avListener.handler.turn

theorem does (side : Side) (given : Option Bytes) (tally : Tally) :
    (side.pass given tally).Does (side.turn given tally) := by
  cases side with
  | core => exact (CoreListener.delivers Recorder.coreListener).does given tally
  | av => exact (AvListener.delivers Recorder.avListener).does given tally

end Side

/-- What a playback carries from one file to the next. -/
structure Progress where
  recorder : Recorder
  tally : Tally

def Progress.start (settings : Settings) : Progress where
  recorder := { reuses := settings.replay.reuseFrameBuffers }
  tally := Tally.start settings.output.includeEvents

structure Item where
  side : Side
  path : String
  bytes : Bytes

namespace Item

/-- What the file brings: an empty one stands for a tick without a batch. -/
def batch (bytes : Bytes) : Option Bytes := if bytes.isEmpty then none else some bytes

def dispatch (item : Item) (p : Progress) : Except Rejection Tally × Recorder :=
  (item.side.pass (batch item.bytes) p.tally).outcome { listener := p.recorder }

def play (p : Progress) (item : Item) : Except Failure Progress :=
  match item.dispatch p with
  | (.ok tally, recorder) => .ok ⟨recorder, tally.nextBatch⟩
  | (.error rejection, _) => .error (item.side.failure item.path rejection)

theorem dispatch_eq (item : Item) (p : Progress) :
    item.dispatch p = (item.side.turn (batch item.bytes) p.tally).run p.recorder :=
  item.side.does (batch item.bytes) p.tally { listener := p.recorder }

end Item

namespace Meeting

variable {β lam σ : Type} {pass : Option Bytes → σ → Pass lam σ} {m : Meeting β lam σ}
  {given : Option Bytes} {turn : Turn lam σ} {left : lam}

theorem receive_of_ok {state : σ} (hub : Hub β) (does : (pass given m.state).Does turn)
    (taken : turn.run m.listener = (.ok state, left)) :
    ∃ log, m.receive pass (.ok given, hub) =
      (.received state, { hub := { hub with log }, listener := left, state }) := by
  rcases hrun : (pass given m.state).run { listener := m.listener, log := hub.log }
    with ⟨result, stage⟩
  have houtcome := does { listener := m.listener, log := hub.log }
  rw [Pass.outcome, hrun, taken] at houtcome
  obtain ⟨rfl, rfl⟩ := Prod.mk.inj houtcome
  exact ⟨stage.log, by simp only [receive, hrun]⟩

theorem receive_of_error {rejection : Rejection} (hub : Hub β)
    (does : (pass given m.state).Does turn)
    (refused : turn.run m.listener = (.error rejection, left)) :
    ∃ log, m.receive pass (.ok given, hub) =
      (.stopped rejection, { m with hub := { hub with log }, listener := left }) := by
  rcases hrun : (pass given m.state).run { listener := m.listener, log := hub.log }
    with ⟨result, stage⟩
  have houtcome := does { listener := m.listener, log := hub.log }
  rw [Pass.outcome, hrun, refused] at houtcome
  obtain ⟨rfl, rfl⟩ := Prod.mk.inj houtcome
  exact ⟨stage.log, by simp only [receive, hrun]⟩

end Meeting

namespace Playback

def progress (room : Room) : Progress := ⟨room.listener, room.state⟩

/-- A hub with one open session of each kind, in which the given batches are waiting. -/
def staged (queues : Side → List (Option Bytes)) (happenings : Array Happening) (log : Log) :
    Hub BatchFiles where
  cores := [⟨⟨0, coreName, ⟨queues .core⟩⟩, some ⟨[some ⟨0, .release 0⟩]⟩⟩]
  avs := [{ backend := ⟨1, avName, ⟨queues .av⟩⟩, core := 0, slot := some 0 }]
  coreNames := [(coreName, 0)]
  avNames := [(avName, 0)]
  backends := 2
  registrations := 1
  happenings
  log

def Staged (queues : Side → List (Option Bytes)) (hub : Hub BatchFiles) : Prop :=
  ∃ happenings log, hub = staged queues happenings log

variable {queues : Side → List (Option Bytes)} {hub : Hub BatchFiles} {room : Room} {side : Side}

theorem Staged.log (ready : Staged queues hub) (log : Log) : Staged queues { hub with log } := by
  obtain ⟨happenings, earlier, rfl⟩ := ready
  exact ⟨happenings, log, rfl⟩

theorem tickCore_staged {given : Option Bytes} {later : List (Option Bytes)}
    (waiting : queues .core = given :: later) (happenings : Array Happening) (log : Log) :
    (staged queues happenings log).tickCore 0 =
      (.ok given, staged (Function.update queues .core later)
        (happenings.push (.ticked 0 coreName)) log) := by
  simp [Hub.tickCore, staged, waiting, Source.next, BatchFiles.next, Hub.setCore, Hub.witness]

theorem tickAv_staged {given : Option Bytes} {later : List (Option Bytes)}
    (waiting : queues .av = given :: later) (happenings : Array Happening) (log : Log) :
    (staged queues happenings log).tickAv 0 =
      (.ok given, staged (Function.update queues .av later)
        (happenings.push (.ticked 1 avName)) log) := by
  simp [Hub.tickAv, staged, waiting, Source.next, BatchFiles.next, Hub.setAv, Hub.witness]

theorem core?_staged (happenings : Array Happening) (log : Log) :
    (staged queues happenings log).core? coreName = some 0 := by
  simp [Hub.core?, staged]

theorem av?_staged (happenings : Array Happening) (log : Log) :
    (staged queues happenings log).av? avName = some 0 := by
  simp [Hub.av?, staged]

theorem perform_tick {given : Option Bytes} {later : List (Option Bytes)}
    (ready : Staged queues room.hub) (waiting : queues side = given :: later) :
    ∃ hub, Staged (Function.update queues side later) hub ∧
      room.perform audience side.tick = room.receive side.pass (.ok given, hub) := by
  obtain ⟨happenings, log, hhub⟩ := ready
  cases side with
  | core =>
    refine ⟨_, ⟨happenings.push (.ticked 0 coreName), log, rfl⟩, ?_⟩
    simp only [Meeting.perform, Meeting.withCore, Side.tick, hhub, core?_staged,
      tickCore_staged waiting]
    rfl
  | av =>
    refine ⟨_, ⟨happenings.push (.ticked 1 avName), log, rfl⟩, ?_⟩
    simp only [Meeting.perform, Meeting.withAv, Side.tick, hhub, av?_staged,
      tickAv_staged waiting]
    rfl

/-- One round of the loop does what the next file does by itself. -/
theorem round_of_ok {item : Item} {later : List (Option Bytes)} {next : Progress}
    (ready : Staged queues room.hub) (waiting : queues item.side = Item.batch item.bytes :: later)
    (played : item.play (progress room) = .ok next) :
    ∃ tally after, room.perform audience item.side.tick = (.received tally, after) ∧
      progress { after with state := tally.nextBatch } = next ∧
      Staged (Function.update queues item.side later) after.hub := by
  obtain ⟨hub, hready, hperform⟩ := perform_tick ready waiting
  rcases hdispatch : item.dispatch (progress room) with ⟨result, left⟩
  simp only [Item.play, hdispatch] at played
  rw [Item.dispatch_eq] at hdispatch
  cases result with
  | error rejection => cases played
  | ok tally =>
    obtain ⟨log, hreceive⟩ := Meeting.receive_of_ok hub (item.side.does _ _) hdispatch
    exact ⟨tally, _, hperform.trans hreceive, Except.ok.inj played, hready.log log⟩

theorem round_of_error {item : Item} {later : List (Option Bytes)} {failure : Failure}
    (ready : Staged queues room.hub) (waiting : queues item.side = Item.batch item.bytes :: later)
    (played : item.play (progress room) = .error failure) :
    ∃ rejection after, room.perform audience item.side.tick = (.stopped rejection, after) ∧
      item.side.failure item.path rejection = failure := by
  obtain ⟨hub, -, hperform⟩ := perform_tick ready waiting
  rcases hdispatch : item.dispatch (progress room) with ⟨result, left⟩
  simp only [Item.play, hdispatch] at played
  rw [Item.dispatch_eq] at hdispatch
  cases result with
  | ok tally => cases played
  | error rejection =>
    obtain ⟨log, hreceive⟩ := Meeting.receive_of_error hub (item.side.does _ _) hdispatch
    exact ⟨rejection, _, hperform.trans hreceive, Except.error.inj played⟩

def items (side : Side) (files : List (String × Bytes)) : List Item :=
  files.map fun file => ⟨side, file.1, file.2⟩

def queue (files : List (String × Bytes)) : List (Option Bytes) :=
  files.map fun file => Item.batch file.2

theorem play_eq (side : Side) (files : List (String × Bytes)) (ready : Staged queues room.hub)
    (waiting : queues side = queue files) :
    ∃ left, play side.kind side.tick side.failure (files.map Prod.fst) room =
        (((items side files).foldlM Item.play (progress room)).map fun _ => (), left) ∧
      ∀ reached, (items side files).foldlM Item.play (progress room) = .ok reached →
        progress left = reached ∧ Staged (Function.update queues side []) left.hub := by
  induction files generalizing room queues with
  | nil =>
    refine ⟨room, rfl, fun reached folded => ⟨Except.ok.inj folded, ?_⟩⟩
    rwa [← waiting.trans List.map_nil, Function.update_eq_self]
  | cons file files ih =>
    obtain ⟨path, bytes⟩ := file
    have hnoted : Staged queues (note [announce side.kind path] room).hub := ready.log _
    have hitems :
        items side ((path, bytes) :: files) = ⟨side, path, bytes⟩ :: items side files := rfl
    rw [hitems, List.foldlM_cons, List.map_cons]
    cases hplay : Item.play (progress room) ⟨side, path, bytes⟩ with
    | error failure =>
      obtain ⟨rejection, after, hperform, hfailure⟩ := round_of_error hnoted waiting hplay
      refine ⟨after, ?_, fun reached folded => nomatch folded⟩
      simp only [play, hperform, hfailure]
      rfl
    | ok next =>
      obtain ⟨tally, after, hperform, rfl, hafter⟩ := round_of_ok hnoted waiting hplay
      obtain ⟨left, hleft, hreached⟩ :=
        @ih _ { after with state := tally.nextBatch } hafter (Function.update_self ..)
      refine ⟨left, ?_, fun reached folded => ?_⟩
      · simp only [play, hperform]
        exact hleft
      · obtain ⟨hprogress, hstaged⟩ := hreached reached folded
        exact ⟨hprogress, by rwa [Function.update_idem] at hstaged⟩

end Playback

end ToxEvents
