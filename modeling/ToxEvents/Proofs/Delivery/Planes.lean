import ToxEvents.Proofs.Delivery.Refusals
set_option autoImplicit false

namespace ToxEvents
open Wire

def Raw.VideoFrame.planes (frame : Raw.VideoFrame) : FrameBuffers := ⟨frame.y, frame.u, frame.v⟩

namespace FrameBuffers

structure Overlaid (source target filled : Bytes) : Prop where
  room : source.length ≤ target.length
  length : filled.length = target.length
  front : source <+: filled
  back : filled.drop source.length = target.drop source.length

/-- The planes in which a frame is delivered. -/
inductive Filled (wire : FrameBuffers) : Option FrameBuffers → FrameBuffers → Prop
  | fresh : Filled wire none wire
  | kept {buffers planes : FrameBuffers} (y : Overlaid wire.y buffers.y planes.y)
      (u : Overlaid wire.u buffers.u planes.u) (v : Overlaid wire.v buffers.v planes.v) :
      Filled wire (some buffers) planes

/-- The first plane that is longer than its buffer, with both lengths. -/
inductive ShortAt (wire buffers : FrameBuffers) : Plane → Nat → Nat → Prop
  | y (short : buffers.y.length < wire.y.length) :
      ShortAt wire buffers .y wire.y.length buffers.y.length
  | u (y : wire.y.length ≤ buffers.y.length) (short : buffers.u.length < wire.u.length) :
      ShortAt wire buffers .u wire.u.length buffers.u.length
  | v (y : wire.y.length ≤ buffers.y.length) (u : wire.u.length ≤ buffers.u.length)
      (short : buffers.v.length < wire.v.length) :
      ShortAt wire buffers .v wire.v.length buffers.v.length

variable {plane : Plane} {source target filled : Bytes} {wire buffers planes : FrameBuffers}
  {offered : Option FrameBuffers} {rejection : Rejection}

theorem overlaid_iff : Overlaid source target filled ↔
    source.length ≤ target.length ∧ filled = source ++ target.drop source.length := by
  constructor
  · rintro ⟨room, -, ⟨rest, rfl⟩, back⟩
    rw [List.drop_left] at back
    exact ⟨room, congrArg (source ++ ·) back⟩
  · rintro ⟨room, rfl⟩
    refine ⟨room, ?_, List.prefix_append _ _, List.drop_left⟩
    rw [List.length_append, List.length_drop]
    omega

theorem overwrite_eq_ok_iff :
    overwrite plane source target = .ok filled ↔ Overlaid source target filled := by
  rw [overlaid_iff]
  unfold overwrite
  by_cases short : target.length < source.length
  · rw [if_pos short]
    exact iff_of_false nofun fun room => absurd room.1 (Nat.not_le.mpr short)
  · rw [if_neg short, Except.ok.injEq, and_iff_right (Nat.not_lt.mp short), eq_comm]

theorem filled_of_fill (filled : fill offered wire = .ok planes) : Filled wire offered planes := by
  cases offered with
  | none =>
    cases filled
    exact .fresh
  | some buffers =>
    obtain ⟨y, hy, hrest⟩ := bind_eq_ok filled
    obtain ⟨u, hu, hrest⟩ := bind_eq_ok hrest
    obtain ⟨v, hv, hplanes⟩ := bind_eq_ok hrest
    cases hplanes
    exact .kept (overwrite_eq_ok_iff.mp hy) (overwrite_eq_ok_iff.mp hu) (overwrite_eq_ok_iff.mp hv)

theorem shortAt_of_fill (failed : fill (some buffers) wire = .error rejection) :
    ∃ plane required available, ShortAt wire buffers plane required available ∧
      rejection = .planeTooSmall plane required available := by
  rcases bind_eq_error failed with hy | ⟨y, hy, hrest⟩
  · obtain ⟨short, rfl⟩ := overwrite_eq_error_iff.mp hy
    exact ⟨_, _, _, .y short, rfl⟩
  · have roomY := (overwrite_eq_ok_iff.mp hy).room
    rcases bind_eq_error hrest with hu | ⟨u, hu, hrest⟩
    · obtain ⟨short, rfl⟩ := overwrite_eq_error_iff.mp hu
      exact ⟨_, _, _, .u roomY short, rfl⟩
    · have roomU := (overwrite_eq_ok_iff.mp hu).room
      obtain ⟨short, rfl⟩ := overwrite_eq_error_iff.mp (return_eq_error hrest)
      exact ⟨_, _, _, .v roomY roomU short, rfl⟩

def lengths (buffers : FrameBuffers) : Nat × Nat × Nat :=
  (buffers.y.length, buffers.u.length, buffers.v.length)

def Fits (wire buffers : FrameBuffers) : Prop :=
  wire.y.length ≤ buffers.y.length ∧ wire.u.length ≤ buffers.u.length ∧
    wire.v.length ≤ buffers.v.length

instance (wire buffers : FrameBuffers) : Decidable (wire.Fits buffers) :=
  inferInstanceAs (Decidable (_ ∧ _))

theorem fits_congr {wire buffers others : FrameBuffers} (same : buffers.lengths = others.lengths) :
    wire.Fits buffers ↔ wire.Fits others := by
  simp only [lengths, Prod.mk.injEq] at same
  simp only [Fits, same]

theorem overwrite_of_le (plane : Plane) {source target : Bytes}
    (room : source.length ≤ target.length) :
    ∃ filled, overwrite plane source target = .ok filled ∧ filled.length = target.length := by
  have overlaid := overlaid_iff.mpr ⟨room, rfl⟩
  exact ⟨_, overwrite_eq_ok_iff.mpr overlaid, overlaid.length⟩

theorem fill_of_fits {wire buffers : FrameBuffers} (fits : wire.Fits buffers) :
    ∃ planes, fill (some buffers) wire = .ok planes ∧ planes.lengths = buffers.lengths := by
  obtain ⟨hy, hu, hv⟩ := fits
  obtain ⟨y, hfillY, hlengthY⟩ := overwrite_of_le .y hy
  obtain ⟨u, hfillU, hlengthU⟩ := overwrite_of_le .u hu
  obtain ⟨v, hfillV, hlengthV⟩ := overwrite_of_le .v hv
  refine ⟨⟨y, u, v⟩, ?_, ?_⟩
  · simp only [fill, hfillY, hfillU, hfillV]
    rfl
  · simp only [lengths, hlengthY, hlengthU, hlengthV]

theorem fill_of_not_fits {wire buffers : FrameBuffers} (short : ¬ wire.Fits buffers) :
    ∃ rejection, fill (some buffers) wire = .error rejection ∧ rejection.IsShort := by
  cases hfill : fill (some buffers) wire with
  | ok planes =>
    cases filled_of_fill hfill with
    | kept y u v => exact (short ⟨y.room, u.room, v.room⟩).elim
  | error rejection => exact ⟨rejection, rfl, (fill_error hfill).2⟩

end FrameBuffers

/-- What a listener has to do with a pass: it is asked for buffers, or told of an event. -/
inductive Contact (σ : Type) where
  | asked (shape : FrameShape) (offered : Option FrameBuffers)
  | told (call : Invocation AvEvent σ)

section
variable {σ : Type}

/-- The contacts that one record brings, and what comes of it. -/
inductive Handled (state : σ) :
    Entry AvCategory → List (Contact σ) → Except Rejection σ → Prop
  | event {entry : Entry AvCategory} {event : AvEvent} {answer : σ} (other : entry.1 ≠ .videoFrame)
      (made : AvEvent.ofRecord none entry.1 entry.2 = .ok event) :
      Handled state entry [.told ⟨event, state, answer⟩] (.ok answer)
  | flawed {entry : Entry AvCategory} {rejection : Rejection} (other : entry.1 ≠ .videoFrame)
      (made : AvEvent.ofRecord none entry.1 entry.2 = .error rejection) :
      Handled state entry [] (.error rejection)
  | frame {frame : Raw.VideoFrame} {shape : FrameShape} {offered : Option FrameBuffers}
      {planes : FrameBuffers} {answer : σ}
      (own : shape = ⟨⟨frame.height⟩, frame.yStride, frame.uStride, frame.vStride⟩)
      (filled : FrameBuffers.Filled ⟨frame.y, frame.u, frame.v⟩ offered planes) :
      Handled state ⟨.videoFrame, frame⟩
        [.asked shape offered,
          .told ⟨.videoFrame ⟨frame.friend⟩ ⟨⟨frame.width⟩, shape, planes⟩, state, answer⟩]
        (.ok answer)
  | short {frame : Raw.VideoFrame} {shape : FrameShape} {buffers : FrameBuffers} {plane : Plane}
      {required available : Nat}
      (own : shape = ⟨⟨frame.height⟩, frame.yStride, frame.uStride, frame.vStride⟩)
      (short : FrameBuffers.ShortAt ⟨frame.y, frame.u, frame.v⟩ buffers plane required available) :
      Handled state ⟨.videoFrame, frame⟩ [.asked shape (some buffers)]
        (.error (.planeTooSmall plane required available))

/-- The contacts that records bring in turn, up to the first that is refused. -/
inductive Chronicle :
    List (Entry AvCategory) → σ → List (Contact σ) → Except Rejection σ → Prop
  | nil {state : σ} : Chronicle [] state [] (.ok state)
  | cons {entry : Entry AvCategory} {entries : List (Entry AvCategory)} {state answer : σ}
      {contacts others : List (Contact σ)} {ended : Except Rejection σ}
      (handled : Handled state entry contacts (.ok answer))
      (later : Chronicle entries answer others ended) :
      Chronicle (entry :: entries) state (contacts ++ others) ended
  | stop {entry : Entry AvCategory} {entries : List (Entry AvCategory)} {state : σ}
      {contacts : List (Contact σ)} {rejection : Rejection}
      (handled : Handled state entry contacts (.error rejection)) :
      Chronicle (entry :: entries) state contacts (.error rejection)

/-- What a listener hears of what it is given, once that has been decoded. -/
inductive Reception (state : σ) :
    Option (Except Fault AvBatch) → List (Contact σ) → Except Rejection σ → Prop
  | absent : Reception state none [] (.ok state)
  | malformed {fault : Fault} : Reception state (some (.error fault)) [] (.error (.malformed fault))
  | batch {batch : AvBatch} {contacts : List (Contact σ)} {ended : Except Rejection σ}
      (chronicle : Chronicle batch.toEntries state contacts ended) :
      Reception state (some (.ok batch)) contacts ended

end

namespace AvListener

variable {lam σ : Type} (listener : AvListener lam σ)

def logging : AvListener (lam × List (Contact σ)) σ where
  onEvent event state := fun (before, contacts) =>
    let (answer, left) := listener.onEvent event state before
    (answer, (left, contacts ++ [.told ⟨event, state, answer⟩]))
  buffers shape := fun (before, contacts) =>
    let (offered, left) := listener.buffers shape before
    (offered, (left, contacts ++ [.asked shape offered]))

theorem translate_other {entry : Entry AvCategory} (other : entry.1 ≠ .videoFrame) (before : lam) :
    (listener.handler.translate entry).run before =
      (AvEvent.ofRecord none entry.1 entry.2, before) := by
  obtain ⟨c, record⟩ := entry
  cases c
  case videoFrame => exact (other rfl).elim
  all_goals rfl

theorem translate_videoFrame (frame : Raw.VideoFrame) (before : lam) :
    (listener.handler.translate ⟨.videoFrame, frame⟩).run before =
      ((FrameBuffers.fill (listener.buffers frame.shape before).1 ⟨frame.y, frame.u, frame.v⟩).map
        fun planes => .videoFrame ⟨frame.friend⟩ ⟨⟨frame.width⟩, frame.shape, planes⟩,
          (listener.buffers frame.shape before).2) := rfl

theorem buffers_logging (shape : FrameShape) (before : lam) (earlier : List (Contact σ)) :
    listener.logging.buffers shape (before, earlier) =
      ((listener.buffers shape before).1, ((listener.buffers shape before).2,
        earlier ++ [.asked shape (listener.buffers shape before).1])) := rfl

theorem step_logging_frame (state : σ) (frame : Raw.VideoFrame) (before : lam)
    (earlier : List (Contact σ)) :
    ∃ contacts,
      (listener.logging.handler.step state ⟨.videoFrame, frame⟩).run (before, earlier) =
        (((listener.handler.step state ⟨.videoFrame, frame⟩).run before).1,
          (((listener.handler.step state ⟨.videoFrame, frame⟩).run before).2,
            earlier ++ contacts)) ∧
      Handled state ⟨.videoFrame, frame⟩ contacts
        ((listener.handler.step state ⟨.videoFrame, frame⟩).run before).1 := by
  have hplain := listener.translate_videoFrame frame before
  have hlogging := listener.logging.translate_videoFrame frame (before, earlier)
  rw [buffers_logging] at hlogging
  generalize (listener.buffers frame.shape before).1 = offered at hplain hlogging
  generalize (listener.buffers frame.shape before).2 = mid at hplain hlogging
  cases hfill : FrameBuffers.fill offered ⟨frame.y, frame.u, frame.v⟩ with
  | error rejection =>
    rw [hfill] at hplain hlogging
    rw [Handler.step_of_rejected hplain, Handler.step_of_rejected hlogging]
    obtain ⟨buffers, rfl⟩ := Option.ne_none_iff_exists'.mp (FrameBuffers.fill_error hfill).1
    obtain ⟨plane, required, available, short, rfl⟩ := FrameBuffers.shortAt_of_fill hfill
    exact ⟨_, rfl, .short rfl short⟩
  | ok planes =>
    rw [hfill] at hplain hlogging
    rw [Handler.step_of_translated hplain, Handler.step_of_translated hlogging]
    have hfilled := FrameBuffers.filled_of_fill hfill
    refine ⟨[.asked _ offered, .told ⟨_, state, _⟩], ?_, .frame rfl hfilled⟩
    change (Except.ok _, (_, earlier ++ [_] ++ [_])) = _
    rw [List.append_assoc]
    rfl

/-- What comes of one record, and the contacts that it brings. -/
theorem step_logging (state : σ) (entry : Entry AvCategory) (before : lam)
    (earlier : List (Contact σ)) :
    ∃ contacts,
      (listener.logging.handler.step state entry).run (before, earlier) =
        (((listener.handler.step state entry).run before).1,
          (((listener.handler.step state entry).run before).2, earlier ++ contacts)) ∧
      Handled state entry contacts ((listener.handler.step state entry).run before).1 := by
  by_cases other : entry.1 = .videoFrame
  · obtain ⟨c, frame⟩ := entry
    obtain rfl : c = .videoFrame := other
    exact listener.step_logging_frame state frame before earlier
  · have hplain := listener.translate_other other before
    have hlogging := listener.logging.translate_other other (before, earlier)
    cases made : AvEvent.ofRecord none entry.1 entry.2 with
    | error rejection =>
      rw [made] at hplain hlogging
      rw [Handler.step_of_rejected hplain, Handler.step_of_rejected hlogging]
      exact ⟨[], by rw [List.append_nil], .flawed other made⟩
    | ok event =>
      rw [made] at hplain hlogging
      rw [Handler.step_of_translated hplain, Handler.step_of_translated hlogging]
      exact ⟨_, rfl, .event other made⟩

/-- Writing contacts down changes nothing else, and what is written is a chronicle. -/
theorem exists_chronicle (entries : List (Entry AvCategory)) (state : σ) (before : lam)
    (earlier : List (Contact σ)) :
    ∃ contacts,
      (entries.foldlM listener.logging.handler.step state).run (before, earlier) =
        (((entries.foldlM listener.handler.step state).run before).1,
          (((entries.foldlM listener.handler.step state).run before).2, earlier ++ contacts)) ∧
      Chronicle entries state contacts
        ((entries.foldlM listener.handler.step state).run before).1 := by
  induction entries generalizing state before earlier with
  | nil => exact ⟨[], by rw [List.append_nil]; rfl, .nil⟩
  | cons entry entries ih =>
    obtain ⟨contacts, hlogging, handled⟩ := listener.step_logging state entry before earlier
    rw [List.foldlM_cons, List.foldlM_cons]
    rcases hstep : (listener.handler.step state entry).run before with ⟨result, mid⟩
    rw [hstep] at hlogging handled
    cases result with
    | error rejection =>
      refine ⟨contacts, ?_, ?_⟩
      · rw [run_bind_of_error hlogging, run_bind_of_error hstep]
      · rw [run_bind_of_error hstep]
        exact .stop handled
    | ok answer =>
      obtain ⟨others, hfold, later⟩ := ih answer mid (earlier ++ contacts)
      refine ⟨contacts ++ others, ?_, ?_⟩
      · rw [run_bind_of_ok hlogging, run_bind_of_ok hstep, hfold, List.append_assoc]
      · rw [run_bind_of_ok hstep]
        exact .cons handled later

end AvListener

/-- Whatever a listener is given, and whatever it does, it is asked for buffers directly before each
frame and at no other time, and the frame comes in what it offered; what is written down of this is
what happens to the listener that does not write. -/
theorem frames_delivered {lam σ : Type} (listener : AvListener lam σ) (given : Option Bytes)
    (state : σ) (stage : Stage lam) :
    ∃ contacts,
      (listener.logging.receive given state).outcome ⟨(stage.listener, []), stage.log⟩ =
        (((listener.receive given state).outcome stage).1,
          (((listener.receive given state).outcome stage).2, contacts)) ∧
      Reception state (given.map (Batch.decode AvCategory)) contacts
        ((listener.receive given state).outcome stage).1 := by
  cases given with
  | none => exact ⟨[], rfl, .absent⟩
  | some bytes =>
    rw [Option.map_some]
    cases decoded : Batch.decode AvCategory bytes with
    | error fault =>
      simp only [AvListener.receive, decoded]
      exact ⟨[], rfl, .malformed⟩
    | ok batch =>
      obtain ⟨contacts, hfold, chronicle⟩ :=
        listener.exists_chronicle batch.toEntries state stage.listener []
      rw [listener.does_receive decoded state, listener.logging.does_receive decoded state]
      exact ⟨contacts, hfold, .batch chronicle⟩

end ToxEvents
