import ToxEvents.Proofs.Delivery.Planes
import ToxEvents.Proofs.Replay.Playing
set_option autoImplicit false

/-!
# Frames in kept buffers

A recorder that reuses buffers puts a frame into those of an earlier frame of the same shape. A
shape is a height and three strides; it does not tell how long the planes are. Frames are steady if
none has a plane that is longer than that of the first frame of its shape since the shape changed.
Over steady frames a recorder that reuses buffers does what one does that takes new ones; over
others it does not, for it refuses the first frame that is too long.
-/
namespace ToxEvents
open Wire

/-- The frame from which the kept buffers are, after one more frame. -/
def keptAfter : Option Raw.VideoFrame → Raw.VideoFrame → Option Raw.VideoFrame
  | none, frame => some frame
  | some first, frame => some (if first.shape = frame.shape then first else frame)

theorem keptAfter_of_same {first frame : Raw.VideoFrame} (same : first.shape = frame.shape) :
    keptAfter (some first) frame = some first := congrArg some (if_pos same)

theorem keptAfter_of_other {first frame : Raw.VideoFrame} (other : first.shape ≠ frame.shape) :
    keptAfter (some first) frame = some frame := congrArg some (if_neg other)

/-- No frame has a plane longer than that of the frame whose buffers are offered for it. -/
def Steady : Option Raw.VideoFrame → List Raw.VideoFrame → Prop
  | _, [] => True
  | kept, frame :: later =>
    (∀ first ∈ kept, first.shape = frame.shape → frame.planes.Fits first.planes) ∧
      Steady (keptAfter kept frame) later

instance decidableSteady : (kept : Option Raw.VideoFrame) → (frames : List Raw.VideoFrame) →
    Decidable (Steady kept frames)
  | _, [] => isTrue trivial
  | kept, frame :: later =>
    have := decidableSteady (keptAfter kept frame) later
    inferInstanceAs (Decidable (_ ∧ _))

theorem steady_append {kept : Option Raw.VideoFrame} {frames later : List Raw.VideoFrame} :
    Steady kept (frames ++ later) ↔
      Steady kept frames ∧ Steady (frames.foldl keptAfter kept) later := by
  induction frames generalizing kept with
  | nil => exact (and_iff_right trivial).symm
  | cons frame frames ih =>
    simp only [List.cons_append, Steady, List.foldl_cons, ih, and_assoc]

/-- A frame of another shape in between makes room for longer planes. -/
example :
    let short : Raw.VideoFrame := { height := 2, y := [1, 2] }
    let long : Raw.VideoFrame := { height := 2, y := [1, 2, 3, 4] }
    ¬ Steady none [short, long] ∧ Steady none [long, short, long] ∧
      Steady none [short, { height := 3 }, long] := by
  decide

def Turn.Blind {lam α : Type} (turn : Turn lam α) : Prop :=
  ∃ result, ∀ listener, turn.run listener = (result, listener)

namespace Turn

variable {lam α β ρ σ : Type}

theorem Blind.bind {first : Turn lam α} {next : α → Turn lam β} (blind : first.Blind)
    (others : ∀ a, (next a).Blind) : (first >>= next).Blind := by
  obtain ⟨result, hfirst⟩ := blind
  cases result with
  | error rejection => exact ⟨.error rejection, fun l => run_bind_of_error (hfirst l)⟩
  | ok a =>
    obtain ⟨last, hnext⟩ := others a
    exact ⟨last, fun l => (run_bind_of_ok (hfirst l)).trans (hnext l)⟩

theorem blind_foldlM {step : σ → ρ → Turn lam σ} {xs : List ρ}
    (blind : ∀ state, ∀ x ∈ xs, (step state x).Blind) (state : σ) :
    (xs.foldlM step state).Blind := by
  induction xs generalizing state with
  | nil => exact ⟨.ok state, fun _ => rfl⟩
  | cons x xs ih =>
    rw [List.foldlM_cons]
    refine (blind state x List.mem_cons_self).bind fun next => ih (fun state y member => ?_) next
    exact blind state y (List.mem_cons_of_mem x member)

end Turn

namespace Recorder

inductive Keeps : Recorder → Option Raw.VideoFrame → Prop
  | nothing {reused : Nat} : Keeps ⟨true, none, reused⟩ none
  | buffers {first : Raw.VideoFrame} {planes : FrameBuffers} {reused : Nat}
      (same : planes.lengths = first.planes.lengths) :
      Keeps ⟨true, some (first.shape, planes), reused⟩ (some first)

theorem coreStep_blind (t : Tally) (entry : Entry CoreCategory) :
    (coreListener.handler.step t entry).Blind := by
  have hrecord : (coreListener.handler.translate entry).Blind :=
    ⟨CoreEvent.ofRecord entry.1 entry.2, fun _ => rfl⟩
  exact hrecord.bind fun event => ⟨.ok _, fun _ => rfl⟩

theorem avStep_eq (t : Tally) {entry : Entry AvCategory} (other : entry.1 ≠ .videoFrame)
    (r : Recorder) :
    (avListener.handler.step t entry).run r =
      ((AvEvent.ofRecord none entry.1 entry.2).map fun event => tallyAv event t, r) := by
  have htranslate := avListener.translate_other other r
  cases made : AvEvent.ofRecord none entry.1 entry.2 with
  | error rejection =>
    rw [made] at htranslate
    exact Handler.step_of_rejected htranslate
  | ok event =>
    rw [made] at htranslate
    have hcategory := AvEvent.category_ofRecord made
    rw [Handler.step_of_translated htranslate]
    cases event
    case videoFrame => exact (other hcategory.symm).elim
    all_goals rfl

theorem avStep_blind (t : Tally) {entry : Entry AvCategory} (other : entry.1 ≠ .videoFrame) :
    (avListener.handler.step t entry).Blind := ⟨_, avStep_eq t other⟩

/-- The tally after a frame, which does not depend on the buffers in which the frame is. -/
def tallyFrame (t : Tally) (frame : Raw.VideoFrame) : Tally :=
  tallyAv (.videoFrame ⟨frame.friend⟩ ⟨⟨frame.width⟩, frame.shape, frame.planes⟩) t

theorem others_error {entries : List (Entry AvCategory)}
    (others : ∀ entry ∈ entries, entry.1 ≠ .videoFrame) {t : Tally} {before left : Recorder}
    {rejection : Rejection}
    (failed : (entries.foldlM avListener.handler.step t).run before = (.error rejection, left)) :
    rejection.OfValue := by
  obtain ⟨entry, member, mid, after, htranslate⟩ := Handler.foldlM_error failed
  rw [avListener.translate_other (others entry member)] at htranslate
  rcases AvEvent.ofRecord_error (congrArg Prod.fst htranslate) with own | ⟨offered, -⟩
  · exact own
  · exact (offered rfl).elim

variable {r : Recorder} {frame : Raw.VideoFrame} {kept : Option Raw.VideoFrame}

theorem translate_frame (frame : Raw.VideoFrame) (r : Recorder) :
    (avListener.handler.translate ⟨.videoFrame, frame⟩).run r =
      ((FrameBuffers.fill (r.offer frame.shape).1 frame.planes).map fun planes =>
        .videoFrame ⟨frame.friend⟩ ⟨⟨frame.width⟩, frame.shape, planes⟩,
          (r.offer frame.shape).2) := avListener.translate_videoFrame frame r

theorem frameStep_of_ok (t : Tally) {planes : FrameBuffers}
    (filled : FrameBuffers.fill (r.offer frame.shape).1 frame.planes = .ok planes) :
    (avListener.handler.step t ⟨.videoFrame, frame⟩).run r =
      (.ok (tallyFrame t frame),
        (r.offer frame.shape).2.keep ⟨⟨frame.width⟩, frame.shape, planes⟩) := by
  have htranslate := translate_frame frame r
  rw [filled] at htranslate
  exact Handler.step_of_translated htranslate

theorem frameStep_of_error (t : Tally) {rejection : Rejection}
    (refused : FrameBuffers.fill (r.offer frame.shape).1 frame.planes = .error rejection) :
    (avListener.handler.step t ⟨.videoFrame, frame⟩).run r =
      (.error rejection, (r.offer frame.shape).2) := by
  have htranslate := translate_frame frame r
  rw [refused] at htranslate
  exact Handler.step_of_rejected htranslate

theorem frameStep_plain (t : Tally) (plain : r.reuses = false) :
    (avListener.handler.step t ⟨.videoFrame, frame⟩).run r = (.ok (tallyFrame t frame), r) := by
  have hoffer : r.offer frame.shape = (none, r) := by
    simp [offer, plain]
  have hfill : FrameBuffers.fill (r.offer frame.shape).1 frame.planes = .ok frame.planes := by
    rw [hoffer]
    rfl
  rw [frameStep_of_ok t hfill, hoffer]
  simp [keep, plain]

theorem offer_same {first shape : FrameShape} (planes : FrameBuffers) (reused : Nat)
    (same : first = shape) :
    offer shape ⟨true, some (first, planes), reused⟩ =
      (some planes, ⟨true, none, reused + 1⟩) := by
  simp [offer, same]

theorem offer_other {first shape : FrameShape} (planes : FrameBuffers) (reused : Nat)
    (other : first ≠ shape) :
    offer shape ⟨true, some (first, planes), reused⟩ = (none, ⟨true, none, reused⟩) := by
  simp [offer, other]

theorem frameStep_steady (t : Tally) (keeps : r.Keeps kept)
    (steady : ∀ first ∈ kept, first.shape = frame.shape → frame.planes.Fits first.planes) :
    ∃ left, (avListener.handler.step t ⟨.videoFrame, frame⟩).run r =
      (.ok (tallyFrame t frame), left) ∧ left.Keeps (keptAfter kept frame) := by
  cases keeps with
  | nothing => exact ⟨_, frameStep_of_ok t rfl, .buffers rfl⟩
  | @buffers first planes reused same =>
    by_cases hshape : first.shape = frame.shape
    · have hoffer := offer_same planes reused hshape
      have hfits := (FrameBuffers.fits_congr same).mpr (steady first rfl hshape)
      obtain ⟨filled, hfill, hlengths⟩ := FrameBuffers.fill_of_fits hfits
      rw [keptAfter_of_same hshape]
      refine ⟨_, frameStep_of_ok t (by rw [hoffer]; exact hfill), ?_⟩
      rw [hoffer, ← hshape]
      exact .buffers (hlengths.trans same)
    · have hoffer := offer_other planes reused hshape
      rw [keptAfter_of_other hshape]
      refine ⟨_, frameStep_of_ok t (by rw [hoffer]; rfl), ?_⟩
      rw [hoffer]
      exact .buffers rfl

theorem frameStep_short (t : Tally) {first : Raw.VideoFrame} (keeps : r.Keeps (some first))
    (shape : first.shape = frame.shape) (short : ¬ frame.planes.Fits first.planes) :
    ∃ rejection left, rejection.IsShort ∧
      (avListener.handler.step t ⟨.videoFrame, frame⟩).run r = (.error rejection, left) := by
  cases keeps with
  | @buffers _ planes reused same =>
    have hoffer := offer_same planes reused shape
    obtain ⟨rejection, hfill, hshort⟩ :=
      FrameBuffers.fill_of_not_fits fun fits => short ((FrameBuffers.fits_congr same).mp fits)
    exact ⟨rejection, _, hshort, frameStep_of_error t (by rw [hoffer]; exact hfill)⟩

variable {p : Recorder}

theorem foldlM_frames_plain (plain : p.reuses = false) (frames : List Raw.VideoFrame) (t : Tally) :
    ((frames.map (Sigma.mk AvCategory.videoFrame)).foldlM avListener.handler.step t).run p =
      (.ok (frames.foldl tallyFrame t), p) := by
  induction frames generalizing t with
  | nil => rfl
  | cons frame frames ih =>
    rw [List.map_cons, List.foldlM_cons, run_bind_of_ok (frameStep_plain t plain)]
    exact ih (tallyFrame t frame)

theorem foldlM_frames_steady {frames : List Raw.VideoFrame} (t : Tally) (keeps : r.Keeps kept)
    (steady : Steady kept frames) :
    ∃ left,
      ((frames.map (Sigma.mk AvCategory.videoFrame)).foldlM avListener.handler.step t).run r =
        (.ok (frames.foldl tallyFrame t), left) ∧ left.Keeps (frames.foldl keptAfter kept) := by
  induction frames generalizing t r kept with
  | nil => exact ⟨r, rfl, keeps⟩
  | cons frame frames ih =>
    obtain ⟨mid, hstep, hmid⟩ := frameStep_steady t keeps steady.1
    rw [List.map_cons, List.foldlM_cons, run_bind_of_ok hstep]
    exact ih (tallyFrame t frame) hmid steady.2

theorem foldlM_frames_short {frames : List Raw.VideoFrame} (t : Tally) (keeps : r.Keeps kept)
    (short : ¬ Steady kept frames) :
    ∃ rejection left, rejection.IsShort ∧
      ((frames.map (Sigma.mk AvCategory.videoFrame)).foldlM avListener.handler.step t).run r =
        (.error rejection, left) := by
  induction frames generalizing t r kept with
  | nil => exact (short trivial).elim
  | cons frame frames ih =>
    rw [List.map_cons, List.foldlM_cons]
    by_cases hfirst : ∀ first ∈ kept, first.shape = frame.shape → frame.planes.Fits first.planes
    · obtain ⟨mid, hstep, hmid⟩ := frameStep_steady t keeps hfirst
      rw [run_bind_of_ok hstep]
      exact ih (tallyFrame t frame) hmid fun later => short ⟨hfirst, later⟩
    · simp only [not_forall] at hfirst
      obtain ⟨first, hkept, hshape, hshort⟩ := hfirst
      obtain rfl := hkept
      obtain ⟨rejection, left, hrejection, hstep⟩ := frameStep_short t keeps hshape hshort
      exact ⟨rejection, left, hrejection, run_bind_of_error hstep⟩

end Recorder

theorem Batch.toEntries_frames (batch : AvBatch) :
    ∃ others : List (Entry AvCategory), (∀ entry ∈ others, entry.1 ≠ .videoFrame) ∧
      batch.toEntries = others ++ (batch .videoFrame).map (Sigma.mk .videoFrame) := by
  refine ⟨[AvCategory.call, .callState, .audioBitRate, .videoBitRate, .audioFrame].flatMap
    fun c => (batch c).map (Sigma.mk c), ?_, ?_⟩
  · intro entry member
    obtain ⟨c, hc, hentry⟩ := List.mem_flatMap.mp member
    obtain ⟨record, -, rfl⟩ := List.mem_map.mp hentry
    rintro ⟨⟩
    exact absurd hc (by decide)
  · have hall : AvCategory.all =
        [.call, .callState, .audioBitRate, .videoBitRate, .audioFrame] ++ [.videoFrame] := rfl
    change AvCategory.all.flatMap _ = _
    rw [hall, List.flatMap_append, List.flatMap_singleton]

def Side.frames (side : Side) (given : Option Bytes) : List Raw.VideoFrame :=
  match side with
  | core => []
  | av => (given.bind fun bytes => (Batch.decode AvCategory bytes).toOption).elim []
    fun batch => batch .videoFrame

theorem Side.frames_of_decoded {bytes : Bytes} {batch : AvBatch}
    (decoded : Batch.decode AvCategory bytes = .ok batch) :
    av.frames (some bytes) = batch .videoFrame := by
  rw [frames, Option.bind_some, decoded]
  rfl

/-- What two recorders make of one batch, of which the second reuses buffers. -/
inductive Compared (kept : Option Raw.VideoFrame) (frames : List Raw.VideoFrame) (p r : Recorder) :
    Except Rejection Tally × Recorder → Except Rejection Tally × Recorder → Prop
  | refused {rejection : Rejection} (other : ¬ rejection.IsShort) :
      Compared kept frames p r (.error rejection, p) (.error rejection, r)
  | taken (tally : Tally) {left : Recorder} (steady : Steady kept frames)
      (keeps : left.Keeps (frames.foldl keptAfter kept)) :
      Compared kept frames p r (.ok tally, p) (.ok tally, left)
  | short (tally : Tally) {rejection : Rejection} {left : Recorder}
      (unsteady : ¬ Steady kept frames) (short : rejection.IsShort) :
      Compared kept frames p r (.ok tally, p) (.error rejection, left)

section
variable {p r : Recorder} {kept : Option Raw.VideoFrame}

theorem compared_of_blind {turn : Turn Recorder Tally} (blind : turn.Blind)
    (others : ∀ rejection left, turn.run p = (.error rejection, left) → ¬ rejection.IsShort)
    (keeps : r.Keeps kept) : Compared kept [] p r (turn.run p) (turn.run r) := by
  obtain ⟨result, hturn⟩ := blind
  rw [hturn, hturn]
  cases result with
  | error rejection => exact .refused (others rejection p (hturn p))
  | ok tally => exact .taken tally trivial keeps

theorem compared_core (keeps : r.Keeps kept) (batch : CoreBatch) (t : Tally) :
    Compared kept [] p r
      ((batch.toEntries.foldlM Recorder.coreListener.handler.step t).run p)
      ((batch.toEntries.foldlM Recorder.coreListener.handler.step t).run r) :=
  compared_of_blind (Turn.blind_foldlM (fun t entry _ => Recorder.coreStep_blind t entry) t)
    (fun _ _ failed => (CoreListener.foldlM_error failed).not_isShort) keeps

theorem compared_av (plain : p.reuses = false) (keeps : r.Keeps kept) (batch : AvBatch)
    (t : Tally) :
    Compared kept (batch .videoFrame) p r
      ((batch.toEntries.foldlM Recorder.avListener.handler.step t).run p)
      ((batch.toEntries.foldlM Recorder.avListener.handler.step t).run r) := by
  obtain ⟨others, hothers, hentries⟩ := batch.toEntries_frames
  obtain ⟨result, hblind⟩ := Turn.blind_foldlM
    (fun t entry member => Recorder.avStep_blind t (hothers entry member)) t
  rw [hentries, List.foldlM_append]
  cases result with
  | error rejection =>
    have own := Recorder.others_error hothers (hblind p)
    rw [run_bind_of_error (hblind p), run_bind_of_error (hblind r)]
    exact .refused own.not_isShort
  | ok mid =>
    rw [run_bind_of_ok (hblind p), run_bind_of_ok (hblind r),
      Recorder.foldlM_frames_plain plain]
    by_cases steady : Steady kept (batch .videoFrame)
    · obtain ⟨left, hfold, hleft⟩ := Recorder.foldlM_frames_steady mid keeps steady
      rw [hfold]
      exact .taken _ steady hleft
    · obtain ⟨rejection, left, hshort, hfold⟩ := Recorder.foldlM_frames_short mid keeps steady
      rw [hfold]
      exact .short _ steady hshort

theorem Side.compared (side : Side) (given : Option Bytes) (t : Tally) (plain : p.reuses = false)
    (keeps : r.Keeps kept) :
    Compared kept (side.frames given) p r ((side.turn given t).run p)
      ((side.turn given t).run r) := by
  cases given with
  | none => cases side <;> exact .taken t trivial keeps
  | some bytes =>
    cases side with
    | core =>
      cases decoded : Batch.decode CoreCategory bytes with
      | error fault =>
        rw [turn, Handler.turn_of_malformed decoded]
        exact .refused nofun
      | ok batch =>
        rw [turn, Handler.turn_of_decoded decoded]
        exact compared_core keeps batch t
    | av =>
      cases decoded : Batch.decode AvCategory bytes with
      | error fault =>
        rw [turn, Handler.turn_of_malformed decoded]
        exact .refused nofun
      | ok batch =>
        rw [turn, Handler.turn_of_decoded decoded, frames_of_decoded decoded]
        exact compared_av plain keeps batch t

end

end ToxEvents
