import ToxEvents.Proofs.Replay.Reuse
set_option autoImplicit false

namespace ToxEvents
open Wire

/-- How many of the frames have the shape of the frame directly before them. -/
def repeats (frames : List Raw.VideoFrame) : Nat :=
  (frames.zip frames.tail).countP fun pair => pair.1.shape = pair.2.shape

theorem repeats_cons_cons (first second : Raw.VideoFrame) (later : List Raw.VideoFrame) :
    repeats (first :: second :: later) =
      repeats (second :: later) + if first.shape = second.shape then 1 else 0 := by
  simp [repeats, List.countP_cons]

def lastShape (frames : List Raw.VideoFrame) : Option FrameShape :=
  frames.getLast?.map Raw.VideoFrame.shape

theorem lastShape_concat (frames : List Raw.VideoFrame) (frame : Raw.VideoFrame) :
    lastShape (frames ++ [frame]) = some frame.shape := by
  rw [lastShape, List.getLast?_concat, Option.map_some]

theorem repeats_concat (frames : List Raw.VideoFrame) (frame : Raw.VideoFrame) :
    repeats (frames ++ [frame]) =
      repeats frames + if lastShape frames = some frame.shape then 1 else 0 := by
  induction frames with
  | nil => rfl
  | cons first later ih =>
    cases later with
    | nil =>
      rw [List.singleton_append, repeats_cons_cons]
      simp [repeats, lastShape]
    | cons second later =>
      have hlast : lastShape (first :: second :: later) = lastShape (second :: later) := by
        rw [lastShape, List.getLast?_cons_cons, lastShape]
      rw [List.cons_append] at ih
      rw [List.cons_append, List.cons_append, repeats_cons_cons, ih, repeats_cons_cons, hlast]
      omega

namespace Recorder

variable {r left : Recorder} {reuses : Bool} {frames : List Raw.VideoFrame}
  {frame : Raw.VideoFrame} {t last : Tally}

/-- The recorder was handed these frames since it was new. -/
structure Recycles (reuses : Bool) (frames : List Raw.VideoFrame) (r : Recorder) : Prop where
  mode : r.reuses = reuses
  spare : r.spare.map Prod.fst = if reuses then lastShape frames else none
  reused : r.reused = if reuses then repeats frames else 0

theorem Recycles.start (reuses : Bool) : Recycles reuses [] { reuses } where
  mode := rfl
  spare := by cases reuses <;> rfl
  reused := by cases reuses <;> rfl

theorem offer_reuses (shape : FrameShape) (r : Recorder) :
    (r.offer shape).2.reuses = r.reuses := by
  unfold offer
  split
  · split
    · split <;> rfl
    · rfl
  · rfl

/-- A reuse is counted when the buffers at hand are of the wanted shape. -/
theorem offer_reused (shape : FrameShape) (on : r.reuses = true) :
    (r.offer shape).2.reused =
      r.reused + if r.spare.map Prod.fst = some shape then 1 else 0 := by
  obtain ⟨on', spare, reused⟩ := r
  obtain rfl : on' = true := on
  cases spare with
  | none => rfl
  | some kept =>
    obtain ⟨first, planes⟩ := kept
    by_cases same : first = shape
    · rw [offer_same planes reused same]
      simp [same]
    · rw [offer_other planes reused same]
      simp [same]

theorem frameStep_left
    (taken : (avListener.handler.step t ⟨.videoFrame, frame⟩).run r = (.ok last, left)) :
    ∃ planes, left = (r.offer frame.shape).2.keep ⟨⟨frame.width⟩, frame.shape, planes⟩ := by
  cases hfill : FrameBuffers.fill (r.offer frame.shape).1 frame.planes with
  | error rejection =>
    rw [frameStep_of_error t hfill] at taken
    cases taken
  | ok planes =>
    rw [frameStep_of_ok t hfill] at taken
    exact ⟨planes, (Prod.mk.inj taken).2.symm⟩

theorem Recycles.step (recycles : r.Recycles reuses frames)
    (taken : (avListener.handler.step t ⟨.videoFrame, frame⟩).run r = (.ok last, left)) :
    left.Recycles reuses (frames ++ [frame]) := by
  cases reuses with
  | false =>
    rw [frameStep_plain t recycles.mode] at taken
    obtain rfl := (Prod.mk.inj taken).2
    exact { recycles with }
  | true =>
    -- What is kept from now on is of the frame's shape, whether or not buffers were at hand.
    obtain ⟨planes, rfl⟩ := frameStep_left taken
    have hon := (offer_reuses frame.shape r).trans recycles.mode
    have hreused := offer_reused frame.shape recycles.mode
    rw [recycles.spare, recycles.reused, if_pos rfl, if_pos rfl, ← repeats_concat] at hreused
    rw [keep, if_pos hon]
    exact ⟨hon, (lastShape_concat frames frame).symm, hreused⟩

theorem Recycles.foldlM {later : List Raw.VideoFrame} (recycles : r.Recycles reuses frames)
    (taken : ((later.map (Sigma.mk AvCategory.videoFrame)).foldlM avListener.handler.step t).run r =
      (.ok last, left)) : left.Recycles reuses (frames ++ later) := by
  induction later generalizing frames r t with
  | nil =>
    cases taken
    rwa [List.append_nil]
  | cons frame later ih =>
    rw [List.map_cons, List.foldlM_cons] at taken
    rcases hstep : (avListener.handler.step t ⟨.videoFrame, frame⟩).run r with ⟨result, mid⟩
    cases result with
    | error rejection =>
      rw [run_bind_of_error hstep] at taken
      cases taken
    | ok next =>
      rw [run_bind_of_ok hstep] at taken
      rw [List.append_cons]
      exact ih (recycles.step hstep) taken

theorem Recycles.blind {turn : Turn Recorder Tally} (recycles : r.Recycles reuses frames)
    (blind : turn.Blind) (taken : turn.run r = (.ok last, left)) :
    left.Recycles reuses (frames ++ []) := by
  obtain ⟨result, hturn⟩ := blind
  rw [hturn] at taken
  cases taken
  rwa [List.append_nil]

theorem Recycles.batch {batch : AvBatch} (recycles : r.Recycles reuses frames)
    (taken : (batch.toEntries.foldlM avListener.handler.step t).run r = (.ok last, left)) :
    left.Recycles reuses (frames ++ batch .videoFrame) := by
  obtain ⟨others, hothers, hentries⟩ := batch.toEntries_frames
  obtain ⟨result, hblind⟩ := Turn.blind_foldlM
    (fun t entry member => avStep_blind t (hothers entry member)) t
  rw [hentries, List.foldlM_append] at taken
  cases result with
  | error rejection =>
    rw [run_bind_of_error (hblind r)] at taken
    cases taken
  | ok mid =>
    rw [run_bind_of_ok (hblind r)] at taken
    exact recycles.foldlM taken

theorem Recycles.turn {side : Side} {given : Option Bytes} (recycles : r.Recycles reuses frames)
    (taken : (side.turn given t).run r = (.ok last, left)) :
    left.Recycles reuses (frames ++ side.frames given) := by
  cases side with
  | core =>
    rcases Handler.turn_ok taken with ⟨rfl, rfl, rfl⟩ | ⟨bytes, batch, rfl, -, hfold⟩
    · rwa [Side.frames, List.append_nil]
    · exact recycles.blind (Turn.blind_foldlM (fun t entry _ => coreStep_blind t entry) t) hfold
  | av =>
    rcases Handler.turn_ok taken with ⟨rfl, rfl, rfl⟩ | ⟨bytes, batch, rfl, decoded, hfold⟩
    · rwa [Side.frames, Option.bind_none, Option.elim_none, List.append_nil]
    · rw [Side.frames_of_decoded decoded]
      exact recycles.batch hfold

end Recorder

def Outcome.isReceived {σ : Type} : Outcome σ → Bool
  | received _ => true
  | _ => false

def Feed.frames : Feed → List Raw.VideoFrame
  | core given => Side.core.frames given
  | av given => Side.av.frames given
  | next => []

namespace Meeting

variable {β : Type} {m : Meeting β Recorder Tally} {reuses : Bool} {frames : List Raw.VideoFrame}

theorem receive_recycles (recycles : m.listener.Recycles reuses frames) (side : Side)
    {given : Option Bytes} (taken : (m.receive side.pass (.ok given, m.hub)).1.isReceived) :
    (m.receive side.pass (.ok given, m.hub)).2.listener.Recycles reuses
      (frames ++ side.frames given) := by
  have hdoes := side.does given m.state
  rcases hturn : (side.turn given m.state).run m.listener with ⟨result, left⟩
  cases result with
  | error rejection =>
    obtain ⟨log, hreceive⟩ := receive_of_error m.hub hdoes hturn
    rw [hreceive] at taken
    cases taken
  | ok last =>
    obtain ⟨log, hreceive⟩ := receive_of_ok m.hub hdoes hturn
    rw [hreceive]
    exact recycles.turn hturn

theorem feed_recycles (recycles : m.listener.Recycles reuses frames) {given : Feed}
    (taken : (m.answer given).isReceived) :
    (m.feed given).listener.Recycles reuses (frames ++ given.frames) := by
  cases given with
  | core batch => exact receive_recycles recycles .core taken
  | av batch => exact receive_recycles recycles .av taken
  | next =>
    rw [Feed.frames, List.append_nil]
    exact recycles

theorem fed_recycles (recycles : m.listener.Recycles reuses frames) {given : List Feed}
    (taken : ∀ answer ∈ m.answers given, answer.isReceived) :
    (m.fed given).listener.Recycles reuses (frames ++ given.flatMap Feed.frames) := by
  induction given generalizing m frames with
  | nil => rwa [List.flatMap_nil, List.append_nil]
  | cons first later ih =>
    rw [answers, List.forall_mem_cons] at taken
    rw [List.flatMap_cons, ← List.append_assoc]
    exact ih (feed_recycles recycles taken.1) taken.2

/-- If everything that a new recorder is given is received, it has reused its buffers as often as a
frame has the shape of the frame before it, or never. -/
theorem reused_exact (hub : Hub β) (reuses : Bool) (tally : Tally) (given : List Feed) :
    let start : Meeting β Recorder Tally := { hub, listener := { reuses }, state := tally }
    (∀ answer ∈ start.answers given, answer.isReceived) →
      (start.fed given).listener.reused =
        if reuses then repeats (given.flatMap Feed.frames) else 0 := by
  intro start taken
  have hstart : start.listener.Recycles reuses [] := .start reuses
  exact (fed_recycles hstart taken).reused

/-- Two of four frames have the shape of the frame before them; a call, a message and a tick that
brings nothing are in between. -/
theorem reused_twice :
    let wide : Raw.VideoFrame := { friend := 1, height := 2, y := [1, 2], yStride := 2 }
    let narrow : Raw.VideoFrame := { friend := 1, height := 2, y := [3], yStride := 1 }
    let first : AvBatch := Batch.ofEntries [⟨.videoFrame, wide⟩]
    let second : AvBatch := Batch.ofEntries [⟨.call, { friend := 2, audio := true }⟩,
      ⟨.videoFrame, { wide with friend := 3, y := [4] }⟩, ⟨.videoFrame, narrow⟩,
      ⟨.videoFrame, narrow⟩]
    let typing : CoreBatch := Batch.ofEntries [⟨.friendTyping, { friend := 1, typing := true }⟩]
    let given : List Feed := [.av (some first.encode), .next, .core (some typing.encode), .av none,
      .av (some second.encode)]
    let start (reuses : Bool) : Meeting Script Recorder Tally :=
      { listener := { reuses }, state := Tally.start true }
    (∀ reuses, ∀ answer ∈ (start reuses).answers given, answer.isReceived) ∧
      ((start true).fed given).listener.reused = 2 ∧
      ((start false).fed given).listener.reused = 0 := by
  intro wide narrow first second typing given start
  have received : ∀ reuses, ∀ answer ∈ (start reuses).answers given, answer.isReceived := by
    decide +kernel
  have frames : repeats (given.flatMap Feed.frames) = 2 := by
    decide +kernel
  have exactly (reuses : Bool) : ((start reuses).fed given).listener.reused =
      if reuses then repeats (given.flatMap Feed.frames) else 0 := by
    apply reused_exact
    exact received reuses
  refine ⟨received, ?_, ?_⟩
  · rw [exactly true, if_pos rfl, frames]
  · rw [exactly false]
    rfl

end Meeting

namespace Playback

variable {p last : Progress} {reuses : Bool} {frames : List Raw.VideoFrame}

theorem foldlM_recycles (recycles : p.recorder.Recycles reuses frames) {items : List Item}
    (played : items.foldlM Item.play p = .ok last) :
    last.recorder.Recycles reuses (frames ++ items.flatMap Item.frames) := by
  induction items generalizing p frames with
  | nil =>
    cases played
    rwa [List.flatMap_nil, List.append_nil]
  | cons item items ih =>
    obtain ⟨next, hitem, hlater⟩ := bind_eq_ok played
    obtain ⟨tally, hturn, -⟩ := Item.turn_of_play hitem
    rw [List.flatMap_cons, ← List.append_assoc]
    exact ih (recycles.turn hturn) hlater

theorem reported_reuse {generatedAt : String} {disk : Disk} {settings : Settings}
    {core av : List (String × Bytes)} {report : Report}
    (readCore : Contents disk settings.coreFiles core) (readAv : Contents disk settings.avFiles av)
    (reported : (run generatedAt disk settings).1 = .ok report) :
    report.reusedFrameBuffers = if settings.replay.reuseFrameBuffers then
      repeats ((items .core core ++ items .av av).flatMap Item.frames) else 0 := by
  obtain ⟨last, hfold, hreport⟩ := played_of_reported readCore readAv reported
  exact hreport.reused.trans (foldlM_recycles (Recorder.Recycles.start _) hfold).reused

end Playback

end ToxEvents
