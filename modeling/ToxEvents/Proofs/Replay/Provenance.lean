import ToxEvents.Proofs.Replay.Outcome
set_option autoImplicit false

namespace ToxEvents
open Wire

def Tally.log (t : Tally) : Option (List EventRecord) := t.events.map Array.toList

theorem Tally.log_see (seen : Seen) (t : Tally) :
    (t.see seen seen.detail).log = t.log.map (· ++ [seen.logged t.batch]) := by
  unfold log see
  cases t.events with
  | none => rfl
  | some events => exact congrArg some Array.toList_push

theorem Tally.log_law (t : Tally) : Tally.Law fun records next =>
    next.log = t.log.map (· ++ records.map fun record => record.2.logged record.1) where
  see {records next} seen logged := by
    rw [log_see, logged, Option.map_map]
    refine congrArg (fun extend => t.log.map extend) (funext fun log => ?_)
    simp
  nextBatch logged := logged

theorem Tally.log_start (t : Tally) : t.log =
    t.log.map (· ++ [].map fun record : Nat × Seen => record.2.logged record.1) := by simp

theorem Side.turn_batch {side : Side} {given : Option Bytes} {t last : Tally} {r left : Recorder}
    (taken : (side.turn given t).run r = (.ok last, left)) : last.batch = t.batch :=
  (Side.turn_obeys t.log_law t.log_start taken).1

def Item.log (position : Nat) (item : Item) : List EventRecord :=
  item.seen.map (Seen.logged position)

namespace Playback

variable {p last : Progress} {given : List Item}

def logOf (first : Nat) (given : List Item) : List EventRecord :=
  (given.zipIdx first).flatMap fun (item, position) => item.log position

theorem batch_lt_of_mem_logOf {first : Nat} {event : EventRecord}
    (member : event ∈ logOf first given) : event.batch < first + given.length := by
  obtain ⟨⟨item, position⟩, hplace, hevent⟩ := List.mem_flatMap.mp member
  obtain ⟨seen, -, rfl⟩ := List.mem_map.mp hevent
  exact List.snd_lt_add_of_mem_zipIdx hplace

theorem logOf_eq (first : Nat) (given : List Item) :
    logOf first given = (recordsOf first given).map fun record => record.2.logged record.1 := by
  simp [logOf, recordsOf, Item.log, List.map_flatMap, Function.comp_def]

theorem foldlM_logs (played : given.foldlM Item.play p = .ok last) :
    last.tally.batch = p.tally.batch + given.length ∧
      last.tally.log = p.tally.log.map (· ++ logOf p.tally.batch given) := by
  rw [logOf_eq]
  exact foldlM_obeys p.tally.log_law p.tally.log_start played

theorem start_log (settings : Settings) : (Progress.start settings).tally.log =
    if settings.output.includeEvents then some [] else none := by
  unfold Progress.start Tally.start Tally.log
  cases settings.output.includeEvents <;> rfl

/-- What has been logged was logged at an earlier tick. -/
theorem logged_before {settings : Settings}
    (played : given.foldlM Item.play (.start settings) = .ok last) :
    last.tally.batch = given.length ∧
      ∀ log ∈ last.tally.log, ∀ event ∈ log, event.batch < given.length := by
  obtain ⟨hbatch, hlog⟩ := foldlM_logs played
  refine ⟨hbatch.trans (Nat.zero_add _), fun log hkept event member => ?_⟩
  rw [hlog, start_log] at hkept
  split at hkept
  · obtain rfl : [] ++ logOf 0 given = log := Option.some.inj hkept
    have hlt := batch_lt_of_mem_logOf member
    omega
  · cases hkept

/-- The events of a report are those of its files, each under the position of its file. -/
theorem reported_events {generatedAt : String} {disk : Disk} {settings : Settings}
    {core av : List (String × Bytes)} {report : Report}
    (readCore : Contents disk settings.coreFiles core) (readAv : Contents disk settings.avFiles av)
    (reported : (run generatedAt disk settings).1 = .ok report) :
    report.events = if settings.output.includeEvents then
      some (logOf 0 (items .core core ++ items .av av)) else none := by
  obtain ⟨last, hfold, hreport⟩ := played_of_reported readCore readAv reported
  obtain ⟨-, hlog⟩ := foldlM_logs hfold
  rw [start_log] at hlog
  refine (hreport.events.trans hlog).trans ?_
  split
  · exact congrArg some (List.nil_append _)
  · rfl

end Playback

end ToxEvents
