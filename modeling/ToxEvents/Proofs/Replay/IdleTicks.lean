import ToxEvents.Proofs.Replay.EventLog
import ToxEvents.Proofs.Replay.Provenance
set_option autoImplicit false

namespace ToxEvents
open Wire

/-- Where a file is, or a tick, when there is one more at position `k`. -/
def laterThan (k position : Nat) : Nat := if position < k then position else position + 1

theorem laterThan_of_lt {k position : Nat} (before : position < k) :
    laterThan k position = position := if_pos before

theorem laterThan_of_le {k position : Nat} (after : k ≤ position) :
    laterThan k position = position + 1 := if_neg (Nat.not_lt.mpr after)

def EventRecord.delayed (k : Nat) (event : EventRecord) : EventRecord :=
  { event with batch := laterThan k event.batch }

/-- The tally had there been one more tick at position `k`. -/
def Tally.delayed (k : Nat) (t : Tally) : Tally :=
  { t with
    batch := laterThan k t.batch
    events := t.events.map (·.map (EventRecord.delayed k)) }

theorem Tally.record_delayed (k : Nat) (category : String) (friend : Option FriendNumber)
    (detail : Unit → String) (t : Tally) :
    (t.delayed k).record category friend detail = (t.record category friend detail).delayed k := by
  unfold record delayed
  cases t.events with
  | none => rfl
  | some events =>
    simp only [Option.map_some, Array.map_push]
    rfl

theorem Tally.nextBatch_delayed {k : Nat} {t : Tally} (reached : k ≤ t.batch) :
    (t.delayed k).nextBatch = t.nextBatch.delayed k := by
  have hnext : k ≤ t.nextBatch.batch := Nat.le_succ_of_le reached
  unfold delayed
  rw [laterThan_of_le reached, laterThan_of_le hnext]
  rfl

theorem Tally.delayed_batch {t : Tally}
    (earlier : ∀ log ∈ t.log, ∀ event ∈ log, event.batch < t.batch) :
    t.delayed t.batch = t.nextBatch := by
  have hevents : t.events.map (·.map (EventRecord.delayed t.batch)) = t.events := by
    cases hkept : t.events with
    | none => rfl
    | some events =>
      have hlog : t.log = some events.toList := congrArg (Option.map Array.toList) hkept
      refine congrArg some ((Array.map_congr_left fun event member => ?_).trans (Array.map_id' _))
      have hbefore := earlier _ hlog event (Array.mem_toList_iff.mpr member)
      rw [EventRecord.delayed, laterThan_of_lt hbefore]
  unfold delayed
  rw [laterThan_of_le (Nat.le_refl _), hevents]
  rfl

theorem Side.delays (k : Nat) (side : Side) (given : Option Bytes) :
    Turn.Reduces (Tally.delayed k) (side.turn given) :=
  side.reduces_of (Tally.record_delayed k) (fun _ _ => rfl) given

def Progress.delayed (k : Nat) (p : Progress) : Progress := { p with tally := p.tally.delayed k }

/-- The report had there been one more file of a side, at position `k` among all. -/
def Report.delayed (side : Side) (k : Nat) (report : Report) : Report :=
  { report with
    coreBatches := report.coreBatches + if side = .core then 1 else 0
    avBatches := report.avBatches + if side = .av then 1 else 0
    events := report.events.map (·.map (EventRecord.delayed k)) }

namespace Side

def files : Side → Settings → List String
  | core, settings => settings.input.core
  | av, settings => settings.input.av

def insert (before : List String) (added : String) (after : List String) :
    Side → Settings → Settings
  | core, settings =>
    { settings with input := { settings.input with core := before ++ added :: after } }
  | av, settings =>
    { settings with input := { settings.input with av := before ++ added :: after } }

def first : Side → Settings → Nat
  | core, _ => 0
  | av, settings => settings.input.core.length

end Side

namespace Playback

variable {disk other : Disk} {path added : String} {paths before after : List String}
  {files : List (String × Bytes)} {error : DiskError} {p : Progress} {k : Nat}

theorem play_delayed (reached : k ≤ p.tally.batch) (item : Item) :
    item.play (p.delayed k) = (item.play p).map (Progress.delayed k) := by
  have hdelays := item.side.delays k (Item.batch item.bytes) p.tally p.recorder
  rcases hturn : (item.side.turn (Item.batch item.bytes) p.tally).run p.recorder with ⟨result, left⟩
  have hdispatch := (item.dispatch_eq p).trans hturn
  have hdispatch' := (item.dispatch_eq (p.delayed k)).trans hdelays
  rw [hturn] at hdispatch'
  simp only [Item.play, hdispatch, hdispatch']
  cases result with
  | error rejection => rfl
  | ok tally =>
    have hreached : k ≤ tally.batch := by
      rwa [Side.turn_batch hturn]
    have hnext := Tally.nextBatch_delayed hreached
    exact congrArg (fun tally => Except.ok (Progress.mk left tally)) hnext

theorem foldlM_delayed (reached : k ≤ p.tally.batch) (items : List Item) :
    items.foldlM Item.play (p.delayed k) = (items.foldlM Item.play p).map (Progress.delayed k) := by
  induction items generalizing p with
  | nil => rfl
  | cons item items ih =>
    rw [List.foldlM_cons, List.foldlM_cons, play_delayed reached]
    cases hplay : item.play p with
    | error failure => rfl
    | ok next =>
      obtain ⟨tally, hturn, hnext⟩ := Item.turn_of_play hplay
      have hbatch : next.tally.batch = p.tally.batch + 1 := by
        rw [hnext]
        exact congrArg (· + 1) (Side.turn_batch hturn)
      exact ih (by omega)

theorem play_idle (side : Side) (path : String) (p : Progress) :
    Item.play p ⟨side, path, []⟩ = .ok ⟨p.recorder, p.tally.nextBatch⟩ := by
  cases side <;> rfl

theorem foldlM_idle (settings : Settings) (side : Side) (path : String) (before after : List Item) :
    (before ++ ⟨side, path, []⟩ :: after).foldlM Item.play (.start settings) =
      ((before ++ after).foldlM Item.play (.start settings)).map
        (Progress.delayed before.length) := by
  rw [List.foldlM_append, List.foldlM_append]
  cases hfold : before.foldlM Item.play (.start settings) with
  | error failure => rfl
  | ok p =>
    obtain ⟨hbatch, hlogged⟩ := logged_before hfold
    -- The new file is the next tick, and nothing that has been logged is to be moved.
    have hdelayed : p.delayed before.length = ⟨p.recorder, p.tally.nextBatch⟩ := by
      rw [← hbatch] at hlogged ⊢
      rw [Progress.delayed, Tally.delayed_batch hlogged]
    change List.foldlM Item.play p (_ :: after) = (after.foldlM Item.play p).map _
    rw [List.foldlM_cons, play_idle, ← foldlM_delayed (Nat.le_of_eq hbatch.symm), hdelayed]
    rfl

theorem Contents.congr (contents : Contents disk paths files)
    (same : ∀ path ∈ paths, other.read path = disk.read path) : Contents other paths files where
  named := contents.named
  read file member := by
    have hpath : file.1 ∈ paths := contents.named ▸ List.mem_map_of_mem member
    rw [same _ hpath, contents.read file member]

theorem Contents.insert (contents : Contents disk (before ++ after) files)
    (same : ∀ path ∈ before ++ after, other.read path = disk.read path)
    (empty : other.read added = .ok []) :
    ∃ earlier later, files = earlier ++ later ∧ earlier.length = before.length ∧
      Contents other (before ++ added :: after) (earlier ++ (added, []) :: later) := by
  obtain ⟨earlier, later, hfiles, hearlier, hlater⟩ :=
    contents_append_iff.mp (contents.congr same)
  refine ⟨earlier, later, hfiles, ?_, ?_⟩
  · rw [← hearlier.named, List.length_map]
  · exact contents_append_iff.mpr ⟨earlier, _, rfl, hearlier, hlater.cons empty⟩

theorem Missing.congr (missing : Missing disk paths path error)
    (same : ∀ path ∈ paths, other.read path = disk.read path) :
    Missing other paths path error := by
  obtain ⟨hfails, earlier, later, files, rfl, hearlier⟩ := missing
  obtain ⟨hsame, hlater⟩ := List.forall_mem_append.mp same
  refine ⟨?_, earlier, later, files, rfl, hearlier.congr hsame⟩
  rw [hlater path List.mem_cons_self, hfails]

theorem Missing.append (missing : Missing disk paths path error) (later : List String) :
    Missing disk (paths ++ later) path error := by
  obtain ⟨hfails, earlier, rest, files, rfl, hearlier⟩ := missing
  exact ⟨hfails, earlier, rest ++ later, files, List.append_assoc .., hearlier⟩

theorem Missing.behind {earlier : List String} (missing : Missing disk paths path error)
    (contents : Contents disk earlier files) : Missing disk (earlier ++ paths) path error := by
  obtain ⟨hfails, middle, rest, found, rfl, hmiddle⟩ := missing
  have hfound := contents_append_iff.mpr ⟨files, found, rfl, contents, hmiddle⟩
  exact ⟨hfails, earlier ++ middle, rest, files ++ found, (List.append_assoc ..).symm, hfound⟩

/-- What is missing is missing still when there is an empty file more. -/
theorem Missing.insert (missing : Missing disk (before ++ after) path error)
    (same : ∀ path ∈ before ++ after, other.read path = disk.read path)
    (empty : other.read added = .ok []) :
    Missing other (before ++ added :: after) path error := by
  rcases (missing.congr same).of_append with hbefore | ⟨files, hbefore, hafter⟩
  · exact hbefore.append (added :: after)
  · exact (hafter.behind (Contents.nil.cons empty)).behind hbefore

theorem items_append (side : Side) (earlier later : List (String × Bytes)) :
    items side (earlier ++ later) = items side earlier ++ items side later := List.map_append

theorem length_items (side : Side) (files : List (String × Bytes)) :
    (items side files).length = files.length := List.length_map _

section
variable {settings : Settings} {side : Side} {core av : List (String × Bytes)}

theorem exists_order (split : side.files settings = before ++ after)
    (readCore : Contents disk settings.input.core core)
    (readAv : Contents disk settings.input.av av)
    (same : ∀ path ∈ settings.input.core ++ settings.input.av, other.read path = disk.read path)
    (empty : other.read added = .ok []) :
    ∃ core' av' first second,
      Contents other (side.insert before added after settings).input.core core' ∧
      Contents other (side.insert before added after settings).input.av av' ∧
      items .core core ++ items .av av = first ++ second ∧
      items .core core' ++ items .av av' = first ++ ⟨side, added, []⟩ :: second ∧
      first.length = side.first settings + before.length := by
  obtain ⟨sameCore, sameAv⟩ := List.forall_mem_append.mp same
  cases side with
  | core =>
    change settings.input.core = before ++ after at split
    rw [split] at readCore sameCore
    obtain ⟨earlier, later, rfl, hlength, readCore'⟩ := readCore.insert sameCore empty
    refine ⟨_, av, items .core earlier, items .core later ++ items .av av, readCore',
      readAv.congr sameAv, ?_, ?_, ?_⟩
    · rw [items_append, List.append_assoc]
    · rw [items_append, List.append_assoc]
      rfl
    · rw [length_items, hlength, Side.first, Nat.zero_add]
  | av =>
    change settings.input.av = before ++ after at split
    rw [split] at readAv sameAv
    obtain ⟨earlier, later, rfl, hlength, readAv'⟩ := readAv.insert sameAv empty
    refine ⟨core, _, items .core core ++ items .av earlier, items .av later,
      readCore.congr sameCore, readAv', ?_, ?_, ?_⟩
    · rw [items_append, List.append_assoc]
    · rw [items_append, List.append_assoc]
      rfl
    · rw [List.length_append, length_items, length_items, hlength, Side.first, ← readCore.named,
        List.length_map]

theorem Missing.insert_side
    (missing : Missing disk (settings.input.core ++ settings.input.av) path error)
    (split : side.files settings = before ++ after)
    (same : ∀ path ∈ settings.input.core ++ settings.input.av, other.read path = disk.read path)
    (empty : other.read added = .ok []) :
    Missing other ((side.insert before added after settings).input.core ++
      (side.insert before added after settings).input.av) path error := by
  cases side with
  | core =>
    change settings.input.core = before ++ after at split
    rw [split, List.append_assoc] at missing same
    have hmissing := missing.insert same empty
    rwa [← List.cons_append, ← List.append_assoc] at hmissing
  | av =>
    change settings.input.av = before ++ after at split
    rw [split, ← List.append_assoc] at missing same
    have hmissing := missing.insert same empty
    rwa [List.append_assoc] at hmissing

theorem length_insert (added : String) (split : side.files settings = before ++ after) :
    (side.insert before added after settings).input.core.length =
        settings.input.core.length + (if side = .core then 1 else 0) ∧
      (side.insert before added after settings).input.av.length =
        settings.input.av.length + if side = .av then 1 else 0 := by
  have hlength : (before ++ added :: after).length = (before ++ after).length + 1 := by
    rw [List.length_append, List.length_append, List.length_cons, Nat.add_assoc]
  cases side with
  | core => exact ⟨hlength.trans (congrArg (·.length + 1) split.symm), rfl⟩
  | av => exact ⟨rfl, hlength.trans (congrArg (·.length + 1) split.symm)⟩

end

theorem ofTally_delayed (generatedAt generatedAt' : String) (side : Side) (k core av reused : Nat)
    (t : Tally) :
    Report.ofTally generatedAt' (t.delayed k) (core + if side = .core then 1 else 0)
        (av + if side = .av then 1 else 0) reused =
      { (Report.ofTally generatedAt t core av reused).delayed side k with
        generatedAt := generatedAt' } := by
  have hevents : (t.delayed k).log = t.log.map (·.map (EventRecord.delayed k)) := by
    unfold Tally.log Tally.delayed
    cases t.events with
    | none => rfl
    | some events => exact congrArg some Array.toList_map
  exact congrArg (fun events => { Report.ofTally generatedAt' t _ _ reused with events }) hevents

theorem coreFiles_of_unlimited {settings : Settings}
    (unlimited : settings.replay.maxBatches = none) : settings.coreFiles = settings.input.core := by
  simp only [Settings.coreFiles, unlimited]

theorem avFiles_of_unlimited {settings : Settings}
    (unlimited : settings.replay.maxBatches = none) : settings.avFiles = settings.input.av := by
  simp only [Settings.avFiles, unlimited]

theorem run_insert (generatedAt generatedAt' : String) {settings : Settings} {side : Side}
    (unlimited : settings.replay.maxBatches = none) (split : side.files settings = before ++ after)
    (same : ∀ path ∈ settings.input.core ++ settings.input.av, other.read path = disk.read path)
    (empty : other.read added = .ok []) :
    (run generatedAt' other (side.insert before added after settings)).1 =
      (run generatedAt disk settings).1.map fun report =>
        { report.delayed side (side.first settings + before.length) with
          generatedAt := generatedAt' } := by
  have unlimited' : (side.insert before added after settings).replay.maxBatches = none := by
    cases side <;> exact unlimited
  have start : Progress.start (side.insert before added after settings) = .start settings := by
    cases side <;> rfl
  have hcore := coreFiles_of_unlimited unlimited
  have hav := avFiles_of_unlimited unlimited
  have hcore' := coreFiles_of_unlimited unlimited'
  have hav' := avFiles_of_unlimited unlimited'
  -- Either all files can be read, with the new one and without it, or the same file cannot.
  rcases contents_or_missing_append disk settings.input.core settings.input.av with
    ⟨core, av, readCore, readAv⟩ | ⟨path, error, missing⟩
  · obtain ⟨core', av', first, second, readCore', readAv', order, order', position⟩ :=
      exists_order split readCore readAv same empty
    obtain ⟨moreCore, moreAv⟩ := length_insert added split
    rw [← hcore] at readCore
    rw [← hav] at readAv
    rw [← hcore'] at readCore'
    rw [← hav'] at readAv'
    rw [run_of_contents generatedAt' readCore' readAv', run_of_contents generatedAt readCore readAv,
      order, order', start, foldlM_idle, hcore', hav', moreCore, moreAv, hcore, hav, position]
    cases (first ++ second).foldlM Item.play (.start settings) with
    | error failure => rfl
    | ok last => exact congrArg Except.ok (ofTally_delayed ..)
  · have missing' := missing.insert_side split same empty
    rw [← hcore, ← hav] at missing
    rw [← hcore', ← hav'] at missing'
    rw [run_of_missing generatedAt' missing', run_of_missing generatedAt missing]
    rfl

/-- What the files tell, and what an empty file more does to it. -/
structure Indexed (generatedAt : String) (disk : Disk) (settings : Settings) : Prop where
  /-- Each event is logged under the position of its file among all files. -/
  logged : ∀ report, (run generatedAt disk settings).1 = .ok report →
    ∃ core av, Contents disk settings.input.core core ∧ Contents disk settings.input.av av ∧
      report.events = if settings.output.includeEvents then
        some (logOf 0 (items .core core ++ items .av av)) else none
  /-- The same file fails, or the report counts one file more and moves the events behind it. -/
  idle : ∀ (generatedAt' : String) (other : Disk) (side : Side) (before : List String)
    (added : String) (after : List String), side.files settings = before ++ after →
      (∀ path ∈ settings.input.core ++ settings.input.av, other.read path = disk.read path) →
      other.read added = .ok [] →
        (run generatedAt' other (side.insert before added after settings)).1 =
          (run generatedAt disk settings).1.map fun report =>
            { report.delayed side (side.first settings + before.length) with
              generatedAt := generatedAt' }

/-- Without a limit, events are logged under the positions of their files, and an empty file more
only moves them. -/
theorem run_indexed (generatedAt : String) (disk : Disk) (settings : Settings)
    (unlimited : settings.replay.maxBatches = none) : Indexed generatedAt disk settings where
  logged report reported := by
    cases run_eq_iff_ending.mp reported with
    | reported readCore readAv played =>
      have hevents := reported_events readCore readAv reported
      rw [coreFiles_of_unlimited unlimited] at readCore
      rw [avFiles_of_unlimited unlimited] at readAv
      exact ⟨_, _, readCore, readAv, hevents⟩
  idle generatedAt' _ _ _ _ _ split same empty :=
    run_insert generatedAt generatedAt' unlimited split same empty

/-- An empty file in front of another. -/
theorem run_indexed_front :
    let typing : CoreBatch := Batch.ofEntries [⟨.friendTyping, { friend := 1, typing := true }⟩]
    let disk : Disk := Disk.ofFiles [("typing", typing.encode), ("idle", [])]
    let settings : Settings :=
      { input := { core := ["typing"] }, output := { includeEvents := true } }
    let fronted : Settings :=
      { input := { core := ["idle", "typing"] }, output := { includeEvents := true } }
    let positions (settings : Settings) : Except Failure (Option (List Nat)) :=
      (run "" disk settings).1.map fun report => report.events.map (·.map EventRecord.batch)
    positions settings = .ok (some [0]) ∧ positions fronted = .ok (some [1]) := by
  intro typing disk settings fronted positions
  have hempty : disk.read "idle" = .ok [] := by
    rw [Disk.read, Disk.resolve, if_neg (by simp)]
    decide +kernel
  have htyping : disk.read "typing" = .ok typing.encode := by
    rw [Disk.read, Disk.resolve, if_neg (by simp)]
    decide +kernel
  have readCore : Contents disk settings.coreFiles [("typing", typing.encode)] :=
    Contents.nil.cons htyping
  have hfronted : (run "" disk fronted).1 = _ :=
    (run_indexed "" disk settings rfl).idle "" disk .core [] "idle" ["typing"] rfl
      (fun _ _ => rfl) hempty
  dsimp only [positions]
  rw [hfronted, run_of_contents "" readCore .nil]
  decide +kernel

end Playback

end ToxEvents
