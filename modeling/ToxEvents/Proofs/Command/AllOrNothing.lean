import ToxEvents.Command.Program
import ToxEvents.Proofs.Command.Overwriting
import ToxEvents.Proofs.Replay.Outcome
import ToxEvents.Proofs.Text.Replacement
set_option autoImplicit false

namespace ToxEvents
open Wire

namespace Settings

variable {disk : Disk} {settings : Settings}

structure Ready (disk : Disk) (settings : Settings) : Prop where
  some : settings.files ≠ []
  present : ∀ path ∈ settings.files, disk.isFile path

structure Lacks (disk : Disk) (settings : Settings) (path : String) : Prop where
  missing : disk.isFile path = false
  first : ∃ before after, settings.files = before ++ path :: after ∧
    ∀ earlier ∈ before, disk.isFile earlier

theorem validate_of_ready (ready : settings.Ready disk) : settings.validate disk = .ok () := by
  have hnone : settings.files.find? (fun path => !disk.isFile path) = none := by
    simpa using ready.present
  simp only [validate, List.isEmpty_iff, if_neg ready.some, hnone]

theorem validate_of_lacks {path : String} (lacks : settings.Lacks disk path) :
    settings.validate disk = .error (.batchMissing path) := by
  obtain ⟨hmissing, before, after, order, hpresent⟩ := lacks
  have hfind : settings.files.find? (fun path => !disk.isFile path) = some path :=
    List.find?_eq_some_iff_append.mpr
      ⟨by simp [hmissing], before, after, order, by simpa using hpresent⟩
  have hsome : settings.files ≠ [] := by simp [order]
  simp only [validate, List.isEmpty_iff, if_neg hsome, hfind]

theorem ready_or_lacks (disk : Disk) (settings : Settings) :
    settings.Ready disk ∨ settings.files = [] ∨ ∃ path, settings.Lacks disk path := by
  by_cases hnone : settings.files = []
  · exact .inr (.inl hnone)
  cases hfind : settings.files.find? (fun path => !disk.isFile path) with
  | none => exact .inl ⟨hnone, by simpa using hfind⟩
  | some path =>
    obtain ⟨hmissing, before, after, order, hpresent⟩ := List.find?_eq_some_iff_append.mp hfind
    exact .inr (.inr ⟨path, by simpa using hmissing, before, after, order,
      by simpa using hpresent⟩)

end Settings

namespace Program

variable {generatedAt : String} {a : Arguments} {disk : Disk} {failure : Failure}

/-- What the file with the configuration says; without one, the defaults. -/
inductive Configured (a : Arguments) (disk : Disk) : Settings → Prop
  | defaults (unnamed : a.config = none) : Configured a disk {}
  | file {path : String} {text : List Char} {settings : Settings} (named : a.config = some path)
      (readable : disk.readText path = .ok text)
      (valid : Settings.ofToml? text = some settings) : Configured a disk settings

/-- What a replay can fail for. -/
inductive Fails (generatedAt : String) (a : Arguments) (disk : Disk) : Failure → Prop
  | configUnreadable {path : String} {error : DiskError} (named : a.config = some path)
      (unreadable : disk.readText path = .error error) :
      Fails generatedAt a disk (.configUnreadable path error)
  | configInvalid {path : String} {text : List Char} (named : a.config = some path)
      (readable : disk.readText path = .ok text) (invalid : Settings.ofToml? text = none) :
      Fails generatedAt a disk (.configInvalid path)
  | noBatchFiles {settings : Settings} (configured : Configured a disk settings)
      (none : (a.amend settings).files = []) : Fails generatedAt a disk .noBatchFiles
  | batchMissing {settings : Settings} {path : String} (configured : Configured a disk settings)
      (lacks : (a.amend settings).Lacks disk path) : Fails generatedAt a disk (.batchMissing path)
  | batchUnreadable {settings : Settings} {path : String} {error : DiskError}
      (configured : Configured a disk settings) (ready : (a.amend settings).Ready disk)
      (missing : Playback.Missing disk ((a.amend settings).coreFiles ++ (a.amend settings).avFiles)
        path error) :
      Fails generatedAt a disk (.batchUnreadable path error)
  | batchRejected {settings : Settings} {item : Item} {rejection : Rejection}
      (configured : Configured a disk settings) (ready : (a.amend settings).Ready disk)
      (rejected : Playback.Ending generatedAt disk (a.amend settings)
        (.error (item.side.failure item.path rejection))) :
      Fails generatedAt a disk (item.side.failure item.path rejection)
  | reportUnwritable {settings : Settings} {report : Report} {path : String} {error : DiskError}
      (configured : Configured a disk settings) (ready : (a.amend settings).Ready disk)
      (reported : (Playback.run generatedAt disk (a.amend settings)).1 = .ok report)
      (named : a.output.or settings.output.file = some path)
      (unwritable : (disk.write path
        (Utf8.bytesOf (report.render (a.format.getD settings.output.format)))).1 = .error error) :
      Fails generatedAt a disk (.reportUnwritable path error)

/-- What a replay has to show for itself, without what it tells on the way. -/
def attempt (generatedAt : String) (a : Arguments) (disk : Disk) : Except Setback Published :=
  match (settle a disk).1 with
  | .error failure => .error ⟨failure, disk⟩
  | .ok settings => (carryOut generatedAt settings disk).1

theorem replay_eq (generatedAt : String) (a : Arguments) (disk : Disk) :
    ∃ records, replay generatedAt a disk =
      match attempt generatedAt a disk with
      | .error setback => failed a records setback
      | .ok published =>
        { exit := 0, printed := published.printed, records := told a records,
          disk := published.disk } := by
  unfold replay attempt
  rcases settle a disk with ⟨failure | settings, records⟩
  · exact ⟨_, rfl⟩
  dsimp only
  rcases carryOut generatedAt settings disk with ⟨setback | published, more⟩
  · exact ⟨_, rfl⟩
  · exact ⟨_, rfl⟩

theorem attempt_of_configured {settings : Settings} (configured : Configured a disk settings) :
    attempt generatedAt a disk = (carryOut generatedAt (a.amend settings) disk).1 := by
  cases configured with
  | defaults unnamed => simp only [attempt, settle, unnamed]
  | file named readable valid =>
    simp only [attempt, settle, named, Settings.load, readable, valid]

theorem carryOut_of_error {settings : Settings} (ready : settings.Ready disk)
    (failed : (Playback.run generatedAt disk settings).1 = .error failure) :
    (carryOut generatedAt settings disk).1 = .error ⟨failure, disk⟩ := by
  simp only [carryOut, Settings.validate_of_ready ready]
  rcases hrun : Playback.run generatedAt disk settings with ⟨result, log⟩
  rw [hrun] at failed
  obtain rfl : result = .error failure := failed
  rfl

theorem carryOut_of_report {settings : Settings} {report : Report} (ready : settings.Ready disk)
    (reported : (Playback.run generatedAt disk settings).1 = .ok report) :
    (carryOut generatedAt settings disk).1 =
      publish report settings.output.format settings.output.file disk := by
  simp only [carryOut, Settings.validate_of_ready ready]
  rcases hrun : Playback.run generatedAt disk settings with ⟨result, log⟩
  rw [hrun] at reported
  obtain rfl : result = .ok report := reported
  dsimp only
  cases publish report settings.output.format settings.output.file disk <;> rfl

theorem publish_of_unwritable {report : Report} {format : ReportFormat} {path : String}
    {error : DiskError}
    (unwritable : (disk.write path (Utf8.bytesOf (report.render format))).1 = .error error) :
    publish report format (some path) disk = .error ⟨.reportUnwritable path error, disk⟩ := by
  rw [Utf8.bytesOf_eq_encode] at unwritable
  rcases hwrite : disk.write path (Utf8.encode (report.render format).toList) with ⟨result, left⟩
  rw [hwrite] at unwritable
  obtain rfl : result = .error error := unwritable
  obtain rfl := Disk.write_error hwrite
  simp only [publish, hwrite]

theorem attempt_of_fails (fails : Fails generatedAt a disk failure) :
    attempt generatedAt a disk = .error ⟨failure, disk⟩ := by
  cases fails with
  | configUnreadable named unreadable =>
    simp only [attempt, settle, named, Settings.load, unreadable]
  | configInvalid named readable invalid =>
    simp only [attempt, settle, named, Settings.load, readable, invalid]
  | noBatchFiles configured none =>
    rw [attempt_of_configured configured]
    simp only [carryOut, Settings.validate, none]
    rfl
  | batchMissing configured lacks =>
    rw [attempt_of_configured configured]
    simp only [carryOut, Settings.validate_of_lacks lacks]
  | batchUnreadable configured ready missing =>
    rw [attempt_of_configured configured,
      carryOut_of_error ready (Playback.run_of_missing generatedAt missing)]
  | batchRejected configured ready rejected =>
    rw [attempt_of_configured configured, carryOut_of_error ready rejected.run_eq]
  | reportUnwritable configured ready reported named unwritable =>
    rw [attempt_of_configured configured, carryOut_of_report ready reported]
    change publish _ (a.format.getD _) (a.output.or _) disk = _
    rw [named, publish_of_unwritable unwritable]

theorem configured_or_fails (generatedAt : String) (a : Arguments) (disk : Disk) :
    (∃ settings, Configured a disk settings) ∨ ∃ failure, Fails generatedAt a disk failure := by
  cases named : a.config with
  | none => exact .inl ⟨{}, .defaults named⟩
  | some path =>
    cases hread : disk.readText path with
    | error error => exact .inr ⟨_, .configUnreadable named hread⟩
    | ok text =>
      cases hvalid : Settings.ofToml? text with
      | none => exact .inr ⟨_, .configInvalid named hread hvalid⟩
      | some settings => exact .inl ⟨settings, .file named hread hvalid⟩

theorem reported_or_fails {settings : Settings} (configured : Configured a disk settings)
    (ready : (a.amend settings).Ready disk) :
    (∃ report, (Playback.run generatedAt disk (a.amend settings)).1 = .ok report) ∨
      ∃ failure, Fails generatedAt a disk failure := by
  obtain ⟨result, ending⟩ := Playback.exists_ending generatedAt disk (a.amend settings)
  cases ending with
  | unreadable missing => exact .inr ⟨_, .batchUnreadable configured ready missing⟩
  | rejected readCore readAv order played refused =>
    exact .inr ⟨_, .batchRejected configured ready
      (.rejected readCore readAv order played refused)⟩
  | reported readCore readAv played reports =>
    exact .inl ⟨_, (Playback.Ending.reported readCore readAv played reports).run_eq⟩

theorem published_or_fails {settings : Settings} {report : Report}
    (configured : Configured a disk settings) (ready : (a.amend settings).Ready disk)
    (reported : (Playback.run generatedAt disk (a.amend settings)).1 = .ok report) :
    (∃ published, publish report (a.format.getD settings.output.format)
      (a.output.or settings.output.file) disk = .ok published) ∨
      ∃ failure, Fails generatedAt a disk failure := by
  cases named : a.output.or settings.output.file with
  | none => exact .inl ⟨_, rfl⟩
  | some path =>
    rcases hwrite : disk.write path
        (Utf8.bytesOf (report.render (a.format.getD settings.output.format))) with
      ⟨error | _, after⟩
    · have unwritable := congrArg Prod.fst hwrite
      exact .inr ⟨_, .reportUnwritable configured ready reported named unwritable⟩
    · rw [Utf8.bytesOf_eq_encode] at hwrite
      simp only [publish, hwrite]
      exact .inl ⟨_, rfl⟩

theorem fails_or_publishes (generatedAt : String) (a : Arguments) (disk : Disk) :
    (∃ failure, Fails generatedAt a disk failure) ∨ ∃ settings report published,
      Configured a disk settings ∧
      (Playback.run generatedAt disk (a.amend settings)).1 = .ok report ∧
      publish report (a.format.getD settings.output.format) (a.output.or settings.output.file)
        disk = .ok published ∧
      attempt generatedAt a disk = .ok published := by
  obtain ⟨settings, configured⟩ | fails := configured_or_fails generatedAt a disk
  case inr => exact .inl fails
  obtain ready | none | ⟨path, lacks⟩ := (a.amend settings).ready_or_lacks disk
  · obtain ⟨report, reported⟩ | fails := reported_or_fails configured ready
    case inr => exact .inl fails
    obtain ⟨published, hpublish⟩ | fails := published_or_fails configured ready reported
    case inr => exact .inl fails
    refine .inr ⟨settings, report, published, configured, reported, hpublish, ?_⟩
    rw [attempt_of_configured configured, carryOut_of_report ready reported]
    exact hpublish
  · exact .inl ⟨_, .noBatchFiles configured none⟩
  · exact .inl ⟨_, .batchMissing configured lacks⟩

def Delivered (rendered : String) (file : Option String) (before after : Disk) (printed : String) :
    Prop :=
  match file with
  | none => printed = rendered ∧ after = before
  | some path =>
    printed = "" ∧ ∃ route, before.Overwritten after path (Utf8.bytesOf rendered) route

theorem delivered_of_publish {report : Report} {format : ReportFormat} {file : Option String}
    {published : Published} (done : publish report format file disk = .ok published) :
    Delivered (report.render format) file disk published.disk published.printed := by
  cases file with
  | none =>
    cases done
    exact ⟨rfl, rfl⟩
  | some path =>
    unfold publish at done
    rcases hwrite : disk.write path (Utf8.encode (report.render format).toList) with
      ⟨error | _, after⟩
    · simp [hwrite] at done
    · simp only [hwrite, Except.ok.injEq] at done
      subst done
      refine ⟨rfl, Disk.overwritten_of_write ?_⟩
      rw [Utf8.bytesOf_eq_encode, hwrite]

/-- What a replay leaves behind. -/
structure AllOrNothing (generatedAt : String) (a : Arguments) (disk : Disk) (run : Run) :
    Prop where
  fails_iff : run.exit ≠ 0 ↔ ∃ failure, Fails generatedAt a disk failure
  failed : ∀ failure, Fails generatedAt a disk failure →
    run.exit = 1 ∧ run.failure = failure.lines ∧ run.printed = "" ∧ run.disk = disk
  succeeded : run.exit = 0 → ∃ settings report, Configured a disk settings ∧
    (Playback.run generatedAt disk (a.amend settings)).1 = .ok report ∧
    Delivered (report.render (a.format.getD settings.output.format))
      (a.output.or settings.output.file) disk run.disk run.printed

theorem run_all_or_nothing (generatedAt : String) {arguments : List String} {a : Arguments}
    (accepted : Request.ofArguments arguments = .replay a) (disk : Disk) :
    AllOrNothing generatedAt a disk (run generatedAt arguments disk) := by
  have hrun : run generatedAt arguments disk = replay generatedAt a disk := by
    rw [run, accepted]
  obtain ⟨records, hreplay⟩ := replay_eq generatedAt a disk
  rw [hrun, hreplay]
  obtain ⟨failure, fails⟩ | ⟨settings, report, published, configured, reported, hpublish, hdone⟩ :=
    fails_or_publishes generatedAt a disk
  · have hattempt := attempt_of_fails fails
    rw [hattempt]
    refine ⟨⟨fun _ => ⟨failure, fails⟩, fun _ => Nat.one_ne_zero⟩, fun other hother => ?_, nofun⟩
    have hsame := Except.error.inj (hattempt.symm.trans (attempt_of_fails hother))
    obtain rfl := (Setback.mk.inj hsame).1
    exact ⟨rfl, rfl, rfl, rfl⟩
  · have hnone (failure : Failure) : ¬Fails generatedAt a disk failure := fun fails =>
      nomatch hdone.symm.trans (attempt_of_fails fails)
    rw [hdone]
    refine ⟨⟨fun nonzero => absurd rfl nonzero, fun ⟨other, fails⟩ => absurd fails (hnone other)⟩,
      fun other fails => absurd fails (hnone other), fun _ => ?_⟩
    exact ⟨settings, report, configured, reported, delivered_of_publish hpublish⟩

theorem exit_of_attempt {published : Published} {run : Run}
    (left : AllOrNothing generatedAt a disk run)
    (done : attempt generatedAt a disk = .ok published) : run.exit = 0 := by
  by_contra nonzero
  obtain ⟨failure, fails⟩ := left.fails_iff.mp nonzero
  exact nomatch done.symm.trans (attempt_of_fails fails)

/-- A report goes over the batch that it tells of, unless another batch is malformed or may not be
read. -/
theorem run_all_or_nothing_own_input :
    let disk : Disk := { files := [(["a"], []), (["b"], [0x0A])] }
    let locked : Disk := { disk with unreadable := [["b"]] }
    let both := ["--core", "a", "--core", "b", "--output", "a"]
    let replaced := run "now" ["--core", "a", "--output", "a"] disk
    let spared := run "now" both disk
    let denied := run "now" both locked
    (replaced.exit = 0 ∧ replaced.printed = "" ∧ ∃ report route,
      disk.Overwritten replaced.disk "a" (Utf8.bytesOf (Report.render .txt report)) route) ∧
    (spared.exit = 1 ∧ spared.printed = "" ∧ spared.disk = disk) ∧
    denied.exit = 1 ∧ denied.printed = "" ∧ denied.disk = locked ∧
      denied.failure = (Failure.batchUnreadable "b" .permissionDenied).lines := by
  intro disk locked both replaced spared denied
  have holdsA : disk.Holds "a" ["a"] [] := Disk.resolve_eq_ok_iff.mpr (by decide +kernel)
  have holdsB : disk.Holds "b" ["b"] [0x0A] := Disk.resolve_eq_ok_iff.mpr (by decide +kernel)
  have readA : disk.read "a" = .ok [] := Disk.read_eq_ok_iff.mpr ⟨_, holdsA, rfl⟩
  have readB : disk.read "b" = .ok [0x0A] := Disk.read_eq_ok_iff.mpr ⟨_, holdsB, rfl⟩
  have target : disk.resolve Disk.partsToWrite "a" = .ok (["a"], some (.file [])) :=
    Disk.resolve_eq_ok_iff.mpr (by decide +kernel)
  have hwrite (bytes : Bytes) : disk.write "a" bytes = (.ok (), disk.put ["a"] bytes) := by
    rw [Disk.write, target]
    rfl
  let only : Arguments := { core := ["a"], output := some "a" }
  let a : Arguments := { core := ["a", "b"], output := some "a" }
  refine ⟨?replaced, ?spared, ?denied⟩
  case replaced =>
    have left : AllOrNothing "now" only disk replaced :=
      run_all_or_nothing "now" (by decide +kernel) disk
    have ready : (only.amend {}).Ready disk :=
      ⟨by decide, List.forall_mem_singleton.mpr (Disk.isFile_iff.mpr ⟨_, _, holdsA⟩)⟩
    have contents : Playback.Contents disk ["a"] [("a", [])] := .cons readA .nil
    obtain ⟨report, reported⟩ : ∃ report,
        (Playback.run "now" disk (only.amend {})).1 = .ok report := by
      rw [Playback.run_of_contents "now" contents .nil]
      exact ⟨_, rfl⟩
    obtain ⟨published, done⟩ : ∃ published, attempt "now" only disk = .ok published := by
      rw [attempt_of_configured (.defaults rfl), carryOut_of_report ready reported]
      change ∃ published, publish _ .txt (some "a") disk = .ok published
      simp only [publish, hwrite]
      exact ⟨_, rfl⟩
    have hexit := exit_of_attempt left done
    obtain ⟨settings, report, configured, -, delivered⟩ := left.succeeded hexit
    cases configured with
    | file named => cases named
    | defaults => exact ⟨hexit, delivered.1, report, delivered.2⟩
  case spared =>
    have left : AllOrNothing "now" a disk spared :=
      run_all_or_nothing "now" (by decide +kernel) disk
    have ready : (a.amend {}).Ready disk :=
      ⟨by decide, List.forall_mem_cons.mpr ⟨Disk.isFile_iff.mpr ⟨_, _, holdsA⟩,
        List.forall_mem_singleton.mpr (Disk.isFile_iff.mpr ⟨_, _, holdsB⟩)⟩⟩
    have contents : Playback.Contents disk ["a", "b"] [("a", []), ("b", [0x0A])] :=
      .cons readA (.cons readB .nil)
    have order : Playback.items .core [("a", []), ("b", [0x0A])] ++ Playback.items .av [] =
        [⟨.core, "a", []⟩] ++ ⟨.core, "b", [0x0A]⟩ :: [] := rfl
    have fails : Fails "now" a disk _ :=
      .batchRejected (.defaults rfl) ready (.rejected contents .nil order rfl rfl)
    obtain ⟨hexit, -, hprinted, hdisk⟩ := left.failed _ fails
    exact ⟨hexit, hprinted, hdisk⟩
  case denied =>
    have left : AllOrNothing "now" a locked denied :=
      run_all_or_nothing "now" (by decide +kernel) locked
    have holdsA : locked.Holds "a" ["a"] [] := Disk.resolve_eq_ok_iff.mpr (by decide +kernel)
    have holdsB : locked.Holds "b" ["b"] [0x0A] := Disk.resolve_eq_ok_iff.mpr (by decide +kernel)
    have ready : (a.amend {}).Ready locked :=
      ⟨by decide, List.forall_mem_cons.mpr ⟨Disk.isFile_iff.mpr ⟨_, _, holdsA⟩,
        List.forall_mem_singleton.mpr (Disk.isFile_iff.mpr ⟨_, _, holdsB⟩)⟩⟩
    have readable : locked.read "a" = .ok [] := Disk.read_eq_ok_iff.mpr ⟨_, holdsA, rfl⟩
    have refused : locked.read "b" = .error .permissionDenied := by
      unfold Disk.Holds at holdsB
      rw [Disk.read, holdsB]
      rfl
    have missing : Playback.Missing locked ["a", "b"] "b" .permissionDenied :=
      ⟨refused, ["a"], [], [("a", [])], rfl, .cons readable .nil⟩
    have fails : Fails "now" a locked _ := .batchUnreadable (.defaults rfl) ready missing
    obtain ⟨hexit, hfailure, hprinted, hdisk⟩ := left.failed _ fails
    exact ⟨hexit, hprinted, hdisk, hfailure⟩

end Program

end ToxEvents
