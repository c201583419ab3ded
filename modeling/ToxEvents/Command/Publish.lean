import ToxEvents.Replay.Playback
set_option autoImplicit false

namespace ToxEvents

structure Published where
  disk : Disk
  printed : String
  records : List LogRecord

/-- A failure, with the disk as it is left. -/
structure Setback where
  failure : Failure
  disk : Disk

def Setback.line (setback : Setback) : String := setback.failure.line

def publish (report : Report) (format : ReportFormat) (file : Option String) (disk : Disk) :
    Except Setback Published :=
  match file with
  | none => .ok ⟨disk, report.render format, []⟩
  | some path =>
    match disk.write path (Utf8.encode (report.render format).toList) with
    | (.error e, disk) => .error ⟨.reportUnwritable path e, disk⟩
    | (.ok (), disk) =>
      .ok ⟨disk, "", [⟨.info, .report, s!"Report written to {Text.quoted path}"⟩]⟩

end ToxEvents
