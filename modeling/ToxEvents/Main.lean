import Std.Time.DateTime.Timestamp
import ToxEvents.Calendar
import ToxEvents.Command.Program
set_option autoImplicit false

namespace ToxEvents.Console

/-- The number of the error that tells a directory from a file. -/
def directoryError : UInt32 := 21

/-- What a path leads to, and whether it may be read; what cannot be found out counts as absent. -/
def look (path : String) : IO (Option DiskNode × Bool) := do
  try
    return (some (.file (← IO.FS.readBinFile path).toList), true)
  catch
    | .inappropriateType _ code _ =>
      return (if code = directoryError then some .directory else none, true)
    | .permissionDenied .. => return (some (.file []), false)
    | _ => return (none, true)

def survey (disk : Disk) (path : String) : IO Disk := do
  let parts := Disk.parts path
  (List.range parts.length).foldlM (fun disk n => do
    let beginning := Disk.pathOf (parts.take (n + 1))
    return match ← look beginning with
      | (none, _) => disk
      | (some node, true) => disk.place beginning node
      | (some node, false) => (disk.place beginning node).lock beginning) disk

def surveyAll (arguments : List String) (disk : Disk) : IO Disk :=
  (Program.paths arguments disk).foldlM survey disk

def now : IO String := do
  return Calendar.stamp (← Std.Time.Timestamp.now).toSecondsSinceUnixEpoch.val.toNat

end ToxEvents.Console

open ToxEvents in
/-- The settings file has to be on the disk before it tells of other files. -/
def main (arguments : List String) : IO UInt32 := do
  let disk ← Console.surveyAll arguments (← Console.surveyAll arguments {})
  let run := Program.run (← Console.now) arguments disk
  for (path, bytes) in Disk.changes disk run.disk do
    IO.FS.writeBinFile path ⟨bytes.toArray⟩
  for record in run.records do
    IO.eprintln record.line
  for line in run.failure do
    IO.eprintln line
  IO.print run.printed
  return UInt32.ofNat run.exit
