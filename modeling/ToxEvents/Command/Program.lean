import ToxEvents.Command.Arguments
import ToxEvents.Command.Publish
import ToxEvents.Settings.Load
set_option autoImplicit false

namespace ToxEvents

structure Run where
  exit : Nat
  printed : String := ""
  records : List LogRecord := []
  failure : List String := []
  disk : Disk

/-- A failure on lines of its own, with what lies behind it numbered if that is more than one
thing. -/
def Failure.lines (failure : Failure) : List String :=
  match failure.chain with
  | [] => []
  | [message] => ["Error: " ++ message]
  | [message, cause] => ["Error: " ++ message, "", "Caused by:", "    " ++ cause]
  | message :: causes =>
    ["Error: " ++ message, "", "Caused by:"]
      ++ causes.zipIdx.map fun (cause, i) => Text.padLeft 5 ' ' (toString i) ++ ": " ++ cause

namespace Program

def name : String := "tox-replay"

def version : String := "0.1.0"

def usage : String := "\n".intercalate [
  "Replay recorded Tox event batches through the dispatcher",
  "",
  "Usage: tox-replay [OPTIONS]",
  "",
  "Options:",
  "      --core <FILE>          Core event batch file (can be repeated, replayed in order)",
  "      --av <FILE>            Audio/video event batch file (can be repeated, replayed in order)",
  "  -f, --format <FORMAT>      Report format [possible values: txt, json]",
  "  -o, --output <FILE>        Output file for the report (default: stdout)",
  "  -c, --config <FILE>        Path to configuration file (config.toml)",
  "      --max-batches <COUNT>  Maximum number of batches to replay",
  "      --events               Include every dispatched event in the report",
  "  -v, --verbose...           Verbosity level (can be repeated: -v, -vv, -vvv)",
  "  -q, --quiet                Suppress all output except errors",
  "  -h, --help                 Print help",
  "  -V, --version              Print version",
  ""]

def greeting : List LogRecord :=
  [⟨.info, .program, s!"Tox Event Replay v{version}"⟩,
    ⟨.info, .program, s!"Using dispatch library v{version}"⟩]

def settle (a : Arguments) (disk : Disk) : Except Failure Settings × List LogRecord :=
  let finish (settings : Settings) : Except Failure Settings × List LogRecord :=
    let settings := a.amend settings
    (.ok settings, [⟨.debug, .program, s!"Effective configuration: {settings.described}"⟩])
  match a.config with
  | none => finish {}
  | some path =>
    let record : LogRecord :=
      ⟨.info, .program, s!"Loading configuration from: {Text.quoted path}"⟩
    match Settings.load disk path with
    | .error failure => (.error failure, [record])
    | .ok settings => let (result, records) := finish settings; (result, record :: records)

def carryOut (generatedAt : String) (settings : Settings) (disk : Disk) :
    Except Setback Published × List LogRecord :=
  match settings.validate disk with
  | .error failure => (.error ⟨failure, disk⟩, [])
  | .ok () =>
    match Playback.run generatedAt disk settings with
    | (.error failure, log) => (.error ⟨failure, disk⟩, log.toList)
    | (.ok report, log) =>
      match publish report settings.output.format settings.output.file disk with
      | .error setback => (.error setback, log.toList)
      | .ok published => (.ok published, log.toList ++ published.records)

def told (a : Arguments) (records : List LogRecord) : List LogRecord :=
  records.filter fun r => r.level.rank ≤ a.level.rank

def failed (a : Arguments) (records : List LogRecord) (setback : Setback) : Run :=
  { exit := 1, records := told a records, failure := setback.failure.lines, disk := setback.disk }

def replay (generatedAt : String) (a : Arguments) (disk : Disk) : Run :=
  match settle a disk with
  | (.error failure, records) => failed a (greeting ++ records) ⟨failure, disk⟩
  | (.ok settings, records) =>
    match carryOut generatedAt settings disk with
    | (.error setback, more) => failed a (greeting ++ records ++ more) setback
    | (.ok published, more) =>
      { exit := 0, printed := published.printed, records := told a (greeting ++ records ++ more),
        disk := published.disk }

/-- The paths that a run looks at, as far as the disk tells. -/
def paths (arguments : List String) (disk : Disk) : List String :=
  match Request.ofArguments arguments with
  | .replay a =>
    a.config.toList ++
      match (settle a disk).1 with
      | .ok settings => settings.files ++ settings.output.file.toList
      | .error _ => []
  | _ => []

def usageExit : Nat := 2

def usageHint : List String :=
  ["error: unexpected or incomplete arguments", "", "For more information, try '--help'."]

def run (generatedAt : String) (arguments : List String) (disk : Disk) : Run :=
  match Request.ofArguments arguments with
  | .replay a => replay generatedAt a disk
  | .version => { exit := 0, printed := s!"{name} {version}\n", disk }
  | .help => { exit := 0, printed := usage, disk }
  | .refused => { exit := usageExit, failure := usageHint, disk }

end Program

end ToxEvents
