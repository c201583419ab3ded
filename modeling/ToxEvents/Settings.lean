import ToxEvents.Replay.Report
import ToxEvents.Text.Quoted
set_option autoImplicit false

namespace ToxEvents

structure InputSettings where
  core : List String := []
  av : List String := []
deriving DecidableEq, Repr

structure OutputSettings where
  format : ReportFormat := .txt
  /-- Standard output if there is none. -/
  file : Option String := none
  includeEvents : Bool := false
deriving DecidableEq, Repr

structure ReplaySettings where
  /-- At most so many batches of both kinds together. -/
  maxBatches : Option Nat := none
  reuseFrameBuffers : Bool := true
deriving DecidableEq, Repr

structure Settings where
  input : InputSettings := {}
  output : OutputSettings := {}
  replay : ReplaySettings := {}
deriving DecidableEq, Repr

def ReportFormat.name : ReportFormat → String
  | txt => "txt"
  | json => "json"

def ReportFormat.ofName? (name : String) : Option ReportFormat :=
  [txt, json].find? fun format => format.name == name

namespace Settings

def describedList (paths : List String) : String :=
  "[" ++ ", ".intercalate (paths.map Text.quoted) ++ "]"

def describedOption : Option String → String
  | none => "None"
  | some text => s!"Some({text})"

def described (s : Settings) : String :=
  let format := match s.output.format with
    | .txt => "Txt"
    | .json => "Json"
  "AppConfig \x7b input: InputConfig \x7b core: " ++ describedList s.input.core
    ++ ", av: " ++ describedList s.input.av
    ++ " \x7d, output: OutputConfig \x7b format: " ++ format
    ++ ", output_file: " ++ describedOption (s.output.file.map Text.quoted)
    ++ ", include_events: " ++ toString s.output.includeEvents
    ++ " \x7d, replay: ReplayConfig \x7b max_batches: "
    ++ describedOption (s.replay.maxBatches.map toString)
    ++ ", reuse_frame_buffers: " ++ toString s.replay.reuseFrameBuffers ++ " \x7d \x7d"

def json (s : Settings) : Json :=
  .object [
    ("input", .object [
      ("core", .array (s.input.core.map .string)),
      ("av", .array (s.input.av.map .string))]),
    ("output", .object [
      ("format", .string s.output.format.name),
      ("output_file", .ofOption .string s.output.file),
      ("include_events", .bool s.output.includeEvents)]),
    ("replay", .object [
      ("max_batches", .ofOption .ofNat s.replay.maxBatches),
      ("reuse_frame_buffers", .bool s.replay.reuseFrameBuffers)])]

def coreFiles (s : Settings) : List String :=
  match s.replay.maxBatches with
  | none => s.input.core
  | some n => s.input.core.take n

/-- The audio and video files that the limit leaves after the core files. -/
def avFiles (s : Settings) : List String :=
  match s.replay.maxBatches with
  | none => s.input.av
  | some n => s.input.av.take (n - s.coreFiles.length)

end Settings

end ToxEvents
