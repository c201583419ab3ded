import ToxEvents.Document
import ToxEvents.Settings
set_option autoImplicit false

namespace ToxEvents

def maxBatchLimit : Nat := 0xFFFFFFFFFFFFFFFF

def ReportFormat.ofDocument? (dialect : Dialect) (document : Document) : Option ReportFormat := do
  ReportFormat.ofName? (← document.choice dialect)

def InputSettings.ofDocument? (dialect : Dialect) (document : Document) :
    Option InputSettings := do
  match ← document.fields dialect ["core", "av"] with
  | [core, av] =>
    return {
      core := ← core.orElse [] (Document.asList Document.asText)
      av := ← av.orElse [] (Document.asList Document.asText) }
  | _ => none

def OutputSettings.ofDocument? (dialect : Dialect) (document : Document) :
    Option OutputSettings := do
  match ← document.fields dialect ["format", "output_file", "include_events"] with
  | [format, file, events] =>
    return {
      format := ← format.orElse .txt (ReportFormat.ofDocument? dialect)
      file := ← file.orNone Document.asText
      includeEvents := ← events.orElse false Document.asBool }
  | _ => none

def ReplaySettings.ofDocument? (dialect : Dialect) (document : Document) :
    Option ReplaySettings := do
  match ← document.fields dialect ["max_batches", "reuse_frame_buffers"] with
  | [limit, reuse] =>
    return {
      maxBatches := ← limit.orNone (Document.asNat maxBatchLimit)
      reuseFrameBuffers := ← reuse.orElse true Document.asBool }
  | _ => none

def Settings.ofDocument? (dialect : Dialect) (document : Document) : Option Settings := do
  match ← document.fields dialect ["input", "output", "replay"] with
  | [input, output, replay] =>
    return {
      input := ← input.orElse {} (InputSettings.ofDocument? dialect)
      output := ← output.orElse {} (OutputSettings.ofDocument? dialect)
      replay := ← replay.orElse {} (ReplaySettings.ofDocument? dialect) }
  | _ => none

end ToxEvents
