import ToxEvents.Replay.Playback
import ToxEvents.Toml.Document
set_option autoImplicit false

namespace ToxEvents.Settings

def load (disk : Disk) (path : String) : Except Failure Settings :=
  match disk.readText path with
  | .error e => .error (.configUnreadable path e)
  | .ok text =>
    match ofToml? text with
    | some settings => .ok settings
    | none => .error (.configInvalid path)

def files (settings : Settings) : List String := settings.input.core ++ settings.input.av

def validate (disk : Disk) (settings : Settings) : Except Failure Unit :=
  if settings.files.isEmpty then .error .noBatchFiles
  else
    match settings.files.find? fun path => !disk.isFile path with
    | some path => .error (.batchMissing path)
    | none => .ok ()

end ToxEvents.Settings
