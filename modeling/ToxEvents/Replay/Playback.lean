import ToxEvents.Command.Disk
import ToxEvents.Replay.Recorder
import ToxEvents.Session.Meeting
import ToxEvents.Settings
set_option autoImplicit false

/-!
# Playback

Each file holds what one tick brought; an empty file stands for a tick without a batch. All files
are read first; then the core files are played through a core session, and the others through an
audio and video session on it, into one tally.
-/
namespace ToxEvents
open Wire

structure BatchFiles where
  batches : List (Option Bytes)
deriving DecidableEq, Repr

namespace BatchFiles

def next (s : BatchFiles) : Option Bytes × BatchFiles := (s.batches.head?.join, ⟨s.batches.tail⟩)

def release (s : BatchFiles) : List LogRecord × BatchFiles :=
  if s.batches.isEmpty then ([], s)
  else ([⟨.debug, .playback, s!"Discarding {s.batches.length} unreplayed batch(es)"⟩], ⟨[]⟩)

def changeCall (friend : FriendNumber) (mask : UInt32) (s : BatchFiles) :
    List LogRecord × BatchFiles :=
  ([⟨.debug, .playback, s!"Recorded session has no peer, dropping call state "
      ++ Text.binary 0 mask.toNat ++ " for friend " ++ friend.text⟩], s)

instance : Source BatchFiles where
  next := next
  release := release
  changeCall := changeCall

end BatchFiles

inductive Failure where
  | configUnreadable (path : String) (error : DiskError)
  | configInvalid (path : String)
  | noBatchFiles
  | batchMissing (path : String)
  | batchUnreadable (path : String) (error : DiskError)
  | coreRejected (path : String) (rejection : Rejection)
  | avRejected (path : String) (rejection : Rejection)
  | sessionRejected (rejection : Rejection)
  | reportUnwritable (path : String) (error : DiskError)
deriving DecidableEq, Repr

namespace Failure

def chain : Failure → List String
  | configUnreadable path error =>
    ["Failed to read config file: " ++ Text.quoted path, error.message]
  | configInvalid path => ["Failed to parse config file: " ++ Text.quoted path]
  | noBatchFiles => ["No batch files to replay"]
  | batchMissing path => ["Batch file not found: " ++ Text.quoted path]
  | batchUnreadable path error =>
    ["Failed to read batch file: " ++ Text.quoted path, error.message]
  | coreRejected path rejection =>
    ("Failed to dispatch core batch: " ++ Text.quoted path) :: rejection.chain
  | avRejected path rejection =>
    ("Failed to dispatch AV batch: " ++ Text.quoted path) :: rejection.chain
  | sessionRejected rejection => rejection.chain
  | reportUnwritable path error =>
    ["Failed to write report: " ++ Text.quoted path, error.message]

def line (failure : Failure) : String := ": ".intercalate failure.chain

end Failure

namespace Playback

/-- Reads the files of one kind in order, up to the first that cannot be read. -/
def load (disk : Disk) : List String → Except Failure BatchFiles × List LogRecord
  | [] => (.ok ⟨[]⟩, [])
  | path :: rest =>
    match disk.read path with
    | .error e => (.error (.batchUnreadable path e), [])
    | .ok bytes =>
      let record : LogRecord :=
        ⟨.debug, .playback, s!"Loaded {Text.quoted path} ({bytes.length} bytes)"⟩
      let (files, records) := load disk rest
      (files.map fun files => ⟨(if bytes.isEmpty then none else some bytes) :: files.batches⟩,
        record :: records)

def coreName : String := "core"

def avName : String := "av"

def audience : Audience Recorder Tally := ⟨Recorder.coreListener, Recorder.avListener⟩

abbrev Room := Meeting BatchFiles Recorder Tally

def note (records : List LogRecord) (room : Room) : Room :=
  { room with hub := room.hub.note records }

def announce (kind path : String) : LogRecord :=
  ⟨.debug, .playback, s!"Replaying {kind} batch {Text.quoted path}"⟩

def carryOut (step : Step BatchFiles) (room : Room) : Room := (room.perform audience step).2

def play (kind : String) (tick : Step BatchFiles) (fail : String → Rejection → Failure) :
    List String → Room → Except Failure Unit × Room
  | [], room => (.ok (), room)
  | path :: rest, room =>
    match (note [announce kind path] room).perform audience tick with
    | (.received tally, room) =>
      play kind tick fail rest { room with state := tally.nextBatch }
    | (.stopped rejection, room) => (.error (fail path rejection), room)
    | (_, room) => (.error (fail path .sessionClosed), room)

/-- Leaves both sessions, the younger one first. -/
def leave (room : Room) : Room :=
  carryOut (.dropCore coreName) (carryOut (.dropAv avName) room)

def summary (core av events : Nat) : LogRecord :=
  ⟨.info, .playback, s!"Replayed {core} core and {av} AV batch(es), {events} event(s)"⟩

def playAll (settings : Settings) (room : Room) : Except Failure Unit × Room :=
  match play "core" (.tickCore coreName) .coreRejected settings.coreFiles room with
  | (.error failure, room) => (.error failure, room)
  | (.ok (), room) =>
    match play "AV" (.tickAv avName) .avRejected settings.avFiles room with
    | (.error failure, room) => (.error failure, room)
    | (.ok (), room) =>
      let room := carryOut (.closeCore coreName) room
      (.ok (), note [summary settings.coreFiles.length settings.avFiles.length room.state.total]
        room)

def run (generatedAt : String) (disk : Disk) (settings : Settings) : Except Failure Report × Log :=
  let room : Room :=
    { listener := { reuses := settings.replay.reuseFrameBuffers }
      state := Tally.start settings.output.includeEvents }
  let (core, records) := load disk settings.coreFiles
  let room := note records room
  match core with
  | .error failure => (.error failure, room.hub.log)
  | .ok core =>
    let room := carryOut (.openCore coreName core) room
    let (av, records) := load disk settings.avFiles
    let room := note records room
    match av with
    | .error failure =>
      (.error failure, (carryOut (.dropCore coreName) room).hub.log)
    | .ok av =>
      match room.perform audience (.openAv avName coreName av) with
      | (.rejected rejection, room) =>
        (.error (.sessionRejected rejection), (carryOut (.dropCore coreName) room).hub.log)
      | (_, room) =>
        let (result, room) := playAll settings room
        let report := Report.ofTally generatedAt room.state settings.coreFiles.length
          settings.avFiles.length room.listener.reused
        (result.map fun _ => report, (leave room).hub.log)

end Playback

end ToxEvents
