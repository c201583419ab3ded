import ToxEvents.Delivery.Listener
import ToxEvents.Session.Slots
import ToxEvents.Session.Source
set_option autoImplicit false

/-!
# Sessions

A core session owns a source and, while it is open, a table of callbacks to run when it closes. An
audio and video session belongs to a core session: it keeps a callback there that releases its
source, so that closing the core session closes it too. Sessions are numbered as they are created
and found by name; a name is that of the last session made with it. What refers to a session by its
number, as callbacks do, means that session even when the name has gone to another.
-/
namespace ToxEvents
open Wire

/-- A source in use. The number is its own, the label may be shared. -/
structure Backend (β : Type) where
  id : Nat
  label : String
  source : β

inductive Happening where
  | ticked (backend : Nat) (label : String)
  | released (backend : Nat) (label : String)
  | callChanged (backend : Nat) (label : String) (friend : FriendNumber) (mask : UInt32)
  /-- A callback ran, for the `count`-th time. -/
  | ran (label : String) (count : Nat)
deriving DecidableEq, Repr

def Happening.text : Happening → String
  | ticked _ label => s!"{label}.iterate"
  | released _ label => s!"{label}.kill"
  | callChanged _ label friend mask => s!"{label}.call_state {friend.text} {mask}"
  | ran label count => s!"{label}:{count}"

/-- What a callback does to audio and video sessions, each given as an `α`, when it has run. -/
inductive Reaction (α : Type) where
  | none
  | close (av : α)
  | drop (av : α)
  | both (first second : Reaction α)
deriving DecidableEq, Repr

def Reaction.aim {α γ : Type} (find : α → Option γ) : Reaction α → Reaction γ
  | none => none
  | close av => (find av).elim none close
  | drop av => (find av).elim none drop
  | both first second => both (first.aim find) (second.aim find)

inductive Target where
  | named (name : String)
  | numbered (av : Nat)
deriving DecidableEq, Repr

instance : Coe String Target := ⟨.named⟩

inductive Callback where
  | release (av : Nat)
  | user (label : String) (count : Nat) (reaction : Reaction Nat)
deriving DecidableEq, Repr

/-- A callback in a table. The number is its own, in the order in which callbacks were added. -/
structure Registration where
  id : Nat
  callback : Callback
deriving DecidableEq, Repr

structure CoreSession (β : Type) where
  backend : Backend β
  /-- None once the session has closed. -/
  onClose : Option (SlotTable Registration)

structure AvSession (β : Type) where
  backend : Backend β
  released : Bool := false
  dropped : Bool := false
  core : Nat
  /-- The slot of its callback, until it is given back. -/
  slot : Option Nat

/-- The right to remove a callback once. Only the slot counts, whoever issued it. -/
structure Handle where
  slot : Nat
  issuer : Nat
  registration : Nat
deriving DecidableEq, Repr

structure Hub (β : Type) where
  cores : List (CoreSession β) := []
  avs : List (AvSession β) := []
  coreNames : List (String × Nat) := []
  avNames : List (String × Nat) := []
  handles : List (String × Handle) := []
  backends : Nat := 0
  registrations : Nat := 0
  invoked : Array Nat := #[]
  happenings : Array Happening := #[]
  log : Log := #[]

def rename {α : Type} (name : String) (value : α) (table : List (String × α)) :
    List (String × α) :=
  (name, value) :: table.filter (·.1 != name)

def forget {α : Type} (name : String) (table : List (String × α)) : List (String × α) :=
  table.filter (·.1 != name)

namespace Hub

variable {β : Type} [Source β]

def note (records : List LogRecord) (hub : Hub β) : Hub β :=
  { hub with log := hub.log ++ records }

def witness (h : Happening) (hub : Hub β) : Hub β :=
  { hub with happenings := hub.happenings.push h }

def core? (hub : Hub β) (name : String) : Option Nat := hub.coreNames.lookup name

def av? (hub : Hub β) (name : String) : Option Nat :=
  (hub.avNames.lookup name).filter fun id => hub.avs[id]?.any fun session => !session.dropped

/-- The session that is meant now. A number may be that of a session still to come. -/
def target? (hub : Hub β) : Target → Option Nat
  | .named name => hub.av? name
  | .numbered av => some av

def setCore (id : Nat) (session : CoreSession β) (hub : Hub β) : Hub β :=
  { hub with cores := hub.cores.set id session }

def setAv (id : Nat) (session : AvSession β) (hub : Hub β) : Hub β :=
  { hub with avs := hub.avs.set id session }

def releaseSource (backend : Backend β) (hub : Hub β) : Backend β × Hub β :=
  let (records, source) := Source.release backend.source
  ({ backend with source }, (hub.witness (.released backend.id backend.label)).note records)

def releaseAv (id : Nat) (hub : Hub β) : Hub β :=
  match hub.avs[id]? with
  | none => hub
  | some session =>
    if session.released then hub else
    let (backend, hub) := hub.releaseSource session.backend
    hub.setAv id { session with backend, released := true }

def removeSlot (core slot : Nat) (hub : Hub β) : Hub β :=
  match hub.cores[core]? with
  | none => hub
  | some session =>
    match session.onClose with
    | none =>
      hub.note [⟨.debug, .session, s!"Session already closed, ignoring removal of slot {slot}"⟩]
    | some table =>
      let (table, removal) := table.remove slot
      (hub.setCore core { session with onClose := some table }).note [removal.record slot]

/-- Gives the callback's slot back and releases the source. -/
def closeAv (id : Nat) (hub : Hub β) : Hub β :=
  match hub.avs[id]? with
  | none => hub
  | some session =>
    match session.slot with
    | none => hub.releaseAv id
    | some slot =>
      ((hub.setAv id { session with slot := none }).removeSlot session.core slot).releaseAv id

def dropAv (id : Nat) (hub : Hub β) : Hub β :=
  match hub.avs[id]? with
  | none => hub
  | some session => (hub.setAv id { session with dropped := true }).closeAv id

def react (reaction : Reaction Nat) (hub : Hub β) : Hub β :=
  match reaction with
  | .none => hub
  | .close av => hub.closeAv av
  | .drop av => hub.dropAv av
  | .both first second => (hub.react first).react second

def runCallback (callback : Callback) (hub : Hub β) : Callback × Hub β :=
  match callback with
  | .release av => (.release av, hub.releaseAv av)
  | .user label count reaction =>
    (.user label (count + 1) reaction, (hub.witness (.ran label (count + 1))).react reaction)

def call (registration : Registration) (hub : Hub β) : Registration × Hub β :=
  let (callback, hub) := runCallback registration.callback
    { hub with invoked := hub.invoked.push registration.id }
  ({ registration with callback }, hub)

/-- Runs the callbacks, then releases the source. The table is detached first, so that a callback
that removes another finds the session closed. -/
def closeCore (id : Nat) (hub : Hub β) : Hub β :=
  match hub.cores[id]? with
  | none => hub
  | some session =>
    match session.onClose with
    | none => hub
    | some table =>
      let count := table.live.length
      let hub := (hub.setCore id { session with onClose := none }).note
        [⟨.debug, .session, s!"Closing session, running {count} on-close callback(s)"⟩]
      let (_, hub) := table.invoke call hub
      let (backend, hub) := hub.releaseSource session.backend
      hub.setCore id { backend, onClose := none }

def isClosed (core : Nat) (hub : Hub β) : Bool :=
  match hub.cores[core]? with
  | some session => session.onClose.isNone
  | none => true

/-- A new core session. An older one of that name is dropped afterwards. -/
def openCore (name : String) (source : β) (hub : Hub β) : Hub β :=
  let old := hub.core? name
  let session : CoreSession β := ⟨⟨hub.backends, name, source⟩, some {}⟩
  let hub := { hub with
    cores := hub.cores ++ [session]
    coreNames := rename name hub.cores.length hub.coreNames
    backends := hub.backends + 1 }
  match old with
  | none => hub
  | some id => hub.closeCore id

def addCallback (core : Nat) (callback : Callback) (hub : Hub β) :
    Except Rejection Handle × Hub β :=
  match hub.cores[core]? with
  | none => (.error .sessionClosed, hub)
  | some session =>
    match session.onClose with
    | none => (.error .sessionClosed, hub)
    | some table =>
      let id := hub.registrations
      let (table, slot) := table.add ⟨id, callback⟩
      let hub := { hub with registrations := id + 1 }
      (.ok ⟨slot, core, id⟩,
        (hub.setCore core { session with onClose := some table }).note [SlotTable.addedRecord slot])

/-- A new audio and video session on an open core session. An older one of that name is dropped
afterwards; if the core session has closed, there is no new one and the source stays as it is. -/
def openAv (name : String) (core : Nat) (source : β) (hub : Hub β) :
    Except Rejection Unit × Hub β :=
  let backend : Backend β := ⟨hub.backends, name, source⟩
  let id := hub.avs.length
  match { hub with backends := hub.backends + 1 }.addCallback core (.release id) with
  | (.error rejection, hub) => (.error rejection, hub)
  | (.ok handle, hub) =>
    let old := hub.av? name
    let hub := { hub with
      avs := hub.avs ++ [{ backend, core, slot := some handle.slot }]
      avNames := rename name id hub.avNames }
    match old with
    | none => (.ok (), hub)
    | some id => (.ok (), hub.dropAv id)

def changeCall (av : Nat) (friend : FriendNumber) (flags : CallFlags) (hub : Hub β) :
    Except Rejection Unit × Hub β :=
  match hub.avs[av]? with
  | none => (.error .sessionClosed, hub)
  | some session =>
    if session.released then (.error .sessionClosed, hub) else
    let (records, source) := Source.changeCall friend flags.mask session.backend.source
    let backend := { session.backend with source }
    (.ok (), ((hub.witness (.callChanged backend.id backend.label friend flags.mask)).setAv av
      { session with backend }).note records)

def tickCore (core : Nat) (hub : Hub β) : Except Rejection (Option Bytes) × Hub β :=
  match hub.cores[core]? with
  | none => (.error .sessionClosed, hub)
  | some session =>
    if session.onClose.isNone then (.error .sessionClosed, hub) else
    let (batch, source) := Source.next session.backend.source
    let backend := { session.backend with source }
    (.ok batch,
      (hub.witness (.ticked backend.id backend.label)).setCore core { session with backend })

def tickAv (av : Nat) (hub : Hub β) : Except Rejection (Option Bytes) × Hub β :=
  match hub.avs[av]? with
  | none => (.error .sessionClosed, hub)
  | some session =>
    if session.released then (.error .sessionClosed, hub) else
    let (batch, source) := Source.next session.backend.source
    let backend := { session.backend with source }
    (.ok batch,
      (hub.witness (.ticked backend.id backend.label)).setAv av { session with backend })

end Hub

end ToxEvents
