set_option autoImplicit false

namespace ToxEvents

class Enumeration (ε : Type) where
  title : String
  all : List ε
  label : ε → String

namespace Enumeration

variable {ε : Type} [Enumeration ε]

def ofCode? (code : Int32) : Option ε :=
  if code < 0 then none else (all (ε := ε))[code.toInt.toNat]?

def ofLabel? (name : String) : Option ε := all.find? fun e => label e == name

def text (e : ε) : String := (label e).toLower

end Enumeration

inductive Connection where
  | none
  | tcp
  | udp
deriving DecidableEq, Repr

instance : Enumeration Connection where
  title := "Connection"
  all := [.none, .tcp, .udp]
  label
    | .none => "None"
    | .tcp => "Tcp"
    | .udp => "Udp"

inductive UserStatus where
  | none
  | away
  | busy
deriving DecidableEq, Repr

instance : Enumeration UserStatus where
  title := "UserStatus"
  all := [.none, .away, .busy]
  label
    | .none => "None"
    | .away => "Away"
    | .busy => "Busy"

inductive MessageType where
  | normal
  | action
deriving DecidableEq, Repr

instance : Enumeration MessageType where
  title := "MessageType"
  all := [.normal, .action]
  label
    | .normal => "Normal"
    | .action => "Action"

inductive FileControl where
  | resume
  | pause
  | cancel
deriving DecidableEq, Repr

instance : Enumeration FileControl where
  title := "FileControl"
  all := [.resume, .pause, .cancel]
  label
    | .resume => "Resume"
    | .pause => "Pause"
    | .cancel => "Cancel"

inductive CallFlag where
  | error
  | finished
  | sendingAudio
  | sendingVideo
  | acceptingAudio
  | acceptingVideo
deriving DecidableEq, Repr

instance : Enumeration CallFlag where
  title := "CallState.Kind"
  all := [.error, .finished, .sendingAudio, .sendingVideo, .acceptingAudio, .acceptingVideo]
  label
    | .error => "Error"
    | .finished => "Finished"
    | .sendingAudio => "SendingA"
    | .sendingVideo => "SendingV"
    | .acceptingAudio => "AcceptingA"
    | .acceptingVideo => "AcceptingV"

end ToxEvents
