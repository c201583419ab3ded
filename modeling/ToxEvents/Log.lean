set_option autoImplicit false

namespace ToxEvents

inductive Level where
  | error
  | warn
  | info
  | debug
  | trace
deriving DecidableEq, Repr

namespace Level

def label : Level → String
  | error => "ERROR"
  | warn => "WARN"
  | info => "INFO"
  | debug => "DEBUG"
  | trace => "TRACE"

/-- Higher ranks speak of smaller things. -/
def rank : Level → Nat
  | error => 0
  | warn => 1
  | info => 2
  | debug => 3
  | trace => 4

end Level

inductive Topic where
  | program
  | playback
  | report
  | coreBatch
  | avBatch
  | delivery
  | slots
  | session
deriving DecidableEq, Repr

def Topic.label : Topic → String
  | program => "tox_replay"
  | playback => "tox_replay::replay"
  | report => "tox_replay::report"
  | coreBatch => "tox_dispatch::dispatch::protocol"
  | avBatch => "tox_dispatch::dispatch::av"
  | delivery => "tox_dispatch::dispatch"
  | slots => "tox_dispatch::registry"
  | session => "tox_dispatch::session"

structure LogRecord where
  level : Level
  topic : Topic
  text : String
deriving DecidableEq, Repr

namespace LogRecord

def line (r : LogRecord) : String := s!"[{r.level.label} {r.topic.label}] {r.text}"

def brief (r : LogRecord) : String := s!"{r.level.label} {r.text}"

end LogRecord

abbrev Log := Array LogRecord

end ToxEvents
