import ToxEvents.Log
import ToxEvents.Settings.Reader
set_option autoImplicit false

/-!
# The command line

Arguments are taken from left to right, and the first that settles the matter wins: a request for
the version or for help, or anything that is not understood. An option has its value in the same
argument or in the next one. Options with one letter may share an argument.
-/
namespace ToxEvents

structure Arguments where
  core : List String := []
  av : List String := []
  format : Option ReportFormat := none
  output : Option String := none
  config : Option String := none
  maxBatches : Option Nat := none
  events : Bool := false
  verbosity : Nat := 0
  quiet : Bool := false
deriving DecidableEq, Repr

inductive Request where
  | replay (arguments : Arguments)
  | version
  | help
  | refused
deriving DecidableEq, Repr

inductive Setting where
  | core
  | av
  | format
  | output
  | config
  | maxBatches
deriving DecidableEq, Repr

inductive Switch where
  | events
  | verbose
  | quiet
  | version
  | help
deriving DecidableEq, Repr

inductive CommandOption where
  | setting (s : Setting)
  | switch (s : Switch)
deriving DecidableEq, Repr

namespace CommandOption

def ofName? : String → Option CommandOption
  | "core" => some (setting .core)
  | "av" => some (setting .av)
  | "format" => some (setting .format)
  | "output" => some (setting .output)
  | "config" => some (setting .config)
  | "max-batches" => some (setting .maxBatches)
  | "events" => some (switch .events)
  | "verbose" => some (switch .verbose)
  | "quiet" => some (switch .quiet)
  | "version" => some (switch .version)
  | "help" => some (switch .help)
  | _ => none

def ofLetter? : Char → Option CommandOption
  | 'f' => some (setting .format)
  | 'o' => some (setting .output)
  | 'c' => some (setting .config)
  | 'v' => some (switch .verbose)
  | 'q' => some (switch .quiet)
  | 'V' => some (switch .version)
  | 'h' => some (switch .help)
  | _ => none

end CommandOption

/-- A number of batches in decimal digits, which may have a plus sign. -/
def batchLimit? (text : List Char) : Option Nat :=
  let digits := if text.head? = some '+' then text.tail else text
  let n := Text.ofDigits 10 digits
  if !digits.isEmpty ∧ digits.all Char.isDigit ∧ n ≤ maxBatchLimit then some n else none

namespace Arguments

/-- Gives an option its value. Only files may be given more than once. -/
def give (a : Arguments) (setting : Setting) (value : String) : Option Arguments :=
  if value.isEmpty then none else
  match setting with
  | .core => some { a with core := a.core ++ [value] }
  | .av => some { a with av := a.av ++ [value] }
  | .format =>
    if a.format.isSome then none
    else (ReportFormat.ofName? value).map fun format => { a with format := some format }
  | .output => if a.output.isSome then none else some { a with output := some value }
  | .config => if a.config.isSome then none else some { a with config := some value }
  | .maxBatches =>
    if a.maxBatches.isSome then none
    else (batchLimit? value.toList).map fun n => { a with maxBatches := some n }

def turnOn (a : Arguments) : Switch → Except Request Arguments
  | .events => if a.events then .error .refused else .ok { a with events := true }
  | .verbose => .ok { a with verbosity := a.verbosity + 1 }
  | .quiet => if a.quiet then .error .refused else .ok { a with quiet := true }
  | .version => .error .version
  | .help => .error .help

inductive Progress where
  | going (a : Arguments)
  /-- The next argument has to be the value of this option. -/
  | awaiting (a : Arguments) (setting : Setting)
  | settled (request : Request)

def Progress.ofOption : Option Arguments → Progress
  | some a => going a
  | none => settled .refused

/-- Letters that share an argument. The rest of it after an option with a value is the value. -/
def takeLetters (a : Arguments) : List Char → Progress
  | [] => .going a
  | letter :: rest =>
    match CommandOption.ofLetter? letter with
    | none => .settled .refused
    | some (.switch s) =>
      match a.turnOn s with
      | .error request => .settled request
      | .ok a => takeLetters a rest
    | some (.setting s) =>
      match rest with
      | [] => .awaiting a s
      | '=' :: value => .ofOption (a.give s (String.ofList value))
      | value => .ofOption (a.give s (String.ofList value))

def takeName (a : Arguments) (text : List Char) : Progress :=
  let name := String.ofList (text.takeWhile (· != '='))
  match CommandOption.ofName? name, text.dropWhile (· != '=') with
  | some (.switch s), [] =>
    match a.turnOn s with
    | .error request => .settled request
    | .ok a => .going a
  | some (.setting s), [] => .awaiting a s
  | some (.setting s), _ :: value => .ofOption (a.give s (String.ofList value))
  | _, _ => .settled .refused

def take (a : Arguments) (argument : String) : Progress :=
  match argument.toList with
  | ['-'] => .settled .refused
  | '-' :: '-' :: text => takeName a text
  | '-' :: letters => takeLetters a letters
  | _ => .settled .refused

def isValue (argument : String) : Bool := argument = "-" || !argument.startsWith "-"

/-- Two hyphens end the options; nothing may follow them. -/
def readFrom (a : Arguments) : List String → Request
  | [] => .replay a
  | argument :: rest =>
    if argument = "--" then if rest.isEmpty then .replay a else .refused else
    match a.take argument with
    | .settled request => request
    | .going a => readFrom a rest
    | .awaiting a setting =>
      match rest with
      | [] => .refused
      | value :: rest =>
        if !isValue value then .refused else
        match a.give setting value with
        | some a => readFrom a rest
        | none => .refused

end Arguments

def Request.ofArguments (arguments : List String) : Request := Arguments.readFrom {} arguments

def Arguments.amend (a : Arguments) (settings : Settings) : Settings where
  input := { core := settings.input.core ++ a.core, av := settings.input.av ++ a.av }
  output := {
    format := a.format.getD settings.output.format
    file := a.output.or settings.output.file
    includeEvents := a.events || settings.output.includeEvents }
  replay := { settings.replay with maxBatches := a.maxBatches.or settings.replay.maxBatches }

def Arguments.level (a : Arguments) : Level :=
  if a.quiet then .error
  else
    match a.verbosity with
    | 0 => .info
    | 1 => .debug
    | _ => .trace

end ToxEvents
