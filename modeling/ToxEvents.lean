import ToxEvents.Batch.AvRecord
import ToxEvents.Batch.Basic
import ToxEvents.Batch.Category
import ToxEvents.Batch.CoreRecord
import ToxEvents.Batch.Surfaces
import ToxEvents.Calendar
import ToxEvents.Command.Arguments
import ToxEvents.Command.Disk
import ToxEvents.Command.Program
import ToxEvents.Command.Publish
import ToxEvents.Delivery.Listener
import ToxEvents.Delivery.Pass
import ToxEvents.Delivery.Transcript
import ToxEvents.Document
import ToxEvents.Event.Av
import ToxEvents.Event.CallFlags
import ToxEvents.Event.Core
import ToxEvents.Event.Enumeration
import ToxEvents.Event.Json
import ToxEvents.Event.Picture
import ToxEvents.Event.Rejection
import ToxEvents.Event.Scalar
import ToxEvents.Json.Basic
import ToxEvents.Json.Document
import ToxEvents.Json.Reader
import ToxEvents.Log
import ToxEvents.Main
import ToxEvents.Proofs.Batch.Concatenation
import ToxEvents.Proofs.Batch.Fields
import ToxEvents.Proofs.Batch.Isolation
import ToxEvents.Proofs.Batch.Reading
import ToxEvents.Proofs.Batch.RoundTrip
import ToxEvents.Proofs.Command.AllOrNothing
import ToxEvents.Proofs.Command.Overwriting
import ToxEvents.Proofs.Delivery.Acceptance
import ToxEvents.Proofs.Delivery.FieldOrder
import ToxEvents.Proofs.Delivery.Flaws
import ToxEvents.Proofs.Delivery.Handler
import ToxEvents.Proofs.Delivery.Planes
import ToxEvents.Proofs.Delivery.Refusals
import ToxEvents.Proofs.Delivery.Samples
import ToxEvents.Proofs.Delivery.SingleFold
import ToxEvents.Proofs.Delivery.Sizing
import ToxEvents.Proofs.Delivery.Succession
import ToxEvents.Proofs.Delivery.Truncation
import ToxEvents.Proofs.Delivery.Turn
import ToxEvents.Proofs.Delivery.Unanswered
import ToxEvents.Proofs.Event.FlagLists
import ToxEvents.Proofs.Event.UnknownBits
import ToxEvents.Proofs.Json.RoundTrip
import ToxEvents.Proofs.Json.Scalars
import ToxEvents.Proofs.Replay.Accounting
import ToxEvents.Proofs.Replay.EventLines
import ToxEvents.Proofs.Replay.EventLog
import ToxEvents.Proofs.Replay.Frames
import ToxEvents.Proofs.Replay.FullCounts
import ToxEvents.Proofs.Replay.IdleTicks
import ToxEvents.Proofs.Replay.JsonReport
import ToxEvents.Proofs.Replay.Loading
import ToxEvents.Proofs.Replay.Outcome
import ToxEvents.Proofs.Replay.Playing
import ToxEvents.Proofs.Replay.Provenance
import ToxEvents.Proofs.Replay.Recycling
import ToxEvents.Proofs.Replay.Reuse
import ToxEvents.Proofs.Replay.SortedTable
import ToxEvents.Proofs.Replay.Tallying
import ToxEvents.Proofs.Replay.Telling
import ToxEvents.Proofs.Replay.TextReport
import ToxEvents.Proofs.Replay.Totals
import ToxEvents.Proofs.Session.Balance
import ToxEvents.Proofs.Session.Continuity
import ToxEvents.Proofs.Session.Entries
import ToxEvents.Proofs.Session.Finality
import ToxEvents.Proofs.Session.Linked
import ToxEvents.Proofs.Session.Mirror
import ToxEvents.Proofs.Session.Move
import ToxEvents.Proofs.Session.Operations
import ToxEvents.Proofs.Session.Roll
import ToxEvents.Proofs.Session.Safety
import ToxEvents.Proofs.Session.Shape
import ToxEvents.Proofs.Session.Sound
import ToxEvents.Proofs.Session.Tables
import ToxEvents.Proofs.Session.Teardown
import ToxEvents.Proofs.Session.Tenancy
import ToxEvents.Proofs.Text.Forms
import ToxEvents.Proofs.Text.LineFeeds
import ToxEvents.Proofs.Text.Lines
import ToxEvents.Proofs.Text.Replacement
import ToxEvents.Proofs.Text.Scanning
import ToxEvents.Proofs.Wire.Form
import ToxEvents.Proofs.Wire.Prefix
import ToxEvents.Proofs.Wire.Recognition
import ToxEvents.Proofs.Wire.Record
import ToxEvents.Proofs.Wire.RoundTrip
import ToxEvents.Proofs.Wire.Slices
import ToxEvents.Proofs.Wire.Tokens
import ToxEvents.Proofs.Wire.Unknown
import ToxEvents.Proofs.Wire.Varint
import ToxEvents.Proofs.Wire.Writing
import ToxEvents.Replay.Playback
import ToxEvents.Replay.Recorder
import ToxEvents.Replay.Report
import ToxEvents.Replay.Tally
import ToxEvents.Session.Hub
import ToxEvents.Session.Meeting
import ToxEvents.Session.Slots
import ToxEvents.Session.Source
import ToxEvents.Settings
import ToxEvents.Settings.Load
import ToxEvents.Settings.Reader
import ToxEvents.Text.Blank
import ToxEvents.Text.Numeral
import ToxEvents.Text.Quoted
import ToxEvents.Text.Scanner
import ToxEvents.Text.Unprintable
import ToxEvents.Text.Utf8
import ToxEvents.Toml.Basic
import ToxEvents.Toml.Document
import ToxEvents.Toml.Reader
import ToxEvents.Toml.Reader.Moment
import ToxEvents.Toml.Reader.Number
import ToxEvents.Toml.Reader.Text
import ToxEvents.Wire.Fault
import ToxEvents.Wire.Input
import ToxEvents.Wire.Key
import ToxEvents.Wire.Reader
import ToxEvents.Wire.Record
import ToxEvents.Wire.Varint
