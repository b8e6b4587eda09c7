import LogAdmission.Buffer.Basic
import LogAdmission.Buffer.Pool
import LogAdmission.Buffer.PoolSteps
import LogAdmission.Buffer.Steps
import LogAdmission.Buffer.Word
import LogAdmission.Calendar
import LogAdmission.Cells
import LogAdmission.Contention
import LogAdmission.Context
import LogAdmission.Counter.Basic
import LogAdmission.Counter.Race
import LogAdmission.Counter.Shard
import LogAdmission.Double.Basic
import LogAdmission.Double.Layout
import LogAdmission.Double.Read
import LogAdmission.Double.Round
import LogAdmission.Double.Shortest
import LogAdmission.Handler.Basic
import LogAdmission.Handler.Build
import LogAdmission.Handler.Scope
import LogAdmission.Host
import LogAdmission.Instant
import LogAdmission.Level
import LogAdmission.Logger
import LogAdmission.Main
import LogAdmission.Notice
import LogAdmission.Outcome
import LogAdmission.Random
import LogAdmission.RateLimit
import LogAdmission.Record
import LogAdmission.Requests
import LogAdmission.Sampler
import LogAdmission.Sink.Endpoint
import LogAdmission.Sink.Line
import LogAdmission.Sink.Recorder
import LogAdmission.Sink.Text
import LogAdmission.Sink.World
import LogAdmission.Sink.Writer
import LogAdmission.Spans.Bridge
import LogAdmission.Spans.Event
import LogAdmission.Spans.Forest
import LogAdmission.Spans.Registry
import LogAdmission.Text.Blank
import LogAdmission.Text.Numeral
import LogAdmission.Text.Quoted
import LogAdmission.Text.Unprintable
import LogAdmission.Text.Utf8
import LogAdmission.Trace.Basic
import LogAdmission.Trace.Header
import LogAdmission.Trace.Root
import LogAdmission.Value
import LogAdmission.Proofs.Buffer.Emission
import LogAdmission.Proofs.Runs
import LogAdmission.Proofs.Buffer.Fifo
import LogAdmission.Proofs.Buffer.Overlap
import LogAdmission.Proofs.Scopes.Custody
import LogAdmission.Proofs.Scopes.Refinement
import LogAdmission.Proofs.Scopes.Log
import LogAdmission.Proofs.Scopes.Sessions
import LogAdmission.Proofs.Buffer.Frame
import LogAdmission.Proofs.Handler.Frame
import LogAdmission.Proofs.Handler.Programs
import LogAdmission.Proofs.RateLimit.Admission
import LogAdmission.Proofs.Buffer.Order
import LogAdmission.Proofs.Counter.Contest
import LogAdmission.Proofs.Counter.Rollover
import LogAdmission.Proofs.Buffer.Arrival
import LogAdmission.Proofs.Pool.Scopes
import LogAdmission.Proofs.Pool.Account
import LogAdmission.Proofs.Pool.Emission
import LogAdmission.Proofs.Pool.Ownership
import LogAdmission.Proofs.Pool.Delivery
import LogAdmission.Proofs.Text.Hexadecimal
import LogAdmission.Proofs.Text.Trim
import LogAdmission.Proofs.Trace.Grammar
import LogAdmission.Proofs.Trace.RoundTrip
import LogAdmission.Proofs.Line.Symbols
import LogAdmission.Proofs.Line.Plain
import LogAdmission.Proofs.Line.Contents
import LogAdmission.Proofs.Sink.Derivation
import LogAdmission.Proofs.Sink.Stream
import LogAdmission.Proofs.Handler.Likeness
import LogAdmission.Proofs.Sink.Rendering
import LogAdmission.Proofs.Tenancy.Calls
import LogAdmission.Proofs.Tenancy.Leases
import LogAdmission.Proofs.Tenancy.Orderly
import LogAdmission.Proofs.Handler.Watch
import LogAdmission.Proofs.Handler.Gate
import LogAdmission.Proofs.Tenancy.Witness
import LogAdmission.Proofs.Tenancy.Family
import LogAdmission.Proofs.RateLimit.Journal
import LogAdmission.Proofs.RateLimit.Sliding
import LogAdmission.Proofs.RateLimit.RecordTime
import LogAdmission.Proofs.Sink.Deliveries
import LogAdmission.Proofs.Spans.Bridging
import LogAdmission.Proofs.Spans.Filing
