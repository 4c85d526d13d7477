import WriteBehind.Chunk
import WriteBehind.Command.Options
import WriteBehind.Command.Run
import WriteBehind.Decimal.Shortest
import WriteBehind.Flush.Attempt
import WriteBehind.Flush.Chunked
import WriteBehind.Flush.Fault
import WriteBehind.Ingest.Fault
import WriteBehind.Ingest.Input
import WriteBehind.Ingest.Layout
import WriteBehind.Ingest.Machine
import WriteBehind.Ingest.Reference
import WriteBehind.Ingest.Run
import WriteBehind.Ingest.Settings
import WriteBehind.Json.Fault
import WriteBehind.Json.Grammar
import WriteBehind.Json.Number
import WriteBehind.Json.Quoted
import WriteBehind.Json.Reader
import WriteBehind.Json.Skip
import WriteBehind.Json.Value
import WriteBehind.Json.Value.Grammar
import WriteBehind.Json.Value.Reader
import WriteBehind.Log.Filter
import WriteBehind.Log.Level
import WriteBehind.Log.Line
import WriteBehind.Log.Notice
import WriteBehind.Main
import WriteBehind.Proofs.Chunk.Partition
import WriteBehind.Proofs.Chunk.Windows
import WriteBehind.Proofs.Except
import WriteBehind.Proofs.Flush.Course
import WriteBehind.Proofs.Flush.Walk
import WriteBehind.Proofs.Ingest.Contents
import WriteBehind.Proofs.Ingest.Course
import WriteBehind.Proofs.Ingest.CutOff
import WriteBehind.Proofs.Ingest.Destination
import WriteBehind.Proofs.Ingest.Execution
import WriteBehind.Proofs.Ingest.Failure
import WriteBehind.Proofs.Ingest.Gains
import WriteBehind.Proofs.Ingest.Layout
import WriteBehind.Proofs.Ingest.Moves
import WriteBehind.Proofs.Ingest.Outcome
import WriteBehind.Proofs.Ingest.Progress
import WriteBehind.Proofs.Ingest.Reference
import WriteBehind.Proofs.Ingest.Usual
import WriteBehind.Proofs.Json.Number
import WriteBehind.Proofs.Json.Quoted
import WriteBehind.Proofs.Json.Skip
import WriteBehind.Proofs.Json.Value.Reading
import WriteBehind.Proofs.Json.Value.Writing
import WriteBehind.Proofs.Log.Line
import WriteBehind.Proofs.Record.Index
import WriteBehind.Proofs.Record.Listing
import WriteBehind.Proofs.Record.Members
import WriteBehind.Proofs.Record.Object
import WriteBehind.Proofs.Record.RoundTrip
import WriteBehind.Proofs.Record.Shown
import WriteBehind.Proofs.Record.Spelling
import WriteBehind.Proofs.Record.Tolerance
import WriteBehind.Proofs.Storage.Address
import WriteBehind.Proofs.Storage.Admission
import WriteBehind.Proofs.Storage.Atomicity
import WriteBehind.Proofs.Storage.Corruption
import WriteBehind.Proofs.Storage.Decoding
import WriteBehind.Proofs.Storage.Disk
import WriteBehind.Proofs.Storage.Insertion
import WriteBehind.Proofs.Storage.Readback
import WriteBehind.Proofs.Storage.Refinement
import WriteBehind.Proofs.Storage.Reopening
import WriteBehind.Proofs.Text.Blank
import WriteBehind.Proofs.Text.Encoding
import WriteBehind.Proofs.Text.Lines
import WriteBehind.Proofs.Text.Pieces
import WriteBehind.Proofs.Time.Calendar
import WriteBehind.Proofs.Time.Digits
import WriteBehind.Proofs.Time.Relaxed
import WriteBehind.Proofs.Time.Text
import WriteBehind.Proofs.Writer.Alignment
import WriteBehind.Proofs.Writer.Backpressure
import WriteBehind.Proofs.Writer.Balance
import WriteBehind.Proofs.Writer.Buffering
import WriteBehind.Proofs.Writer.Chunked
import WriteBehind.Proofs.Writer.Closing
import WriteBehind.Proofs.Writer.Conservation
import WriteBehind.Proofs.Writer.Counting
import WriteBehind.Proofs.Writer.Discarding
import WriteBehind.Proofs.Writer.Frame
import WriteBehind.Proofs.Writer.Lifecycle
import WriteBehind.Proofs.Writer.Producer
import WriteBehind.Proofs.Writer.Progress
import WriteBehind.Proofs.Writer.Reading
import WriteBehind.Proofs.Writer.Shutdown
import WriteBehind.Proofs.Writer.Standing
import WriteBehind.Proofs.Writer.Starting
import WriteBehind.Proofs.Writer.Ticking
import WriteBehind.Proofs.Writer.Turn
import WriteBehind.Record
import WriteBehind.Record.Edits
import WriteBehind.Record.Grammar
import WriteBehind.Record.Index
import WriteBehind.Record.Line
import WriteBehind.Record.Reader
import WriteBehind.Rehearsal.Desk
import WriteBehind.Rehearsal.Plan
import WriteBehind.Rehearsal.Sink
import WriteBehind.Rehearsal.Task
import WriteBehind.Rehearsal.World
import WriteBehind.Storage.Address
import WriteBehind.Storage.Calls
import WriteBehind.Storage.Catalogue
import WriteBehind.Storage.Database
import WriteBehind.Storage.Disk
import WriteBehind.Storage.Fault
import WriteBehind.Storage.Fitting
import WriteBehind.Storage.Image
import WriteBehind.Storage.Opening
import WriteBehind.Storage.Row
import WriteBehind.Storage.Table
import WriteBehind.Storage.Writing
import WriteBehind.Text.Blank
import WriteBehind.Text.Extending
import WriteBehind.Text.Hex
import WriteBehind.Text.Lines
import WriteBehind.Text.Printable
import WriteBehind.Text.Quoted
import WriteBehind.Text.Utf8
import WriteBehind.Time.Calendar
import WriteBehind.Time.Fault
import WriteBehind.Time.Instant
import WriteBehind.Time.Relaxed
import WriteBehind.Time.Span
import WriteBehind.Time.Strict
import WriteBehind.Time.Zoned
import WriteBehind.Writer.Fault
import WriteBehind.Writer.History
import WriteBehind.Writer.Intake
import WriteBehind.Writer.Settings
import WriteBehind.Writer.State
import WriteBehind.Writer.Stats
import WriteBehind.Writer.Step
