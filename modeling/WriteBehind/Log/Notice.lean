import WriteBehind.Flush.Fault
import WriteBehind.Log.Level
import WriteBehind.Time.Span

namespace WriteBehind.Log

inductive Source
  | writer
  | loop
  | chunks
  | file
  | table
  | run
  | input
deriving DecidableEq, Repr

def Source.name : Source → String
  | writer => "experience_saver::saver"
  | loop => "experience_saver::saver::scheduler"
  | chunks => "experience_saver::flusher"
  | file => "experience_saver::storage::pool"
  | table => "experience_saver::storage::repo"
  | run => "experience_saver::run"
  | input => "experience_saver::run::input"

inductive Notice
  | opened
  | broken
  | closed
  | loopStarted (capacity interval : Nat)
  | closeSignal
  | handlesGone
  | draining (size : Nat)
  | discarding (size : Nat)
  | loopStopped
  | nothingBuffered
  | flushed (written kept : Nat)
  | sinkFailed (left chunk : Nat) (e : Storage.Fault)
  | tooSmall (e : Flush.Fault)
  | notChunked (size : Nat) (e : Flush.Fault)
  | wroteChunk (chunk size : Nat)
  | inserted (size : Nat)
  | fileCreated
  | fileExists
  | fileFailed (text : String)
  | connectFailed (e : Storage.SqlFault)
  | journalFailed (e : Storage.SqlFault)
  | migrationFailed (e : Storage.Fault)
  | readingInput
  | skipped (line : Nat) (fault : String)
  | finished (accepted written discarded invalid : Nat)
deriving DecidableEq

namespace Notice

def level : Notice → Level
  | broken | sinkFailed .. | notChunked .. | fileFailed _ | connectFailed _ | journalFailed _
  | migrationFailed _ => .error
  | discarding _ | skipped .. => .warn
  | draining _ | fileCreated | fileExists | readingInput | finished .. => .info
  | nothingBuffered => .trace
  | _ => .debug

def source : Notice → Source
  | opened | broken | closed => .writer
  | wroteChunk .. => .chunks
  | inserted _ => .table
  | fileCreated | fileExists | fileFailed _ | connectFailed _ | journalFailed _
  | migrationFailed _ => .file
  | readingInput => .input
  | skipped .. | finished .. => .run
  | _ => .loop

def message : Notice → String
  | opened => "Saver initialized"
  | broken => "Saver loop terminated abnormally"
  | closed => "Saver closed"
  | loopStarted capacity interval =>
    s!"Saver loop started (capacity={capacity}, interval={Time.spanText interval})"
  | closeSignal => "Saver loop received close signal"
  | handlesGone => "All saver handles dropped, stopping loop"
  | draining size => s!"Flushing {size} buffered experiences before close"
  | discarding size => s!"Saver closed with {size} unflushed experiences; they are discarded"
  | loopStopped => "Saver loop stopped"
  | nothingBuffered => "Nothing buffered, skipping flush"
  | flushed written kept => s!"Flushed {written} experiences, {kept} kept for the next tick"
  | sinkFailed left chunk e =>
    s!"Failed to save {left} experience entities (chunk {chunk}): {e.message}"
  | tooSmall e => s!"Waiting for more experiences: {e.message}"
  | notChunked size e => s!"Failed to save {size} experience entities: {e.message}"
  | wroteChunk chunk size => s!"Wrote chunk {chunk} ({size} records)"
  | inserted size => s!"Inserted {size} experiences"
  | fileCreated => "Database file created successfully."
  | fileExists => "Database file already exists."
  | fileFailed text => s!"Failed to create database file: {text}"
  | connectFailed e => s!"Failed to connect to database: {e.message}"
  | journalFailed e => s!"Failed to set WAL mode: {e.message}"
  | migrationFailed e => s!"Failed to run migrations: {e.message}"
  | readingInput => "Reading experiences from stdin"
  | skipped line fault => s!"Skipping invalid line {line}: {fault}"
  | finished accepted written discarded invalid =>
    s!"Ingest finished: {accepted} accepted, {written} written, {discarded} discarded, " ++
    s!"{invalid} invalid"

end Notice
end WriteBehind.Log
