import WriteBehind.Flush.Chunked

namespace WriteBehind.Writer

open Flush (Outcome)
open Log (Notice)

structure Stats where
  received : Nat := 0
  attempts : Nat := 0
  written : Nat := 0
  tooSmall : Nat := 0
  sinkFailures : Nat := 0
  discarded : Nat := 0
deriving DecidableEq, Repr

namespace Stats

def settle (buffer : List Record) (o : Outcome) (s : Stats) : Stats :=
  match o with
  | .ok rest => { s with written := s.written + (buffer.length - rest.length) }
  | .error (.sink _ rest _) =>
    { s with written := s.written + (buffer.length - rest.length)
             sinkFailures := s.sinkFailures + 1 }
  | .error (.chunking (.tooSmall ..)) => { s with tooSmall := s.tooSmall + 1 }
  | .error (.chunking _) => s

@[simp] theorem settle_received (buffer : List Record) (o : Outcome) (s : Stats) :
    (s.settle buffer o).received = s.received := by
  unfold settle
  split <;> rfl

@[simp] theorem settle_discarded (buffer : List Record) (o : Outcome) (s : Stats) :
    (s.settle buffer o).discarded = s.discarded := by
  unfold settle
  split <;> rfl

@[simp] theorem settle_written (buffer : List Record) (o : Outcome) (s : Stats) :
    (s.settle buffer o).written = s.written + (buffer.length - (o.left buffer).length) := by
  unfold settle
  split <;> simp [Outcome.left]

def report (buffer : List Record) : Outcome → Notice
  | .ok rest => .flushed (buffer.length - rest.length) rest.length
  | .error (.sink i rest e) => .sinkFailed rest.length i e
  | .error (.chunking (.tooSmall n size)) => .tooSmall (.chunking (.tooSmall n size))
  | .error e => .notChunked buffer.length e

end Stats
end WriteBehind.Writer
