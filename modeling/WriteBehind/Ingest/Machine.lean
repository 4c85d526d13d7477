import WriteBehind.Ingest.Fault
import WriteBehind.Ingest.Input
import WriteBehind.Ingest.Settings
import WriteBehind.Record.Line
import WriteBehind.Storage.Writing
import WriteBehind.Writer.History

namespace WriteBehind.Ingest

open Flush (Receipt)
open Log (Notice)
open Writer (Occurrence Setup)
open Writer.History (notices)

structure Report where
  lines : Nat
  accepted : Nat
  invalid : Nat
  written : Nat
  discarded : Nat
  interrupted : Bool
  database : String
deriving DecidableEq

inductive Reader
  | reading (rest : List Item)
  | holding (r : Record) (rest : List Item)
  | saving (rest : List Item)
  | closing (fault : Option Fault)
  | done (result : Except Fault Report)

structure State where
  writer : Writer.State (List Record) Receipt
  database : Storage.Database
  reader : Reader
  -- Whether the run was told to stop, and whether the reader has seen it.
  cancelled : Bool
  interrupted : Bool := false
  lines : Nat := 0
  accepted : Nat := 0
  invalid : Nat := 0

structure Plan where
  settings : Settings
  cancelled : Bool := false

def Plan.setup (p : Plan) : Setup (List Record) Receipt :=
  { settings := p.settings.writer, policy := Flush.chunked p.settings.chunkSize }

def Plan.reading (p : Plan) (items : List Item) (database : Storage.Database) : State :=
  { writer := p.setup.opened, database, reader := .reading items, cancelled := p.cancelled }

inductive Move
  | reader
  | cancel
  | wake
  | receive
  | stop
  | tick
  | answer
  | pass (nanos : Nat)
deriving DecidableEq, Repr

namespace State

def saveTicket : Writer.Ticket := 1
def closeTicket : Writer.Ticket := 2

def saved? (os : List (Occurrence (List Record) Receipt)) :
    Option (Except Writer.Fault Unit) :=
  os.findSome? fun
    | .saved _ _ r => some r
    | _ => none

def afterSave (rest : List Item) (os : List (Occurrence (List Record) Receipt)) (s : State) :
    State :=
  match saved? os with
  | none => { s with reader := .saving rest }
  | some (.ok ()) => { s with reader := .reading rest, accepted := s.accepted + 1 }
  | some (.error e) => { s with reader := .done (.error (.writer e)) }

def report (p : Plan) (s : State) : Report :=
  { lines := s.lines, accepted := s.accepted, invalid := s.invalid
    written := s.writer.stats.written, discarded := s.writer.stats.discarded
    interrupted := s.interrupted, database := p.settings.database }

def close (fault : Option Fault) (s : State) : Option (List Notice × State) := do
  let (os, writer) ← s.writer.close closeTicket
  return (notices os, { s with writer, reader := .closing fault })

def interrupt (s : State) : Option (List Notice × State) :=
  { s with interrupted := true }.close none

-- The reader goes on. A signal goes before a line, and before a save, which is given up if it waits.
def read (p : Plan) (s : State) : Option (List Notice × State) :=
  match s.reader with
  | .reading items =>
    if s.cancelled then s.interrupt
    else match items with
      | [] => s.close none
      | .fault text :: _ => s.close (some (.readInput text))
      | .line l :: rest =>
        match Record.ofLine l with
        | .ok none => some ([], { s with reader := .reading rest })
        | .ok (some r) => some ([], { s with reader := .holding r rest, lines := s.lines + 1 })
        | .error e =>
          some ([.skipped (s.lines + 1) (e.message (Text.trim l))],
            { s with reader := .reading rest, lines := s.lines + 1, invalid := s.invalid + 1 })
  | .holding r rest =>
    if s.cancelled then s.interrupt
    else do
      let (os, writer) ← s.writer.save saveTicket r
      return (notices os, { s with writer }.afterSave rest os)
  | .saving rest =>
    if s.cancelled then do
      let (os, writer) ← s.writer.giveUp saveTicket
      return (notices os, { s with writer, interrupted := true, reader := .reading rest })
    else do
      let (os, writer) ← s.writer.resume saveTicket
      return (notices os, { s with writer }.afterSave rest os)
  | .closing fault => do
    let (os, writer) ← s.writer.join
    let s := { s with writer }
    match fault with
    | some e => return (notices os, { s with reader := .done (.error e) })
    | none =>
      let r := s.report p
      return (notices os ++ [.finished r.accepted r.written r.discarded r.invalid],
        { s with reader := .done (.ok r) })
  | .done _ => none

def loop (p : Plan) (e : Writer.Event Receipt) (s : State) : Option (List Notice × State) := do
  let (os, writer) ← s.writer.step? p.setup e
  return (notices os, { s with writer })

def answer (p : Plan) (s : State) : Option (List Notice × State) :=
  match s.writer.loop with
  | .writing _ _ chunk _ =>
    let (ns, receipt, database) := s.database.write chunk
    { s with database }.loop p (.answer ns receipt)
  | _ => none

def step? (p : Plan) (s : State) : Move → Option (List Notice × State)
  | .reader => s.read p
  | .cancel => some ([], { s with cancelled := true })
  | .wake => s.loop p .wake
  | .receive => s.loop p .receive
  | .stop => s.loop p .stop
  | .tick => s.loop p .tick
  | .answer => s.answer p
  | .pass nanos => s.loop p (.pass nanos)

-- The moves that are tried, in order: the loop goes before the reader, time stands still and no signal comes.
def order : List Move := [.wake, .answer, .stop, .receive, .tick, .reader]

def run (p : Plan) : Nat → State → List Notice × State
  | 0, s => ([], s)
  | fuel + 1, s =>
    match order.findSome? (s.step? p) with
    | none => ([], s)
    | some (ns, s) =>
      let (ns', s) := run p fuel s
      (ns ++ ns', s)

end State
end WriteBehind.Ingest
