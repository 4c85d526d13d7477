import WriteBehind.Flush.Attempt
import WriteBehind.Rehearsal.Sink

namespace WriteBehind.Rehearsal

open Flush (Attempt Outcome Policy Receipt)
open Log (Notice)

structure Desk (Op Ans σ : Type) where
  delay : σ → Nat
  answer : Op → σ → List Notice × Ans × σ
  refuse : List UInt64 → σ → σ

def sinkDesk : Desk (List Record) Receipt Sink where
  delay := Sink.delay
  answer := Sink.write
  refuse failIds s := { s with failIds }

inductive Rest
  | tail (size : Nat)
  | records (rs : List Record)

def Rest.of (rs : List Record) : Rest → List Record
  | tail size => rs.drop (rs.length - size)
  | records rest => rest

inductive Ending
  | ok (rest : Rest)
  | chunking (e : Chunk.Fault)
  | sink (chunk : Nat) (e : Storage.Fault) (rest : Rest)
  | crash

abbrev Verdict := Option Outcome

def Ending.verdict (rs : List Record) : Ending → Verdict
  | ok rest => some (.ok (rest.of rs))
  | chunking e => some (.error (.chunking e))
  | sink i e rest => some (.error (.sink i (rest.of rs) e))
  | crash => none

structure Script where
  endings : List Ending
  delay : Nat

def Script.next (rs : List Record) (s : Script) : List Notice × Verdict × Script :=
  match s.endings with
  | [] => ([], some (.ok []), s)
  | e :: endings => ([], e.verdict rs, { s with endings })

def scriptDesk : Desk (List Record) Verdict Script where
  delay := Script.delay
  answer := Script.next
  refuse _ s := s

def scripted : Policy (List Record) Verdict where
  flush := whole
  drain := whole
where
  whole (rs : List Record) : Attempt (List Record) Verdict :=
    .ask rs fun
      | some o => .done o
      | none => .crash

end WriteBehind.Rehearsal
