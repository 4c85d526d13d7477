import WriteBehind.Writer.Fault
import WriteBehind.Writer.Intake
import WriteBehind.Writer.Settings
import WriteBehind.Writer.Stats

namespace WriteBehind.Writer

open Flush (Attempt Outcome Policy)
open Log (Notice)

inductive Phase
  | fresh
  | running
  | closed
deriving DecidableEq, Repr

-- What an attempt is made for: a tick, after which the next tick is due at `next`, or the end.
inductive Aim
  | tick (next : Nat)
  | last

inductive Loop (Op Ans : Type)
  | absent
  | starting
  | listening (buffer : List Record) (next : Nat)
  | writing (aim : Aim) (buffer : List Record) (op : Op) (go : Ans → Attempt Op Ans)
  | ended
  | broken

structure State (Op Ans : Type) where
  phase : Phase := .fresh
  intake : Intake
  loop : Loop Op Ans := .absent
  -- The call of close that waits for the loop to end.
  closing : Option Ticket := none
  isHeld : Bool := true
  stats : Stats := {}
  -- The nanoseconds since the clock was started.
  now : Nat := 0

structure Setup (Op Ans : Type) where
  settings : Settings
  policy : Policy Op Ans

variable {Op Ans : Type}

def Setup.start (w : Setup Op Ans) : State Op Ans :=
  { intake := { capacity := w.settings.capacity } }

def Setup.opened (w : Setup Op Ans) : State Op Ans :=
  { w.start with phase := .running, loop := .starting }

def Setup.make (w : Setup Op Ans) : Except SettingsFault (State Op Ans) := do
  w.settings.check
  return w.start

inductive Occurrence (Op Ans : Type)
  | opened (t : Ticket) (result : Except Fault Unit)
  | saved (t : Ticket) (r : Record) (result : Except Fault Unit)
  | abandoned (t : Ticket) (r : Record)
  | closed (t : Ticket) (result : Except Fault Unit)
  | forgone (t : Ticket)
  | loopStarted (time : Nat)
  | received (r : Record)
  | ticked (due time : Nat)
  | begun (aim : Aim) (rs : List Record)
  | answered (op : Op) (a : Ans)
  | settled (aim : Aim) (o : Outcome)
  | loopEnded
  | loopBroke
  | logged (n : Notice)

def Loop.buffer : Loop Op Ans → List Record
  | .listening buffer _ => buffer
  | .writing _ buffer _ _ => buffer
  | _ => []

end WriteBehind.Writer
