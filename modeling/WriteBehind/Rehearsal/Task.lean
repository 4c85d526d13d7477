import WriteBehind.Writer.Step

namespace WriteBehind.Rehearsal

open Writer (Ticket Event Occurrence)

inductive Result
  | saved (n : Nat)
  | refused (n : Nat) (e : Writer.Fault)
  | ended (r : Except Writer.Fault Unit)
  | timedOut
  | nothing

inductive Job
  | save (done : Nat) (todo : List Record)
  | close

structure Task where
  ticket : Ticket
  job : Job
  waits : Bool := false
  result : Option Result := none

variable {Op Ans : Type}

def resultIn? (t : Ticket) (os : List (Occurrence Op Ans)) : Option (Except Writer.Fault Unit) :=
  os.findSome? fun
    | .opened u r => if u = t then some r else none
    | .saved u _ r => if u = t then some r else none
    | .closed u r => if u = t then some r else none
    | _ => none

namespace Task

def event? (t : Task) : Option (Event Ans) :=
  match t.result, t.job, t.waits with
  | none, .save _ (r :: _), false => some (.save t.ticket r)
  | none, .save .., true => some (.resume t.ticket)
  | none, .close, false => some (.close t.ticket)
  | none, .close, true => some .join
  | _, _, _ => none

def after (t : Task) (os : List (Occurrence Op Ans)) : Task :=
  match t.job, resultIn? t.ticket os with
  | _, none => { t with waits := true }
  | .save n todo, some (.ok ()) => { t with job := .save (n + 1) (todo.drop 1), waits := false }
  | .save n _, some (.error e) => { t with result := some (.refused n e) }
  | .close, some r => { t with result := some (.ended r) }

def noted (t : Task) : Task :=
  match t.job, t.result with
  | .save n [], none => { t with result := some (.saved n) }
  | _, _ => t

end Task
end WriteBehind.Rehearsal
