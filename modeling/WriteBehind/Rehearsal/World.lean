import WriteBehind.Rehearsal.Desk
import WriteBehind.Rehearsal.Task

namespace WriteBehind.Rehearsal

open Writer (Event Occurrence State Setup)

variable {Op Ans σ : Type}

inductive Front
  | done (r : Result)
  | task (t : Task) (limit : Option Nat)
  | join
  | sleep (limit : Nat)

structure World (Op Ans σ : Type) where
  state : State Op Ans
  desk : σ
  due : Option Nat := none
  tasks : List Task := []
  isDropped : Bool := false
  tickets : Nat := 0
  past : List (Occurrence Op Ans) := []

structure Stage (Op Ans σ : Type) where
  setup : Setup Op Ans
  desk : Desk Op Ans σ

namespace World

variable (g : Stage Op Ans σ) (w : World Op Ans σ)

def apply (e : Event Ans) : Option (List (Occurrence Op Ans) × World Op Ans σ) := do
  let (os, state) ← w.state.step? g.setup e
  return (os, { w with state, past := os.reverseAux w.past })

def timed : World Op Ans σ :=
  match w.state.loop with
  | .writing .. => { w with due := some (w.state.now + g.desk.delay w.desk) }
  | _ => { w with due := none }

def answer? : Option (World Op Ans σ) :=
  match w.state.loop, w.due with
  | .writing _ _ op _, some due =>
    if w.state.now < due then none
    else do
      let (ns, a, desk) := g.desk.answer op w.desk
      let (_, w) ← { w with desk }.apply g (.answer ns a)
      return w.timed g
  | _, _ => none

def loop? : Option (World Op Ans σ) :=
  (w.answer? g).or <|
    [Event.wake, .stop, .receive, .runDry, .tick].findSome? fun e => do
      let (_, w) ← w.apply g e
      return w.timed g

def run (g : Stage Op Ans σ) : Nat → Task → World Op Ans σ → Bool × Task × World Op Ans σ
  | 0, t, w => (false, t, w)
  | fuel + 1, t, w =>
    let t' := t.noted
    match t'.event?.bind (w.apply g) with
    | none => (t.result.isNone && t'.result.isSome, t', w)
    | some (os, w) =>
      let t := t'.after os
      if t.waits || t.result.isSome then (true, t, w)
      else
        let (_, t, w) := run g fuel t w
        (true, t, w)

def calls (t : Task) : Nat :=
  match t.job with
  | .save _ todo => todo.length + 2
  | .close => 2

-- The tasks in the background, in the order in which they go on: those that have not begun, the
-- saves as they stand in line, and those that close.
def turns : List Writer.Ticket :=
  let going := w.tasks.filter (·.result.isNone)
  let fresh := going.filter (!·.waits)
  let closing := going.filter fun t => t.waits && t.job matches .close
  fresh.map (·.ticket) ++ w.state.intake.waiting.map (·.ticket) ++ closing.map (·.ticket)

def turn (t : Writer.Ticket) : Bool × World Op Ans σ :=
  match w.tasks.find? (·.ticket = t) with
  | none => (false, w)
  | some task =>
    let (did, task, w) := run g (calls task) task w
    (did, { w with tasks := w.tasks.map fun u => if u.ticket = t then task else u })

def tasks? : Option (World Op Ans σ) :=
  let (did, w) := w.turns.foldl (fun (did, w) t =>
    let (more, w) := turn g w t
    (did || more, w)) (false, w)
  if did then some w else none

def release? : Option (World Op Ans σ) :=
  if w.isDropped && w.state.isHeld && w.tasks.all (·.result.isSome) then
    (w.apply g .release).map (·.2)
  else none

def front? : Front → Option (Front × World Op Ans σ)
  | .done _ => none
  | .sleep limit => if limit ≤ w.state.now then some (.done .nothing, w) else none
  | .join =>
    match w.tasks with
    | [] => some (.done .nothing, w)
    | t :: tasks => t.result.map fun r => (.done r, { w with tasks })
  | .task t limit =>
    let (did, t, w) := run g (calls t) t w
    match t.result with
    | some r => some (.done r, w)
    | none =>
      if limit.any (· ≤ w.state.now) then
        let w := ((w.apply g (.giveUp t.ticket)).map (·.2)).getD w
        some (.done .timedOut, w)
      else if did then some (.task t limit, w)
      else none

def nextTime? (f : Front) : Option Nat :=
  let tick := match w.state.loop with
    | .listening _ next => some next
    | _ => none
  let front := match f with
    | .task _ limit => limit
    | .sleep limit => some limit
    | _ => none
  ([tick, w.due, front].reduceOption.filter (w.state.now < ·)).min?

def settle (g : Stage Op Ans σ) : Nat → Front → World Op Ans σ → Front × World Op Ans σ
  | 0, f, w => (f, w)
  | fuel + 1, f, w =>
    match ((w.loop? g).or (w.tasks? g)).or (w.release? g) with
    | some w => settle g fuel f w
    | none =>
      match w.front? g f with
      | some (f, w) => settle g fuel f w
      | none =>
        match f, w.nextTime? f with
        | .done _, _ => (f, w)
        | _, none => (f, w)
        | f, some t =>
          match w.apply g (.pass (t - w.state.now)) with
          | some (_, w) => settle g fuel f w
          | none => (f, w)

end World
end WriteBehind.Rehearsal
