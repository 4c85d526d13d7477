import WriteBehind.Writer.State

namespace WriteBehind.Writer

open Flush (Attempt Outcome)
open Log (Notice)

variable {Op Ans : Type}

inductive Event (Ans : Type)
  | start (t : Ticket)
  | save (t : Ticket) (r : Record)
  | resume (t : Ticket)
  | giveUp (t : Ticket)
  | close (t : Ticket)
  | join
  -- The call of close that waits is given up. Nobody waits for the loop from then on.
  | forgo
  | release
  | wake
  | receive
  | stop
  -- The loop notices that no more records can come.
  | runDry
  | tick
  | answer (ns : List Notice) (a : Ans)
  | pass (nanos : Nat)

-- How late a tick can be without moving the ones after it.
def slack : Nat := 5000000

def nextTick (interval due now : Nat) : Nat :=
  if due + slack < now then now + interval else due + interval

-- Whether the clock can represent a time: its seconds are signed numbers of 64 bits.
def Representable (nanos : Nat) : Prop := nanos / 1000000000 < 0x8000000000000000

instance (nanos : Nat) : Decidable (Representable nanos) := by
  unfold Representable; infer_instance

abbrev Effect (Op Ans : Type) := List (Occurrence Op Ans) × State Op Ans

namespace State

def crash (s : State Op Ans) : Effect Op Ans :=
  ([.loopBroke], { s with intake := s.intake.shut, loop := .broken })

def finish (buffer : List Record) (s : State Op Ans) : Effect Op Ans :=
  let left : List (Occurrence Op Ans) :=
    if buffer.isEmpty then [] else [.logged (.discarding buffer.length)]
  (left ++ [.logged .loopStopped, .loopEnded],
    { s with loop := .ended
             stats := { s.stats with discarded := s.stats.discarded + buffer.length } })

def proceed (aim : Aim) (buffer : List Record) (a : Attempt Op Ans) (s : State Op Ans) :
    Effect Op Ans :=
  let (ns, p) := a.pause
  let (os, s) := match p with
    | .ask op go => ([], { s with loop := .writing aim buffer op go })
    | .crash => s.crash
    | .done o =>
      let rest := Flush.Outcome.left buffer o
      let s := { s with stats := s.stats.settle buffer o }
      let (os, s) := match aim with
        | .tick next => ([], { s with loop := .listening rest next })
        | .last => s.finish rest
      (.settled aim o :: .logged (Stats.report buffer o) :: os, s)
  (ns.map .logged ++ os, s)

def attempt (w : Setup Op Ans) (aim : Aim) (buffer : List Record) (s : State Op Ans) :
    Effect Op Ans :=
  let a := match aim with
    | .tick _ => w.policy.flush buffer
    | .last => w.policy.drain buffer
  let (os, s) := { s with stats := { s.stats with attempts := s.stats.attempts + 1 } }.proceed
    aim buffer a
  (.begun aim buffer :: os, s)

def wind (w : Setup Op Ans) (buffer : List Record) (s : State Op Ans) : Effect Op Ans :=
  let queue := s.intake.queue
  let all := buffer ++ queue
  let s := { s with intake := s.intake.shut
                    stats := { s.stats with received := s.stats.received + queue.length } }
  let (os, s) :=
    if w.settings.drainOnClose ∧ all ≠ [] then
      let (os, s) := s.attempt w .last all
      (.logged (.draining all.length) :: os, s)
    else s.finish all
  (queue.map .received ++ os, s)

def start (t : Ticket) (s : State Op Ans) : Option (Effect Op Ans) :=
  if !s.isHeld then none
  else match s.phase with
    | .fresh => some ([.logged .opened, .opened t (.ok ())],
        { s with phase := .running, loop := .starting })
    | .running => some ([.opened t (.ok ())], s)
    | .closed => some ([.opened t (.error .closed)], s)

def save (t : Ticket) (r : Record) (s : State Op Ans) : Option (Effect Op Ans) :=
  if !s.isHeld then none
  else match s.phase with
    | .fresh => some ([.saved t r (.error .notOpened)], s)
    | .closed => some ([.saved t r (.error .closed)], s)
    | .running =>
      if !s.intake.isOpen then some ([.saved t r (.error .closed)], s)
      else if s.intake.HasFree then
        some ([.saved t r (.ok ())], { s with intake := s.intake.push r })
      else some ([], { s with intake := s.intake.wait ⟨t, r⟩ })

def waiter? (t : Ticket) (s : State Op Ans) : Option (Nat × Record) := do
  let i ← s.intake.index? t
  let w ← s.intake.waiting[i]?
  return (i, w.record)

def resume (t : Ticket) (s : State Op Ans) : Option (Effect Op Ans) := do
  let (i, r) ← s.waiter? t
  if !s.intake.isOpen then
    return ([.saved t r (.error .closed)], { s with intake := s.intake.leave i })
  else if s.intake.Granted i then
    return ([.saved t r (.ok ())], { s with intake := (s.intake.leave i).push r })
  else none

def giveUp (t : Ticket) (s : State Op Ans) : Option (Effect Op Ans) := do
  let (i, r) ← s.waiter? t
  return ([.abandoned t r], { s with intake := s.intake.leave i })

def close (t : Ticket) (s : State Op Ans) : Option (Effect Op Ans) :=
  if !s.isHeld then none
  else match s.phase with
    | .fresh => some ([.closed t (.error .notOpened)], s)
    | .closed => some ([.closed t (.ok ())], s)
    | .running => some ([], { s with phase := .closed, closing := some t })

def join (s : State Op Ans) : Option (Effect Op Ans) := do
  let t ← s.closing
  match s.loop with
  | .ended => return ([.logged .closed, .closed t (.ok ())], { s with closing := none })
  | .broken =>
    return ([.logged .broken, .logged .closed, .closed t (.ok ())], { s with closing := none })
  | _ => none

def forgo (s : State Op Ans) : Option (Effect Op Ans) := do
  let t ← s.closing
  return ([.forgone t], { s with closing := none })

def release (s : State Op Ans) : Option (Effect Op Ans) :=
  if s.isHeld ∧ s.intake.waiting = [] ∧ s.closing = none then some ([], { s with isHeld := false })
  else none

def wake (w : Setup Op Ans) (s : State Op Ans) : Option (Effect Op Ans) :=
  match s.loop with
  | .starting =>
    let next := s.now + w.settings.interval
    if Representable next then
      some ([.loopStarted s.now,
        .logged (.loopStarted w.settings.capacity w.settings.interval)],
        { s with loop := .listening [] next })
    else some s.crash
  | _ => none

def receive (s : State Op Ans) : Option (Effect Op Ans) :=
  match s.loop, s.intake.queue with
  | .listening buffer next, r :: queue =>
    some ([.received r],
      { s with intake := { s.intake with queue }
               loop := .listening (buffer ++ [r]) next
               stats := { s.stats with received := s.stats.received + 1 } })
  | _, _ => none

def stop (w : Setup Op Ans) (s : State Op Ans) : Option (Effect Op Ans) :=
  match s.loop, s.phase with
  | .listening buffer _, .closed =>
    let (os, s) := s.wind w buffer
    some (.logged .closeSignal :: os, s)
  | _, _ => none

def runDry (w : Setup Op Ans) (s : State Op Ans) : Option (Effect Op Ans) :=
  match s.loop, s.intake.queue, s.isHeld with
  | .listening buffer _, [], false =>
    let (os, s) := s.wind w buffer
    some (.logged .handlesGone :: os, s)
  | _, _, _ => none

def tick (w : Setup Op Ans) (s : State Op Ans) : Option (Effect Op Ans) :=
  match s.loop with
  | .listening buffer due =>
    if s.now < due then none
    else
      let next := nextTick w.settings.interval due s.now
      let (os, s') :=
        if buffer.isEmpty then
          ([.logged .nothingBuffered], { s with loop := .listening [] next })
        else s.attempt w (.tick next) buffer
      some (.ticked due s.now :: os, s')
  | _ => none

def answer (ns : List Notice) (a : Ans) (s : State Op Ans) : Option (Effect Op Ans) :=
  match s.loop with
  | .writing aim buffer op go =>
    let (os, s) := s.proceed aim buffer (go a)
    some (ns.map .logged ++ .answered op a :: os, s)
  | _ => none

def step? (w : Setup Op Ans) (s : State Op Ans) : Event Ans → Option (Effect Op Ans)
  | .start t => s.start t
  | .save t r => s.save t r
  | .resume t => s.resume t
  | .giveUp t => s.giveUp t
  | .close t => s.close t
  | .join => s.join
  | .forgo => s.forgo
  | .release => s.release
  | .wake => s.wake w
  | .receive => s.receive
  | .stop => s.stop w
  | .runDry => s.runDry w
  | .tick => s.tick w
  | .answer ns a => s.answer ns a
  | .pass nanos => some ([], { s with now := s.now + nanos })

end State
end WriteBehind.Writer
