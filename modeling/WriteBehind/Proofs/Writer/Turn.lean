import WriteBehind.Proofs.Writer.Reading

namespace WriteBehind.Writer

open Flush (Attempt)
open History (accepted received attempts outcomes answers)
open Log (Notice)

variable {Op Ans : Type}

def Setup.attempt (w : Setup Op Ans) (aim : Aim) (rs : List Record) : Attempt Op Ans :=
  match aim with
  | .tick _ => w.policy.flush rs
  | .last   => w.policy.drain rs

-- What a step that is no turn of the loop leaves alone.
structure Call (s : State Op Ans) (os : History Op Ans) (s' : State Op Ans) : Prop where
  loop     : s'.loop = s.loop
  stats    : s'.stats = s.stats
  queue    : s'.intake.queue = s.intake.queue ++ (accepted os).map (·.2)
  isOpen   : s'.intake.isOpen = s.intake.isOpen
  capacity : s'.intake.capacity = s.intake.capacity
  entered  : accepted os ≠ [] → s.intake.isOpen = true
  phase    : s'.phase = .fresh → s.phase = .fresh
  now      : s.now ≤ s'.now
  received : received os = []
  attempts : attempts os = []
  outcomes : outcomes os = []
  answers  : answers os = []

inductive Proceeds (aim : Aim) (buffer : List Record) (a : Attempt Op Ans) (s : State Op Ans) :
    History Op Ans → State Op Ans → Prop
  | ask {op go} :
    a.pause.2 = .ask op go →
    Proceeds aim buffer a s (a.pause.1.map .logged) { s with loop := .writing aim buffer op go }
  | crash :
    a.pause.2 = .crash →
    Proceeds aim buffer a s (a.pause.1.map .logged ++ [.loopBroke])
      { s with intake := s.intake.shut, loop := .broken }
  | settle {o next} :
    a.pause.2 = .done o →
    aim = .tick next →
    Proceeds aim buffer a s
      (a.pause.1.map .logged ++ [.settled aim o, .logged (Stats.report buffer o)])
      { s with stats := s.stats.settle buffer o, loop := .listening (o.left buffer) next }
  | finish {o} :
    a.pause.2 = .done o →
    aim = .last →
    Proceeds aim buffer a s
      (a.pause.1.map .logged ++ .settled aim o :: .logged (Stats.report buffer o) ::
        (State.finish (o.left buffer) s).1)
      (State.finish (o.left buffer) { s with stats := s.stats.settle buffer o }).2

theorem proceeds (aim : Aim) (buffer : List Record) (a : Attempt Op Ans) (s : State Op Ans) :
    Proceeds aim buffer a s (s.proceed aim buffer a).1 (s.proceed aim buffer a).2 := by
  match hp : a.pause with
  | (ns, .ask op go) =>
    have ho : a.pause.2 = .ask op go := by rw [hp]
    have h : Proceeds aim buffer a s _ _ := .ask ho
    simpa [State.proceed, hp] using h
  | (ns, .crash) =>
    have ho : a.pause.2 = .crash := by rw [hp]
    have h : Proceeds aim buffer a s _ _ := .crash ho
    simpa [State.proceed, State.crash, hp] using h
  | (ns, .done o) =>
    have ho : a.pause.2 = .done o := by rw [hp]
    cases aim with
    | tick next =>
      have h : Proceeds (.tick next) buffer a s _ _ := .settle ho rfl
      simpa [State.proceed, hp] using h
    | last =>
      have h : Proceeds .last buffer a s _ _ := .finish ho rfl
      simpa [State.proceed, State.finish, hp] using h

def State.Stops (s : State Op Ans) : Prop :=
  s.phase = .closed ∨ (s.intake.queue = [] ∧ s.isHeld = false)

def State.gathered (s : State Op Ans) : State Op Ans :=
  { s with intake := s.intake.shut
           stats := { s.stats with received := s.stats.received + s.intake.queue.length } }

def State.begun (s : State Op Ans) : State Op Ans :=
  { s with stats := { s.stats with attempts := s.stats.attempts + 1 } }

inductive Turn (w : Setup Op Ans) (s : State Op Ans) : History Op Ans → State Op Ans → Prop
  | wake :
    s.loop = .starting →
    Representable (s.now + w.settings.interval) →
    Turn w s
      [.loopStarted s.now, .logged (.loopStarted w.settings.capacity w.settings.interval)]
      { s with loop := .listening [] (s.now + w.settings.interval) }
  | fail :
    s.loop = .starting →
    ¬Representable (s.now + w.settings.interval) →
    Turn w s [.loopBroke] { s with intake := s.intake.shut, loop := .broken }
  | receive {buffer next r queue} :
    s.loop = .listening buffer next →
    s.intake.queue = r :: queue →
    Turn w s [.received r]
      { s with intake := { s.intake with queue }
               loop := .listening (buffer ++ [r]) next
               stats := { s.stats with received := s.stats.received + 1 } }
  | idle {due} :
    s.loop = .listening [] due →
    due ≤ s.now →
    Turn w s [.ticked due s.now, .logged .nothingBuffered]
      { s with loop := .listening [] (nextTick w.settings.interval due s.now) }
  | tick {buffer due next os s'} :
    s.loop = .listening buffer due →
    due ≤ s.now →
    next = nextTick w.settings.interval due s.now →
    buffer ≠ [] →
    Proceeds (.tick next) buffer (w.policy.flush buffer) s.begun os s' →
    Turn w s (.ticked due s.now :: .begun (.tick next) buffer :: os) s'
  | answer {aim buffer op go x os s'} {ns : List Notice} :
    s.loop = .writing aim buffer op go →
    Proceeds aim buffer (go x) s os s' →
    Turn w s (ns.map .logged ++ .answered op x :: os) s'
  | drain {buffer next n os s'} :
    s.loop = .listening buffer next →
    s.Stops →
    w.settings.drainOnClose = true →
    buffer ++ s.intake.queue ≠ [] →
    Proceeds .last (buffer ++ s.intake.queue) (w.policy.drain (buffer ++ s.intake.queue))
      s.gathered.begun os s' →
    Turn w s
      (.logged n :: s.intake.queue.map .received ++
        .logged (.draining (buffer ++ s.intake.queue).length) ::
        .begun .last (buffer ++ s.intake.queue) :: os) s'
  | discard {buffer next n} :
    s.loop = .listening buffer next →
    s.Stops →
    (w.settings.drainOnClose = true → buffer ++ s.intake.queue = []) →
    Turn w s
      (.logged n :: s.intake.queue.map .received ++
        (State.finish (buffer ++ s.intake.queue) s.gathered).1)
      (State.finish (buffer ++ s.intake.queue) s.gathered).2

def Phase.opening : Phase → Except Fault Unit
  | .fresh | .running => .ok ()
  | .closed           => .error .closed

def Phase.refusal? : Phase → Option Fault
  | .fresh   => some .notOpened
  | .running => none
  | .closed  => some .closed

def Phase.closing? : Phase → Option (Except Fault Unit)
  | .fresh   => some (.error .notOpened)
  | .running => none
  | .closed  => some (.ok ())

inductive Acts (s : State Op Ans) : Event Ans → History Op Ans → State Op Ans → Prop
  | spawn {t : Ticket} :
    s.isHeld = true →
    s.phase = .fresh →
    Acts s (.start t) [.logged .opened, .opened t (.ok ())]
      { s with phase := .running, loop := .starting }
  | reopen {t : Ticket} :
    s.isHeld = true →
    s.phase ≠ .fresh →
    Acts s (.start t) [.opened t s.phase.opening] s
  | refuse {t : Ticket} {r : Record} {f : Fault} :
    s.isHeld = true →
    s.phase.refusal? = some f →
    Acts s (.save t r) [.saved t r (.error f)] s
  | fail {t : Ticket} {r : Record} :
    s.isHeld = true →
    s.phase = .running →
    s.intake.isOpen = false →
    Acts s (.save t r) [.saved t r (.error .closed)] s
  | enter {t : Ticket} {r : Record} :
    s.isHeld = true →
    s.phase = .running →
    s.intake.isOpen = true →
    s.intake.HasFree →
    Acts s (.save t r) [.saved t r (.ok ())] { s with intake := s.intake.push r }
  | wait {t : Ticket} {r : Record} :
    s.isHeld = true →
    s.phase = .running →
    s.intake.isOpen = true →
    ¬s.intake.HasFree →
    Acts s (.save t r) [] { s with intake := s.intake.wait ⟨t, r⟩ }
  | resume {t : Ticket} {i : Nat} {r : Record} :
    s.waiter? t = some (i, r) →
    s.intake.isOpen = true →
    s.intake.Granted i →
    Acts s (.resume t) [.saved t r (.ok ())] { s with intake := (s.intake.leave i).push r }
  | shutOut {t : Ticket} {i : Nat} {r : Record} :
    s.waiter? t = some (i, r) →
    s.intake.isOpen = false →
    Acts s (.resume t) [.saved t r (.error .closed)] { s with intake := s.intake.leave i }
  | giveUp {t : Ticket} {i : Nat} {r : Record} :
    s.waiter? t = some (i, r) →
    Acts s (.giveUp t) [.abandoned t r] { s with intake := s.intake.leave i }
  | close {t : Ticket} :
    s.isHeld = true →
    s.phase = .running →
    Acts s (.close t) [] { s with phase := .closed, closing := some t }
  | reclose {t : Ticket} {x : Except Fault Unit} :
    s.isHeld = true →
    s.phase.closing? = some x →
    Acts s (.close t) [.closed t x] s
  | join {t : Ticket} :
    s.closing = some t →
    s.loop = .ended →
    Acts s .join [.logged .closed, .closed t (.ok ())] { s with closing := none }
  | joinBroken {t : Ticket} :
    s.closing = some t →
    s.loop = .broken →
    Acts s .join [.logged .broken, .logged .closed, .closed t (.ok ())] { s with closing := none }
  | forgo {t : Ticket} :
    s.closing = some t →
    Acts s .forgo [.forgone t] { s with closing := none }
  | release :
    s.isHeld = true →
    s.intake.waiting = [] →
    s.closing = none →
    Acts s .release [] { s with isHeld := false }
  | pass {nanos : Nat} :
    Acts s (.pass nanos) [] { s with now := s.now + nanos }

inductive Change (w : Setup Op Ans) (s : State Op Ans) : History Op Ans → State Op Ans → Prop
  | call {os s'} : Call s os s' → Change w s os s'
  | start {t} :
    s.phase = .fresh →
    Change w s [.logged .opened, .opened t (.ok ())] { s with phase := .running, loop := .starting }
  | turn {os s'} : Turn w s os s' → Change w s os s'

section Calls

variable {w : Setup Op Ans} {s s' : State Op Ans} {os : History Op Ans} {t : Ticket} {r : Record}
variable {e : Event Ans}

theorem acts_of_start (h : s.start t = some (os, s')) : Acts s (.start t) os s' := by
  simp only [State.start] at h
  split at h
  · cases h
  next hh =>
    have hh : s.isHeld = true := by simpa using hh
    cases hp : s.phase with
    | fresh =>
      simp only [hp] at h
      cases h
      exact .spawn hh hp
    | running | closed =>
      have a : Acts s (.start t) [.opened t s.phase.opening] s := .reopen hh (by simp [hp])
      simp only [hp] at h a
      cases h
      exact a

theorem acts_of_save (h : s.save t r = some (os, s')) : Acts s (.save t r) os s' := by
  simp only [State.save] at h
  split at h
  · cases h
  next hh =>
    have hh : s.isHeld = true := by simpa using hh
    split at h
    case h_1 hp | h_2 hp => cases h; exact .refuse hh (by simp [hp, Phase.refusal?])
    case h_3 hp =>
      split at h
      case isTrue ho => cases h; exact .fail hh hp (by simpa using ho)
      case isFalse ho =>
        have ho : s.intake.isOpen = true := by simpa using ho
        split at h
        case isTrue hf  => cases h; exact .enter hh hp ho hf
        case isFalse hf => cases h; exact .wait hh hp ho hf

theorem acts_of_resume (h : s.resume t = some (os, s')) : Acts s (.resume t) os s' := by
  obtain ⟨⟨i, r⟩, hw, h⟩ := Option.bind_eq_some_iff.mp h
  dsimp only at h
  split at h
  case isTrue ho => cases h; exact .shutOut hw (by simpa using ho)
  case isFalse ho =>
    split at h
    case isTrue hg => cases h; exact .resume hw (by simpa using ho) hg
    case isFalse   => cases h

theorem acts_of_giveUp (h : s.giveUp t = some (os, s')) : Acts s (.giveUp t) os s' := by
  obtain ⟨⟨i, r⟩, hw, h⟩ := Option.bind_eq_some_iff.mp h
  cases h
  exact .giveUp hw

theorem acts_of_close (h : s.close t = some (os, s')) : Acts s (.close t) os s' := by
  simp only [State.close] at h
  split at h
  · cases h
  next hh =>
    have hh : s.isHeld = true := by simpa using hh
    split at h
    case h_1 hp | h_2 hp => cases h; exact .reclose hh (by simp [hp, Phase.closing?])
    case h_3 hp          => cases h; exact .close hh hp

theorem acts_of_join (h : s.join = some (os, s')) : Acts s .join os s' := by
  obtain ⟨t, hc, h⟩ := Option.bind_eq_some_iff.mp h
  split at h
  case h_1 hl => cases h; exact .join hc hl
  case h_2 hl => cases h; exact .joinBroken hc hl
  case h_3    => cases h

theorem acts_of_forgo (h : s.forgo = some (os, s')) : Acts s .forgo os s' := by
  obtain ⟨t, hc, h⟩ := Option.bind_eq_some_iff.mp h
  cases h
  exact .forgo hc

theorem acts_of_release (h : s.release = some (os, s')) : Acts s .release os s' := by
  simp only [State.release] at h
  split at h
  case isTrue hn => cases h; exact .release hn.left hn.right.left hn.right.right
  case isFalse   => cases h

theorem call_of_still {o : Occurrence Op Ans} (ha : accepted [o] = []) (hr : received [o] = [])
    (hb : attempts [o] = []) (hs : outcomes [o] = []) (hx : answers [o] = []) : Call s [o] s where
  loop     := rfl
  stats    := rfl
  queue    := by simp [ha]
  isOpen   := rfl
  capacity := rfl
  entered  := (absurd ha ·)
  phase    := id
  now      := Nat.le_refl _
  received := hr
  attempts := hb
  outcomes := hs
  answers  := hx

theorem Acts.call (a : Acts s e os s') (he : ∀ t, e ≠ .start t) : Call s os s' := by
  cases a with
  | spawn | reopen => exact absurd rfl (he _)
  | refuse | fail | reclose => exact call_of_still rfl rfl rfl rfl rfl
  | enter _ _ ho | resume _ ho =>
    constructor <;> simp [accepted, received, attempts, outcomes, answers, Intake.push, Intake.leave, ho]
  | _ =>
    constructor <;> simp [accepted, received, attempts, outcomes, answers, Intake.wait, Intake.leave]

theorem call_of_save (h : s.save t r = some (os, s')) : Call s os s' :=
  (acts_of_save h).call fun _ => nofun

theorem call_of_resume (h : s.resume t = some (os, s')) : Call s os s' :=
  (acts_of_resume h).call fun _ => nofun

theorem call_of_giveUp (h : s.giveUp t = some (os, s')) : Call s os s' :=
  (acts_of_giveUp h).call fun _ => nofun

theorem call_of_close (h : s.close t = some (os, s')) : Call s os s' :=
  (acts_of_close h).call fun _ => nofun

theorem call_of_join (h : s.join = some (os, s')) : Call s os s' :=
  (acts_of_join h).call fun _ => nofun

theorem Acts.change (a : Acts s e os s') : Change w s os s' := by
  by_cases he : ∀ t, e ≠ .start t
  case pos => exact .call (a.call he)
  case neg =>
    cases a with
    | spawn _ hp => exact .start hp
    | reopen     => exact .call (call_of_still rfl rfl rfl rfl rfl)
    | _          => exact absurd nofun he

end Calls

section Loop

variable {w : Setup Op Ans} {s s' : State Op Ans} {os : History Op Ans}

theorem turn_of_wake (h : s.wake w = some (os, s')) : Turn w s os s' := by
  simp only [State.wake] at h
  split at h
  case h_2 => cases h
  case h_1 hl =>
    split at h
    next hr => cases h; exact .wake hl hr
    next hr => cases h; exact .fail hl hr

theorem turn_of_receive (h : s.receive = some (os, s')) : Turn w s os s' := by
  simp only [State.receive] at h
  split at h
  case h_2 => cases h
  case h_1 hl hq => cases h; exact .receive hl hq

theorem turn_of_tick (h : s.tick w = some (os, s')) : Turn w s os s' := by
  simp only [State.tick] at h
  split at h
  case h_2 => cases h
  case h_1 buffer due hl =>
    split at h
    · cases h
    next hd =>
      have hd : due ≤ s.now := by omega
      by_cases hb : buffer = []
      case pos =>
        subst hb
        cases h
        exact .idle hl hd
      case neg =>
        rw [if_neg (by simpa using hb)] at h
        cases h
        exact .tick hl hd rfl hb (proceeds _ _ _ _)

theorem turn_of_answer {x : Ans} {ns : List Notice} (h : s.answer ns x = some (os, s')) :
    Turn w s os s' := by
  simp only [State.answer] at h
  split at h
  case h_2 => cases h
  case h_1 hl => cases h; exact .answer hl (proceeds _ _ _ _)

theorem turn_of_wind {buffer : List Record} {next : Nat} {n : Notice}
    (hl : s.loop = .listening buffer next) (hs : s.Stops) :
    Turn w s (.logged n :: (s.wind w buffer).1) (s.wind w buffer).2 := by
  by_cases hd : w.settings.drainOnClose = true ∧ buffer ++ s.intake.queue ≠ []
  case pos =>
    have h : Turn w s (.logged n :: _) _ := .drain hl hs hd.left hd.right (proceeds _ _ _ _)
    simpa [State.wind, State.attempt, hd, State.gathered, State.begun] using h
  case neg =>
    have h : Turn w s (.logged n :: _) _ := .discard hl hs fun h => by_contra (hd ⟨h, ·⟩)
    have hw : s.wind w buffer = (s.intake.queue.map .received ++
        (State.finish (buffer ++ s.intake.queue) s.gathered).1,
        (State.finish (buffer ++ s.intake.queue) s.gathered).2) := by
      simp only [State.wind, if_neg hd]
      rfl
    rw [hw]
    exact h

theorem turn_of_stop (h : s.stop w = some (os, s')) : Turn w s os s' := by
  simp only [State.stop] at h
  split at h
  case h_2 => cases h
  case h_1 hl hp => cases h; exact turn_of_wind hl (.inl hp)

theorem turn_of_runDry (h : s.runDry w = some (os, s')) : Turn w s os s' := by
  simp only [State.runDry] at h
  split at h
  case h_2 => cases h
  case h_1 hl hq hh => cases h; exact turn_of_wind hl (.inr ⟨hq, hh⟩)

def Event.IsTurn : Event Ans → Prop
  | .wake | .receive | .stop | .runDry | .tick => True
  | _                                          => False

theorem acts_or_turn {e : Event Ans} (h : s.step? w e = some (os, s')) :
    Acts s e os s' ∨ Turn w s os s' ∧ (e.IsTurn ∨ ∃ ns x, e = .answer ns x) := by
  cases e with
  | start t     => exact .inl (acts_of_start h)
  | save t r    => exact .inl (acts_of_save h)
  | resume t    => exact .inl (acts_of_resume h)
  | giveUp t    => exact .inl (acts_of_giveUp h)
  | close t     => exact .inl (acts_of_close h)
  | join        => exact .inl (acts_of_join h)
  | forgo       => exact .inl (acts_of_forgo h)
  | release     => exact .inl (acts_of_release h)
  | pass n      => cases h; exact .inl .pass
  | wake        => exact .inr ⟨turn_of_wake h, .inl trivial⟩
  | receive     => exact .inr ⟨turn_of_receive h, .inl trivial⟩
  | stop        => exact .inr ⟨turn_of_stop h, .inl trivial⟩
  | runDry      => exact .inr ⟨turn_of_runDry h, .inl trivial⟩
  | tick        => exact .inr ⟨turn_of_tick h, .inl trivial⟩
  | answer ns x => exact .inr ⟨turn_of_answer h, .inr ⟨ns, x, rfl⟩⟩

theorem change_of_step {e : Event Ans} (h : s.step? w e = some (os, s')) : Change w s os s' := by
  rcases acts_or_turn h with a | ⟨u, _⟩
  case inl => exact a.change
  case inr => exact .turn u

end Loop

end WriteBehind.Writer
