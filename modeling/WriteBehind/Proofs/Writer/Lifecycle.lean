import WriteBehind.Proofs.Writer.Closing
import WriteBehind.Proofs.Writer.Progress

namespace WriteBehind.Writer

open Flush (Attempt Receipt)
open Log (Notice)

variable {Op Ans : Type} {w : Setup Op Ans} {h os : History Op Ans} {s s' : State Op Ans}
variable {t : Ticket} {r : Record} {i : Nat} {e : Event Ans}

def Phase.stage : Phase → Nat
  | .fresh   => 0
  | .running => 1
  | .closed  => 2

theorem moved_of_step (hs : s.step? w e = some (os, s')) (hn : s'.phase ≠ s.phase) :
    (s.phase = .fresh ∧ s'.phase = .running ∧ ∃ t, e = .start t) ∨
      (s.phase = .running ∧ s'.phase = .closed ∧ ∃ t, e = .close t) := by
  rcases acts_or_turn hs with a | ⟨u, _⟩
  case inr => exact absurd (kept_of_turn u).phase hn
  case inl =>
    cases a with
    | spawn _ hp => exact .inl ⟨hp, rfl, _, rfl⟩
    | close _ hp => exact .inr ⟨hp, rfl, _, rfl⟩
    | _          => exact absurd rfl hn

theorem stage_of_step (hs : s.step? w e = some (os, s')) : s.phase.stage ≤ s'.phase.stage := by
  by_cases hp : s'.phase = s.phase
  case pos => rw [hp]
  case neg => rcases moved_of_step hs hp with ⟨h, h', _⟩ | ⟨h, h', _⟩ <;> simp [h, h', Phase.stage]

theorem stage_of_run (l : Run w s os s') : s.phase.stage ≤ s'.phase.stage := by
  induction l with
  | refl         => exact Nat.le_refl _
  | step _ hs hi => exact hi.trans (stage_of_step hs)

-- Whether the loop has begun its work, whether it is making an attempt, and whether it is over.
inductive Work
  | before
  | idle
  | busy
  | over

def Loop.work : Loop Op Ans → Work
  | .absent | .starting => .before
  | .listening ..       => .idle
  | .writing ..         => .busy
  | .ended | .broken    => .over

namespace Work

-- How the work goes on with what happens, if that can happen. Between its start and its end the loop takes
-- records and serves ticks. It does neither while it makes an attempt, nor does it begin another one.
def after? : Work → Occurrence Op Ans → Option Work
  | .before, .loopStarted _ => some .idle
  | .before, .loopBroke     => some .over
  | .idle,   .received _    => some .idle
  | .idle,   .ticked ..     => some .idle
  | .idle,   .begun ..      => some .busy
  | .idle,   .loopEnded     => some .over
  | .busy,   .answered ..   => some .busy
  | .busy,   .settled ..    => some .idle
  | .busy,   .loopBroke     => some .over
  | k,       .logged _      => some k
  | k, .opened .. | k, .saved .. | k, .abandoned .. | k, .closed .. | k, .forgone .. => some k
  | _, _                    => none

def run? (k : Work) (h : History Op Ans) : Option Work := h.foldlM after? k

variable {k : Work} {o : Occurrence Op Ans} {ns : List Notice} {rs : List Record}

@[simp] theorem run?_nil : k.run? ([] : History Op Ans) = some k := rfl

@[simp] theorem run?_cons : k.run? (o :: os) = (k.after? o).bind (·.run? os) := by
  simp [run?]

@[simp] theorem run?_append : k.run? (h ++ os) = (k.run? h).bind (·.run? os) := by
  simp [run?]

@[simp] theorem after?_logged {n : Notice} : k.after? (.logged n : Occurrence Op Ans) = some k := by
  cases k <;> rfl

@[simp] theorem run?_logged : k.run? (ns.map .logged : History Op Ans) = some k := by
  induction ns with
  | nil            => rfl
  | cons n ns hi => simp [hi]

@[simp] theorem run?_received : Work.idle.run? (rs.map .received : History Op Ans) = some .idle := by
  induction rs with
  | nil          => rfl
  | cons r rs hi => simpa [after?] using hi

end Work

def History.work? (h : History Op Ans) : Option Work := Work.before.run? h

section Work

variable {aim : Aim} {buffer : List Record} {a : Attempt Op Ans}

@[simp] theorem loop_finish : (s.finish buffer).2.loop = .ended := rfl

theorem run?_finish : Work.idle.run? (s.finish buffer).1 = some .over := by
  simp only [State.finish]
  split <;> simp [Work.after?]

theorem run?_proceeds (p : Proceeds aim buffer a s os s') : Work.busy.run? os = some s'.loop.work := by
  cases p with
  | ask            => simp [Loop.work]
  | crash | settle => simp [Loop.work, Work.after?]
  | finish         => simp [Loop.work, Work.after?, run?_finish]

theorem run?_turn (u : Turn w s os s') : s.loop.work.run? os = some s'.loop.work := by
  cases u with
  | wake hl | fail hl | receive hl | idle hl => simp [hl, Loop.work, Work.after?]
  | tick hl _ _ _ p                          => simpa [hl, Loop.work, Work.after?] using run?_proceeds p
  | answer hl p                              => simpa [hl, Loop.work, Work.after?] using run?_proceeds p
  | drain hl _ _ _ p                         => simpa [hl, Loop.work, Work.after?] using run?_proceeds p
  | discard hl                               => simp [hl, Loop.work, Work.after?, run?_finish]

theorem run?_step (f : Flow h s) (hs : s.step? w e = some (os, s')) :
    s.loop.work.run? os = some s'.loop.work := by
  rcases acts_or_turn hs with a | ⟨u, _⟩
  case inr => exact run?_turn u
  case inl =>
    cases a with
    | spawn _ hp => simp [f.fresh hp, Loop.work, Work.after?]
    | _          => cases s.loop <;> rfl

theorem work_of_reachable (r : Reachable w h s) : h.work? = some s.loop.work := by
  apply r.induct
  case start => rfl
  case keep =>
    intro h s e os s' r hi hs
    rw [History.work?, Work.run?_append, ← History.work?, hi]
    exact run?_step (.of_reachable r) hs

end Work

theorem spawn_of_step (hs : s.step? w e = some (os, s')) (hn : s.loop ≠ .starting)
    (hl : s'.loop = .starting) :
    ∃ t, e = .start t ∧ s.phase = .fresh ∧ s' = { s with phase := .running, loop := .starting } := by
  rcases acts_or_turn hs with a | ⟨u, _⟩
  case inr => exact absurd hl (begun_of_turn u).right
  case inl =>
    cases a with
    | spawn _ hp => exact ⟨_, rfl, hp, rfl⟩
    | _          => exact absurd hl hn

theorem absent_iff_fresh (r : Reachable w h s) : s.loop = .absent ↔ s.phase = .fresh := by
  refine ⟨?_, (Flow.of_reachable r).fresh⟩
  apply r.induct
  case start => exact fun _ => rfl
  case keep =>
    intro h s e os s' _ hi hs hl
    rcases acts_or_turn hs with a | ⟨u, _⟩
    case inr => exact absurd hl (begun_of_turn u).left
    case inl =>
      cases a with
      | spawn      => cases hl
      | close _ hp => cases hp.symm.trans (hi hl)
      | _          => exact hi hl

inductive Spawns (w : Setup Op Ans) : Nat → History Op Ans → State Op Ans → Prop
  | start : Spawns w 0 [] w.start
  | spawn {n} {h os : History Op Ans} {s s' : State Op Ans} {e : Event Ans} :
    Spawns w n h s → s.step? w e = some (os, s') → s.loop ≠ .starting → s'.loop = .starting →
    Spawns w (n + 1) (h ++ os) s'
  | other {n} {h os : History Op Ans} {s s' : State Op Ans} {e : Event Ans} :
    Spawns w n h s → s.step? w e = some (os, s') → (s'.loop = .starting → s.loop = .starting) →
    Spawns w n (h ++ os) s'

namespace Spawns

variable {n : Nat}

theorem reachable (p : Spawns w n h s) : Reachable w h s := by
  induction p with
  | start              => exact .refl
  | spawn _ hs _ _ hi  => exact .step hi hs
  | other _ hs _ hi    => exact .step hi hs

theorem of_reachable (r : Reachable w h s) : ∃ n, Spawns w n h s := by
  apply r.induct
  case start => exact ⟨0, .start⟩
  case keep =>
    intro h s e os s' _ ⟨n, p⟩ hs
    by_cases hl : s'.loop = .starting → s.loop = .starting
    case pos => exact ⟨n, .other p hs hl⟩
    case neg =>
      have ⟨hl', hn⟩ := Classical.not_imp.mp hl
      exact ⟨n + 1, .spawn p hs hn hl'⟩

theorem eq (p : Spawns w n h s) : n = if s.phase = .fresh then 0 else 1 := by
  induction p with
  | start => rfl
  | spawn p hs hn hl hi =>
    obtain ⟨t, -, hp, rfl⟩ := spawn_of_step hs hn hl
    simp [hi, hp]
  | @other n h os s s' e p hs hl hi =>
    rw [hi]
    rcases acts_or_turn hs with a | ⟨u, _⟩
    case inr => rw [(kept_of_turn u).phase]
    case inl =>
      cases a with
      | spawn _ hp =>
        have ha : s.loop = .absent := (absent_iff_fresh p.reachable).mpr hp
        exact absurd (hl rfl) (by simp [ha])
      | close _ hp => simp [hp]
      | _          => rfl

end Spawns

def History.refusals (h : History Op Ans) : List Fault :=
  h.filterMap fun
    | .opened _ (.error f)  => some f
    | .saved _ _ (.error f) => some f
    | .closed _ (.error f)  => some f
    | _                     => none

def Untouched (s s' : State Op Ans) : Prop :=
  s' = { s with intake := { s.intake with waiting := s'.intake.waiting } }

theorem untouched_of_step (hs : s.step? w e = some (os, s')) (hf : History.refusals os ≠ []) :
    Untouched s s' := by
  rcases acts_or_turn hs with a | ⟨u, _⟩
  case inr =>
    refine absurd (filterMap_of_turn (fun o ho => ?_) u) hf
    cases o <;> simp_all [Occurrence.IsLoops]
  case inl =>
    cases a with
    | reopen | refuse | fail | reclose | shutOut => rfl
    | _                                          => exact absurd rfl hf

theorem ends_of_resume (hs : s.resume t = some (os, s')) (hw : s.waiter? t = some (i, r)) :
    os = [.saved t r (.ok ())] ∧ s'.intake.queue = s.intake.queue ++ [r] ∨
      os = [.saved t r (.error .closed)] ∧ Untouched s s' := by
  cases acts_of_resume hs with
  | resume hw'  => cases hw'.symm.trans hw; exact .inl ⟨rfl, rfl⟩
  | shutOut hw' => cases hw'.symm.trans hw; exact .inr ⟨rfl, rfl⟩

theorem wake_of_representable (hl : s.loop = .starting)
    (hr : Representable (s.now + w.settings.interval)) :
    ∃ os, s.step? w .wake =
      some (os, { s with loop := .listening [] (s.now + w.settings.interval) }) := by
  simp [State.step?, State.wake, hl, hr]

theorem wake_of_not_representable (hl : s.loop = .starting)
    (hr : ¬Representable (s.now + w.settings.interval)) : s.step? w .wake = some s.crash := by
  simp only [State.step?, State.wake, hl, hr, if_false]

-- The loop can come to its end by what it does itself, whatever the storage answers.
inductive Ends (w : Setup Op Ans) : State Op Ans → Prop
  | over {s : State Op Ans} :
    s.loop.IsOver →
    Ends w s
  | wake {s s' : State Op Ans} {os : History Op Ans} :
    s.step? w .wake = some (os, s') →
    Ends w s' →
    Ends w s
  | stop {s s' : State Op Ans} {os : History Op Ans} :
    s.step? w .stop = some (os, s') →
    Ends w s' →
    Ends w s
  | answer {s : State Op Ans} {aim buffer op go} :
    s.loop = .writing aim buffer op go →
    (∀ ns x os s', s.step? w (.answer ns x) = some (os, s') → Ends w s') →
    Ends w s

namespace Ends

variable {aim : Aim} {buffer : List Record} {next : Nat}

theorem proceed (hd : ∀ o, Ends w (s.proceed aim buffer (.done o)).2) (a : Attempt Op Ans) :
    Ends w (s.proceed aim buffer a).2 := by
  induction a with
  | done o     => exact hd o
  | crash      => exact .over trivial
  | log _ _ hi => exact hi
  | ask op go hi =>
    refine .answer rfl fun ns x os s' hs => ?_
    cases hs
    exact hi x

theorem last (a : Attempt Op Ans) : Ends w (s.proceed .last buffer a).2 := by
  refine proceed (fun o => ?_) a
  have hl : (s.proceed .last buffer (.done o)).2.loop = .ended := rfl
  exact .over (hl ▸ trivial)

theorem listening (hl : s.loop = .listening buffer next) (hp : s.phase = .closed) : Ends w s := by
  have hs : s.step? w .stop = some (.logged .closeSignal :: (s.wind w buffer).1, (s.wind w buffer).2) := by
    simp [State.step?, State.stop, hl, hp]
  refine .stop hs ?_
  simp only [State.wind]
  split
  case isTrue  => exact last _
  case isFalse => exact .over trivial

theorem starting (hl : s.loop = .starting) (hp : s.phase = .closed) : Ends w s := by
  by_cases hr : Representable (s.now + w.settings.interval)
  case pos =>
    have ⟨_, hs⟩ := wake_of_representable hl hr
    exact .wake hs (listening rfl hp)
  case neg => exact .wake (wake_of_not_representable hl hr) (.over trivial)

theorem writing {op : Op} {go} (hl : s.loop = .writing aim buffer op go) (hp : s.phase = .closed) :
    Ends w s := by
  refine .answer hl fun ns x os s' hs => ?_
  simp only [State.step?, State.answer, hl] at hs
  cases hs
  cases aim with
  | last      => exact last _
  | tick next =>
    refine proceed (fun o => ?_) _
    have hl : (s.proceed (.tick next) buffer (.done o)).2.loop = .listening (o.left buffer) next := rfl
    exact listening hl hp

theorem of_closed (r : Reachable w h s) (hp : s.phase = .closed) : Ends w s := by
  cases hl : s.loop with
  | starting      => exact starting hl hp
  | listening     => exact listening hl hp
  | writing       => exact writing hl hp
  | ended         => exact .over (hl ▸ trivial)
  | broken        => exact .over (hl ▸ trivial)
  | absent        =>
    have hf := (absent_iff_fresh r).mp hl
    cases hf.symm.trans hp

end Ends

structure Lawful (w : Setup Op Ans) (h : History Op Ans) (s : State Op Ans) : Prop where
  moves   : ∀ e os s', s.step? w e = some (os, s') → s'.phase ≠ s.phase →
    (s.phase = .fresh ∧ s'.phase = .running ∧ ∃ t, e = .start t) ∨
      (s.phase = .running ∧ s'.phase = .closed ∧ ∃ t, e = .close t)
  forward : ∀ os s', Run w s os s' → s.phase.stage ≤ s'.phase.stage
  -- The loop is spawned once, and what it has done is the work of one loop.
  once    : ∀ n, Spawns w n h s ↔ n = if s.phase = .fresh then 0 else 1
  spawn   : ∀ e os s', s.step? w e = some (os, s') → s.loop ≠ .starting → s'.loop = .starting →
    ∃ t, e = .start t ∧ s.phase = .fresh ∧ s' = { s with phase := .running, loop := .starting }
  alone   : h.work? = some s.loop.work
  -- These calls end at once.
  opens   : s.isHeld = true → ∀ t, ∃ os s', s.step? w (.start t) = some (os, s') ∧
    .opened t s.phase.opening ∈ os ∧ (s.phase ≠ .fresh → s' = s)
  saves   : s.isHeld = true → ∀ f, s.phase.refusal? = some f → ∀ t r,
    s.step? w (.save t r) = some ([.saved t r (.error f)], s)
  closes  : s.isHeld = true → s.phase = .fresh → ∀ t,
    s.step? w (.close t) = some ([.closed t (.error .notOpened)], s)
  fails   : ∀ e os s', s.step? w e = some (os, s') → History.refusals os ≠ [] → Untouched s s'
  -- A save that waits is let in or refused, and it is refused once the loop is over.
  resumes : ∀ t i r os s', s.waiter? t = some (i, r) → s.step? w (.resume t) = some (os, s') →
    os = [.saved t r (.ok ())] ∧ s'.intake.queue = s.intake.queue ++ [r] ∨
      os = [.saved t r (.error .closed)] ∧ Untouched s s'
  refused : s.loop.IsOver → ∀ t i r, s.waiter? t = some (i, r) →
    ∃ s', s.step? w (.resume t) = some ([.saved t r (.error .closed)], s')
  ends    : s.phase = .closed → Ends w s
  -- Each save of a producer ends once. What is let in is received, and counted, by the time that the loop
  -- is over; nothing else is.
  calls   : ∀ t rs, Produces w t rs h s → (h.endings t).map (·.1) ++ s.inLine t = rs ∧
    (h.accepted.filter (·.1 = t)).map (·.2) = ((h.endings t).filter (·.2)).map (·.1)
  carried : Carried h s
  emptied : s.loop.IsOver → s.intake.queue = []

theorem opens_of_held (hh : s.isHeld = true) : ∃ os s', s.step? w (.start t) = some (os, s') ∧
    .opened t s.phase.opening ∈ os ∧ (s.phase ≠ .fresh → s' = s) := by
  cases hp : s.phase <;> simp [State.step?, State.start, hh, hp, Phase.opening]

theorem save_of_refusal {f : Fault} (hh : s.isHeld = true) (hf : s.phase.refusal? = some f) :
    s.step? w (.save t r) = some ([.saved t r (.error f)], s) := by
  cases hp : s.phase with
  | running => simp [hp, Phase.refusal?] at hf
  | fresh | closed =>
    rw [hp] at hf
    cases hf
    simp [State.step?, State.save, hh, hp]

-- Whatever is called in whatever order, a writer whose attempts do not crash keeps its law, as long as
-- the clock can represent when the next tick is due.
theorem lawful_of_reachable (hc : w.IsCalm) (r : Reachable w h s)
    (ht : Representable (s.now + w.settings.interval)) : Lawful w h s where
  moves _ _ _ hs           := moved_of_step hs
  forward _ _              := stage_of_run
  spawn _ _ _ hs hn hl     := spawn_of_step hs hn hl
  alone                    := work_of_reachable r
  opens hh _               := opens_of_held hh
  saves hh _ hf _ _        := save_of_refusal hh hf
  closes hh hp _           := by simp [State.step?, State.close, hh, hp]
  fails _ _ _ hs           := untouched_of_step hs
  resumes _ _ _ _ _ hw hs  := ends_of_resume hs hw
  refused ho               := (stopped_of_over r ho).refused
  calls t _ p              := ⟨p.balance, History.accepted_of_ticket t h⟩
  ends hp                  := .of_closed r hp
  carried                  := (Flow.of_reachable r).carried fun hl => hc.unrepresentable r hl ht
  emptied ho               := (Flow.of_reachable r).queue_eq_nil ho.isDone
  once n                   := by
    have ⟨m, p⟩ := Spawns.of_reachable r
    exact ⟨Spawns.eq, fun hn => hn ▸ p.eq ▸ p⟩

-- Calls come before the writer is opened, two saves find no place, and one of them still waits when the
-- writer is closed.
def contended : List (Event Receipt) :=
  [.save 1 (.uniform 0), .close 1, .start 1, .start 2, .wake, .save 1 (.uniform 1),
    .save 2 (.uniform 2), .save 3 (.uniform 3), .receive, .resume 2, .close 1, .save 4 (.uniform 4), .stop,
    .resume 3, .answer [] (.ok ()), .answer [] (.ok ()), .join, .start 2]

theorem lawful_of_reachable_of_contended :
    ∃ h s, Reachable (inChunks { capacity := 1, drainOnClose := true } 1) h s ∧
      (h.accepted, h.refusals, s.stats.received)
        = ([(1, .uniform 1), (2, .uniform 2)], [.notOpened, .notOpened, .closed, .closed, .closed], 2) ∧
      Lawful (inChunks { capacity := 1, drainOnClose := true } 1) h s := by
  let w := inChunks { capacity := 1, drainOnClose := true } 1
  have hm : (w.start.follow w 1 contended).map
      (fun x => (x.2.2.now, x.2.1.accepted, x.2.1.refusals, x.2.2.stats.received))
      = some (0, [(1, .uniform 1), (2, .uniform 2)],
        [.notOpened, .notOpened, .closed, .closed, .closed], 2) := by
    decide +kernel
  have ⟨⟨_, h, s⟩, hf, he⟩ := Option.map_eq_some_iff.mp hm
  have r : Reachable w h s := .follow .refl hf
  have ⟨hn, he⟩ := Prod.mk.inj he
  have ht : Representable (s.now + w.settings.interval) := by
    rw [hn]
    decide
  exact ⟨h, s, r, he, lawful_of_reachable inChunks_isCalm r ht⟩

end WriteBehind.Writer
