import WriteBehind.Proofs.Writer.Buffering
import WriteBehind.Proofs.Writer.Lifecycle
import WriteBehind.Proofs.Writer.Ticking

namespace WriteBehind.Writer

open Flush (Outcome Receipt)
open History (accepted attempts outcomes received ticks)
open Rehearsal (Verdict scripted)

variable {Op Ans : Type} {w : Setup Op Ans} {h os : History Op Ans} {s s' : State Op Ans}
variable {held : List Record} {e : Event Ans}

def Loop.left : Loop Op Ans → List Outcome → List Record
  | .writing _ buffer _ _, [o] => o.left buffer
  | l, _                       => l.buffer

structure Discards (w : Setup Op Ans) (s : State Op Ans) : Prop where
  -- An attempt can begin where a tick is due and the buffer is not empty, and only with that tick.
  begins   : (∃ e os s', s.step? w e = some (os, s') ∧ attempts os ≠ []) ↔
    ∃ buffer due, s.loop = .listening buffer due ∧ buffer ≠ [] ∧ due ≤ s.now
  ticked   : ∀ os s', Run w s os s' →
    (∀ x ∈ attempts os, ∃ next, x.1 = .tick next) ∧ (attempts os).length ≤ (ticks os).length
  -- The loop can stop wherever it listens.
  stops    : ∀ buffer next, s.loop = .listening buffer next → ∃ os s', s.step? w .stop = some (os, s') ∧
    attempts os = [] ∧ s'.loop = .ended ∧ s'.stats.discarded = (buffer ++ s.intake.queue).length
  -- An attempt in progress is one for a tick, and nothing but an answer moves it.
  finishes : ∀ aim buffer op go, s.loop = .writing aim buffer op go →
    (∃ next, aim = .tick next) ∧
      ∀ e os s', s.step? w e = some (os, s') → (∀ ns x, e ≠ .answer ns x) → s'.loop = s.loop
  -- What is then left is counted, with all that came into the queue, unless another tick is served.
  left     : ¬s.loop.IsOver → ∀ os s', Run w s os s' → ticks os = [] → s'.loop = .ended →
    s'.stats.discarded =
      (s.loop.left (outcomes os)).length + s.intake.queue.length + (accepted os).length
  -- Nothing is counted before the loop has ended, nor if it has crashed.
  ended    : s.loop ≠ .ended → s.stats.discarded = 0
  ends     : Ends w s

theorem begins_of_step (hs : s.step? w e = some (os, s')) : Begins w s os := by
  cases change_of_step hs with
  | call c  => exact .none c.attempts
  | start   => exact .none rfl
  | turn u  => exact begins_of_turn u

theorem ticked_of_run (hd : w.settings.drainOnClose = false) (l : Run w s os s') :
    (∀ x ∈ attempts os, ∃ next, x.1 = .tick next) ∧ (attempts os).length ≤ (ticks os).length := by
  induction l with
  | refl => exact ⟨nofun, Nat.le_refl _⟩
  | @step h s e os s' _ hs hi =>
    obtain ⟨ha, hn⟩ : (∀ x ∈ attempts os, ∃ next, x.1 = .tick next) ∧
        (attempts os).length ≤ (ticks os).length := by
      cases begins_of_step hs with
      | none ha          => simp [ha]
      | tick _ _ _ hx ha => simp [ha, hx]
      | last _ hd'       => exact absurd (hd.symm.trans hd') Bool.false_ne_true
    rw [History.attempts_append, History.ticks_append, List.length_append, List.length_append]
    exact ⟨List.forall_mem_append.mpr ⟨hi.left, ha⟩, Nat.add_le_add hi.right hn⟩

theorem begins_iff (hd : w.settings.drainOnClose = false) :
    (∃ e os s', s.step? w e = some (os, s') ∧ attempts os ≠ []) ↔
      ∃ buffer due, s.loop = .listening buffer due ∧ buffer ≠ [] ∧ due ≤ s.now := by
  constructor
  case mp =>
    rintro ⟨e, os, s', hs, ha⟩
    cases begins_of_step hs with
    | none hn       => exact absurd hn ha
    | tick hl hn hb => exact ⟨_, _, hl, hb, hn⟩
    | last _ hd'    => exact absurd (hd.symm.trans hd') Bool.false_ne_true
  case mpr =>
    rintro ⟨buffer, due, hl, hb, hn⟩
    have ht : s.tick w = some (.ticked due s.now ::
        (s.attempt w (.tick (nextTick w.settings.interval due s.now)) buffer).1,
        (s.attempt w (.tick (nextTick w.settings.interval due s.now)) buffer).2) := by
      simp [State.tick, hl, Nat.not_lt.mpr hn, hb]
    exact ⟨.tick, _, _, ht, by simp [State.attempt, attempts]⟩

theorem aim_of_writing {aim : Aim} {op : Op} {go} (hd : w.settings.drainOnClose = false)
    (r : Reachable w h s) (hl : s.loop = .writing aim held op go) : ∃ next, aim = .tick next := by
  have ⟨_, _, _, hlast, _⟩ := (Stands.of_reachable r).of_writing hl
  cases aim with
  | tick next => exact ⟨next, rfl⟩
  | last      => exact absurd (hd.symm.trans (hlast rfl).left) Bool.false_ne_true

theorem discarded_of_proceeds {aim : Aim} {buffer : List Record} {a : Flush.Attempt Op Ans}
    (p : Proceeds aim buffer a s os s') (hl : s'.loop ≠ .ended) :
    s'.stats.discarded = s.stats.discarded := by
  cases p with
  | ask | crash => rfl
  | settle      => exact Stats.settle_discarded _ _ _
  | finish      => exact absurd rfl hl

theorem discarded_of_unended (r : Reachable w h s) (hl : s.loop ≠ .ended) : s.stats.discarded = 0 := by
  revert hl
  apply r.induct
  case start => exact fun _ => rfl
  case keep =>
    intro h s e os s' r hi hs hl
    cases change_of_step hs with
    | call c   => exact c.stats ▸ hi (c.loop ▸ hl)
    | start hp => exact hi (by simp [(Flow.of_reachable r).fresh hp])
    | turn u   =>
      have hi := hi fun hn => absurd u (Loop.IsOver.not_turn (hn ▸ trivial))
      cases u with
      | wake | fail | receive | idle => exact hi
      | tick _ _ _ _ p               => exact (discarded_of_proceeds p hl).trans hi
      | answer _ p                   => exact (discarded_of_proceeds p hl).trans hi
      | drain _ _ _ _ p              => exact (discarded_of_proceeds p hl).trans hi
      | discard                      => exact absurd rfl hl

theorem Tells.discarded_of_rest (l : Tells w s (.rest held)) (hl : s.loop = .ended) :
    s.stats.discarded = held.length := by
  cases l with
  | discarded _ hd => exact hd
  | _              => simp_all

theorem length_received_of_ended (r : Reachable w h s) (hr : Run w s os s') (ho : ¬s.loop.IsOver)
    (hl : s'.loop = .ended) :
    (received os).length = s.intake.queue.length + (accepted os).length := by
  have f' := Flow.of_reachable (r.trans hr)
  have c := (Flow.of_reachable r).carried fun hn => ho (hn ▸ trivial)
  have c' := f'.carried (by simp [hl])
  have hq : s'.intake.queue = [] := f'.queue_eq_nil (by simp [hl, Loop.IsDone])
  have hc : h.received ++ (received os ++ s'.intake.queue)
      = h.received ++ (s.intake.queue ++ (accepted os).map (·.2)) := by
    have hc := c'.queued
    rw [History.received_append, History.accepted_append, List.map_append, ← c.queued] at hc
    simpa using hc
  have hr := List.append_cancel_left hc
  rw [hq, List.append_nil] at hr
  rw [hr, List.length_append, List.length_map]

theorem length_left_of_run (hd : w.settings.drainOnClose = false) (r : Reachable w h s)
    (ho : ¬s.loop.IsOver) (hr : Run w s os s') (ha : attempts os = []) (hl : s'.loop = .ended) :
    s'.stats.discarded = (s.loop.left (outcomes os)).length + (received os).length := by
  have ⟨a, _, l⟩ := Tells.of_reachable r
  have ⟨b, p, l'⟩ := l.run r hr
  have rest {buffer : List Record} (hb : s.loop.left (outcomes os) = buffer)
      (hc : b = .rest (buffer ++ received os)) :
      s'.stats.discarded = (s.loop.left (outcomes os)).length + (received os).length := by
    subst hc
    rw [l'.discarded_of_rest hl, List.length_append, hb]
  cases l with
  | idle hs _      =>
    refine rest ?_ (p.of_rest ha).left
    rcases hs with hs | hs <;> simp [hs, Loop.left, Loop.buffer]
  | listening hs _ => exact rest (by simp [hs, Loop.left, Loop.buffer]) (p.of_rest ha).left
  | writing hs     =>
    obtain ⟨next, rfl⟩ := aim_of_writing hd r hs
    rcases p.of_busy ha with ⟨rfl, _⟩ | ⟨o, ho, _, hb⟩
    · cases l' <;> simp_all
    · exact rest (by rw [hs, ho]; rfl) hb
  | discarded hs | drained hs | broken hs => exact absurd (by rw [hs]; trivial) ho

theorem stop_of_listening {next : Nat} (hd : w.settings.drainOnClose = false) (r : Reachable w h s)
    (hp : s.phase = .closed) (hl : s.loop = .listening held next) :
    ∃ os s', s.step? w .stop = some (os, s') ∧ attempts os = [] ∧ s'.loop = .ended ∧
      s'.stats.discarded = (held ++ s.intake.queue).length := by
  have hs : s.step? w .stop = some (.logged .closeSignal :: (s.wind w held).1, (s.wind w held).2) := by
    simp [State.step?, State.stop, hl, hp]
  have hw : s.wind w held = (s.intake.queue.map .received ++
      (State.finish (held ++ s.intake.queue) s.gathered).1,
      (State.finish (held ++ s.intake.queue) s.gathered).2) := by
    simp [State.wind, hd, State.gathered]
  rw [hw] at hs
  refine ⟨_, _, hs, ?_, rfl, ?_⟩
  · rw [History.attempts_cons, History.attempts_append, History.attempts_received,
      (quiet_of_finish _ _).attempts]
    rfl
  · have hz : s.stats.discarded = 0 := discarded_of_unended r (by simp [hl])
    simp [State.finish, State.gathered, hz]

-- However a writer that does not drain has come to be closed, it discards what is left at its end.
theorem discards_of_closed (hd : w.settings.drainOnClose = false) (r : Reachable w h s)
    (hp : s.phase = .closed) : Discards w s where
  begins              := begins_iff hd
  ticked _ _          := ticked_of_run hd
  stops _ _           := stop_of_listening hd r hp
  finishes _ _ _ _ hl := ⟨aim_of_writing hd r hl, fun _ _ _ => loop_of_not_answer r hl⟩
  left ho os s' l hx hl := by
    have hn : (attempts os).length ≤ 0 := by
      rw [← List.length_eq_zero_iff.mpr hx]
      exact (ticked_of_run hd l).right
    have ha : attempts os = [] := List.eq_nil_of_length_eq_zero (Nat.le_zero.mp hn)
    rw [length_left_of_run hd r ho l ha hl, length_received_of_ended r l ho hl, Nat.add_assoc]
  ended               := discarded_of_unended r
  ends                := .of_closed r hp

-- Two records are saved while the first is being written, and the writer is closed before that is done.
def closedInTime : List (Event Receipt) :=
  [.start 0, .wake, .save 1 (.uniform 1), .receive, .pass 100000000, .tick, .save 1 (.uniform 2),
    .save 1 (.uniform 3), .close 2]

theorem discards_of_closed_in_time :
    ∃ h s, Reachable (inChunks { interval := 100000000 } 1) h s ∧
      (s.loop.buffer, s.intake.queue) = ([.uniform 1], [.uniform 2, .uniform 3]) ∧
      Discards (inChunks { interval := 100000000 } 1) s := by
  let w := inChunks { interval := 100000000 } 1
  have hm : (w.start.follow w 1 closedInTime).map
      (fun x => (x.2.2.phase, x.2.2.loop.buffer, x.2.2.intake.queue))
      = some (.closed, [.uniform 1], [.uniform 2, .uniform 3]) := by
    decide +kernel
  have ⟨⟨_, h, s⟩, hf, he⟩ := Option.map_eq_some_iff.mp hm
  have ⟨hp, he⟩ := Prod.mk.inj he
  have r : Reachable w h s := .follow .refl hf
  exact ⟨h, s, r, he, discards_of_closed rfl r hp⟩

-- The attempt takes longer than the interval, so that a tick is due when it is done.
def overdue : List (Event Receipt) :=
  [.pass 150000000, .answer [] (.ok ()), .receive, .receive, .tick, .answer [] (.ok ()),
    .answer [] (.ok ()), .stop]

def crashing : List (Event Verdict) :=
  [.start 0, .wake, .save 1 (.uniform 1), .save 1 (.uniform 2), .receive, .receive, .pass 100000000, .tick,
    .close 2]

-- Records that were queued when the writer was closed are written by another attempt. Records that the
-- loop held when it crashed are not counted.
theorem not_discarded_of_overdue :
    (∃ h s os s', Reachable (inChunks { interval := 100000000 } 1) h s ∧ s.phase = .closed ∧
      Run (inChunks { interval := 100000000 } 1) s os s' ∧
      (os.attempts.map (·.2), s'.stats.written, s'.stats.discarded)
        = ([[.uniform 2, .uniform 3]], 3, 0)) ∧
    ∃ h s os s', Reachable ⟨{ interval := 100000000 }, scripted⟩ h s ∧ s.phase = .closed ∧
      s.loop.buffer = [.uniform 1, .uniform 2] ∧
      Run ⟨{ interval := 100000000 }, scripted⟩ s os s' ∧ s'.loop.IsOver ∧
      (os.attempts.length, s'.stats.written, s'.stats.discarded) = (0, 0, 0) := by
  constructor
  case left =>
    let w := inChunks { interval := 100000000 } 1
    have hm : (w.start.follow w 1 closedInTime).bind (fun x => (x.2.2.follow w 1 overdue).map fun y =>
        (x.2.2.phase, y.2.1.attempts.map (·.2), y.2.2.stats.written, y.2.2.stats.discarded))
        = some (.closed, [[.uniform 2, .uniform 3]], 3, 0) := by
      decide +kernel
    have ⟨⟨_, h, s⟩, hf, hm⟩ := Option.bind_eq_some_iff.mp hm
    have ⟨⟨_, os, s'⟩, hf', he⟩ := Option.map_eq_some_iff.mp hm
    have ⟨hp, he⟩ := Prod.mk.inj he
    exact ⟨h, s, os, s', .follow .refl hf, hp, .follow .refl hf', he⟩
  case right =>
    let w : Setup (List Record) Verdict := ⟨{ interval := 100000000 }, scripted⟩
    have hm : (w.start.follow w 1 crashing).bind (fun x => (x.2.2.follow w 1 [.answer [] none]).map fun y =>
        (x.2.2.phase, x.2.2.loop.buffer, y.2.2.loop matches .broken,
          y.2.1.attempts.length, y.2.2.stats.written, y.2.2.stats.discarded))
        = some (.closed, [.uniform 1, .uniform 2], true, 0, 0, 0) := by
      decide +kernel
    have ⟨⟨_, h, s⟩, hf, hm⟩ := Option.bind_eq_some_iff.mp hm
    have ⟨⟨_, os, s'⟩, hf', he⟩ := Option.map_eq_some_iff.mp hm
    have ⟨hp, he⟩ := Prod.mk.inj he
    have ⟨hb, he⟩ := Prod.mk.inj he
    have ⟨hl, he⟩ := Prod.mk.inj he
    have hl : s'.loop.IsOver := by
      cases hs : s'.loop with
      | broken => trivial
      | _      => simp [hs] at hl
    exact ⟨h, s, os, s', .follow .refl hf, hp, hb, .follow .refl hf', hl, he⟩

end WriteBehind.Writer
