import WriteBehind.Proofs.Writer.Buffering
import WriteBehind.Proofs.Writer.Conservation
import WriteBehind.Proofs.Writer.Counting
import WriteBehind.Proofs.Writer.Progress

namespace WriteBehind.Writer

open Flush (Attempt Outcome Receipt)
open History (received attempts outcomes)

variable {Op Ans : Type} {w : Setup Op Ans} {h os os' : History Op Ans} {s s' s'' : State Op Ans}
variable {aim : Aim} {buffer queue : List Record} {a : Attempt Op Ans} {o : Outcome}

inductive Kind
  | ok
  | tooSmall
  | sink
  | other
deriving DecidableEq

def Kind.of : Outcome → Kind
  | .ok _                             => ok
  | .error (.sink ..)                 => sink
  | .error (.chunking (.tooSmall ..)) => tooSmall
  | .error (.chunking _)              => other

def History.ended (k : Kind) (h : History Op Ans) : Nat := ((outcomes h).map Kind.of).count k

-- What happens between two states is entered in the counters, and none of them falls.
structure Entered (s : State Op Ans) (os : History Op Ans) (s' : State Op Ans) : Prop where
  received     : s'.stats.received = s.stats.received + (received os).length
  attempts     : s'.stats.attempts = s.stats.attempts + (attempts os).length
  tooSmall     : s'.stats.tooSmall = s.stats.tooSmall + os.ended .tooSmall
  sinkFailures : s'.stats.sinkFailures = s.stats.sinkFailures + os.ended .sink
  written      : s.stats.written ≤ s'.stats.written
  discarded    : s.stats.discarded ≤ s'.stats.discarded

structure Balanced (w : Setup Op Ans) (h : History Op Ans) (s : State Op Ans) : Prop where
  held         : ¬s.loop.IsOver →
    s.stats.received = s.stats.written + s.loop.buffer.length ∧ s.stats.discarded = 0
  atEnd        : s.loop.IsOver → s.stats.received = s.stats.written + s.stats.discarded
  started      : s.stats.attempts = (attempts h).length
  ended        : ¬s.loop.Waits → s.stats.attempts =
    h.ended .ok + s.stats.tooSmall + s.stats.sinkFailures + h.ended .other
  tooSmall     : s.stats.tooSmall = h.ended .tooSmall
  sinkFailures : s.stats.sinkFailures = h.ended .sink
  grows        : ∀ os s', Run w s os s' → Entered s os s'

@[simp] theorem ended_append {k : Kind} : (h ++ os).ended k = h.ended k + os.ended k := by
  simp [History.ended]

theorem ended_of_none {k : Kind} (ho : outcomes os = []) : os.ended k = 0 := by
  rw [History.ended, ho]
  rfl

theorem length_kinds (ks : List Kind) :
    ks.length = ks.count .ok + ks.count .tooSmall + ks.count .sink + ks.count .other := by
  induction ks with
  | nil => rfl
  | cons k ks hi =>
    rw [List.length_cons, hi]
    cases k <;> simp <;> omega

theorem length_outcomes :
    (outcomes h).length = h.ended .ok + h.ended .tooSmall + h.ended .sink + h.ended .other := by
  rw [← List.length_map Kind.of, length_kinds]
  rfl

namespace Entered

theorem trans (n : Entered s os s') (n' : Entered s' os' s'') : Entered s (os ++ os') s'' where
  received     := by
    rw [n'.received, n.received, History.received_append, List.length_append, Nat.add_assoc]
  attempts     := by
    rw [n'.attempts, n.attempts, History.attempts_append, List.length_append, Nat.add_assoc]
  tooSmall     := by rw [n'.tooSmall, n.tooSmall, ended_append, Nat.add_assoc]
  sinkFailures := by rw [n'.sinkFailures, n.sinkFailures, ended_append, Nat.add_assoc]
  written      := n.written.trans n'.written
  discarded    := n.discarded.trans n'.discarded

theorem aside (hr : os.received = []) (ha : os.attempts = []) (ho : os.outcomes = []) (n : Nat)
    (hs : s'.stats = { s.stats with discarded := s.stats.discarded + n }) : Entered s os s' where
  received     := by rw [hs, hr]; rfl
  attempts     := by rw [hs, ha]; rfl
  tooSmall     := by rw [hs, ended_of_none ho]; rfl
  sinkFailures := by rw [hs, ended_of_none ho]; rfl
  written      := by rw [hs]
  discarded    := by rw [hs]; exact Nat.le_add_right _ _

theorem settle (hs : s'.stats = s.stats.settle buffer o) : Entered s [.settled aim o] s' where
  received     := by rw [hs, Stats.settle_received]; rfl
  attempts     := by rw [hs]; unfold Stats.settle; split <;> rfl
  tooSmall     := by rw [hs]; unfold Stats.settle; split <;> simp_all [History.ended, outcomes, Kind.of]
  sinkFailures := by rw [hs]; unfold Stats.settle; split <;> simp_all [History.ended, outcomes, Kind.of]
  written      := by rw [hs, Stats.settle_written]; exact Nat.le_add_right _ _
  discarded    := by rw [hs, Stats.settle_discarded]

theorem gather {n : Log.Notice} :
    Entered s (.logged n :: s.intake.queue.map .received) s.gathered where
  received     := by
    rw [History.received_cons, History.received_received]
    rfl
  attempts     := by
    rw [History.attempts_cons, History.attempts_received]
    rfl
  tooSmall     := by
    rw [ended_of_none (by rw [History.outcomes_cons, History.outcomes_received]; rfl)]
    rfl
  sinkFailures := by
    rw [ended_of_none (by rw [History.outcomes_cons, History.outcomes_received]; rfl)]
    rfl
  written      := Nat.le_refl _
  discarded    := Nat.le_refl _

theorem begin {x : Occurrence Op Ans} (hr : History.received [x] = []) (ha : History.attempts [x] = [])
    (ho : outcomes [x] = []) : Entered s [x, .begun aim buffer] s.begun := by
  have n : Entered s [x] s := aside hr ha ho 0 rfl
  exact n.trans ⟨rfl, rfl, rfl, rfl, Nat.le_refl _, Nat.le_refl _⟩

theorem finish : Entered s (s.finish buffer).1 (s.finish buffer).2 :=
  have q := History.Aside.finish buffer s
  aside q.received q.attempts q.outcomes _ rfl

theorem logged (ns : List Log.Notice) (n : Entered s os s') : Entered s (ns.map .logged ++ os) s' := by
  have n' : Entered s (ns.map .logged) s :=
    aside History.received_logged History.attempts_logged History.outcomes_logged 0 rfl
  exact n'.trans n

theorem of_proceeds (p : Proceeds aim buffer a s os s') : Entered s os s' := by
  have settled {s' : State Op Ans} {o : Outcome} (hs : s'.stats = s.stats.settle buffer o) :
      Entered s [.settled aim o, .logged (Stats.report buffer o)] s' := by
    have n : Entered s [.settled aim o] s' := settle hs
    exact n.trans (aside rfl rfl rfl 0 rfl)
  cases p with
  | ask    => exact aside History.received_logged History.attempts_logged History.outcomes_logged 0 rfl
  | crash  => exact logged _ (aside rfl rfl rfl 0 rfl)
  | settle => exact logged _ (settled rfl)
  | @finish o =>
    have n : Entered s _ { s with stats := s.stats.settle buffer o } := settled rfl
    exact logged _ (n.trans finish)

theorem of_turn (u : Turn w s os s') : Entered s os s' := by
  cases u with
  | wake | fail | idle => exact aside rfl rfl rfl 0 rfl
  | receive            => exact ⟨rfl, rfl, rfl, rfl, Nat.le_refl _, Nat.le_refl _⟩
  | tick _ _ _ _ p     => exact (begin rfl rfl rfl).trans (of_proceeds p)
  | drain _ _ _ _ p    => exact gather.trans ((begin rfl rfl rfl).trans (of_proceeds p))
  | discard            => exact gather.trans finish
  | @answer _ _ op _ x _ _ _ _ p =>
    have n : Entered s [.answered op x] s := aside rfl rfl rfl 0 rfl
    exact logged _ (n.trans (of_proceeds p))

theorem of_change (c : Change w s os s') : Entered s os s' := by
  cases c with
  | call c  => exact aside c.received c.attempts c.outcomes 0 c.stats
  | start   => exact aside rfl rfl rfl 0 rfl
  | turn u  => exact of_turn u

theorem of_run (l : Run w s os s') : Entered s os s' := by
  induction l with
  | refl         => exact aside rfl rfl rfl 0 rfl
  | step _ hs hi => exact hi.trans (of_change (change_of_step hs))

end Entered

theorem length_attempts (hb : w.IsCalm) (r : Reachable w h s) (hl : ¬s.loop.Waits) :
    (attempts h).length = (outcomes h).length := by
  obtain ⟨a, p, l⟩ := Tells.of_reachable r
  have hc := p.balance
  cases l with
  | writing hs => exact absurd (by rw [hs]; trivial) hl
  | broken hs  =>
    have ⟨ha, _⟩ := hb.of_broken (.of_reachable r) hs
    simp only [ha, List.length_nil, Hand.underway] at hc ⊢
    omega
  | _          =>
    simp only [Hand.underway] at hc
    omega

theorem discarded_of_stands (st : Stands w h s) (hl : ¬s.loop.IsOver) : s.stats.discarded = 0 := by
  cases st with
  | idle _ _ _ _ hd      => exact hd
  | listening _ _ hd     => exact hd
  | writing _ _ _ _ hd   => exact hd
  | drained hs | discarded hs | failed hs | crashed hs => exact absurd (by rw [hs]; trivial) hl

-- Whatever happens, the counters of a writer are balanced.
theorem stats_balanced (hb : w.IsCalm) (hn : w.LeavesNoMore) (r : Reachable w h s) : Balanced w h s := by
  have hc : Counted s := counted_of_reachable hb hn r
  have n : Entered w.start h s := .of_run r
  have ht : s.stats.tooSmall = h.ended .tooSmall := n.tooSmall.trans (Nat.zero_add _)
  have hf : s.stats.sinkFailures = h.ended .sink := n.sinkFailures.trans (Nat.zero_add _)
  have ha : s.stats.attempts = (attempts h).length := n.attempts.trans (Nat.zero_add _)
  refine ⟨fun hl => ?_, fun hl => ?_, ha, fun hl => ?_, ht, hf, fun _ _ => .of_run⟩
  · have hd := discarded_of_stands (.of_reachable r) hl
    rw [Counted, hd] at hc
    exact ⟨hc.symm, hd⟩
  · rw [Counted, hl.buffer_eq_nil] at hc
    exact hc.symm
  · rw [ha, length_attempts hb r hl, length_outcomes, ht, hf]

-- One attempt comes too early, one succeeds, one fails, and the one at the end fails at its second chunk.
def mixed : List (Event Receipt) :=
  [.start 0, .wake, .save 1 (.uniform 1), .receive, .pass 1000000000, .tick,
    .save 1 (.uniform 2), .receive, .pass 1000000000, .tick, .answer [] (.ok ()),
    .save 1 (.uniform 3), .save 1 (.uniform 4), .receive, .receive, .pass 1000000000, .tick,
    .answer [] (.error (.sql .timedOut)), .save 1 (.uniform 5), .close 2, .stop, .answer [] (.ok ()),
    .answer [] (.error (.sql .timedOut))]

theorem stats_balanced_of_mixed :
    ∃ h s, Reachable (inChunks { drainOnClose := true } 2) h s ∧
      s.stats = { received := 5, attempts := 4, written := 4, tooSmall := 1, sinkFailures := 2,
                  discarded := 1 } ∧
      Balanced (inChunks { drainOnClose := true } 2) h s := by
  let w := inChunks { drainOnClose := true } 2
  have hm : (w.start.follow w 1 mixed).map (·.2.2.stats)
      = some { received := 5, attempts := 4, written := 4, tooSmall := 1, sinkFailures := 2,
               discarded := 1 } := by
    decide +kernel
  have ⟨⟨_, h, s⟩, hf, he⟩ := Option.map_eq_some_iff.mp hm
  have r : Reachable w h s := .follow .refl hf
  exact ⟨h, s, r, he, stats_balanced inChunks_isCalm inChunks_leavesNoMore r⟩

end WriteBehind.Writer
