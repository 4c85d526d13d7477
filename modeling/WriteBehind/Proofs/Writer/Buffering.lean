import WriteBehind.Proofs.Writer.Producer
import WriteBehind.Rehearsal.Desk

namespace WriteBehind.Writer

open Flush (Outcome)
open Flush.Attempt (Course)
open History (LastAttempt received attempts outcomes answers)
open Rehearsal (Verdict scripted)

variable {Op Ans : Type}

inductive Hand (Op Ans : Type)
  | rest (held : List Record)
  | busy (aim : Aim) (held : List Record) (qs : List (Op × Ans))
  | spent (held : List Record)

def Hand.leaves : Aim → List Record → Hand Op Ans
  | .tick _, held => rest held
  | .last, held   => spent held

def Hand.underway : Hand Op Ans → Nat
  | busy .. => 1
  | _       => 0

structure History.Aside (h : History Op Ans) : Prop where
  received : h.received = []
  attempts : h.attempts = []
  outcomes : h.outcomes = []
  answers  : h.answers = []

open History (Aside)

inductive Entry (w : Setup Op Ans) : Hand Op Ans → Occurrence Op Ans → Hand Op Ans → Prop
  | receive {held r} : Entry w (.rest held) (.received r) (.rest (held ++ [r]))
  | begin {aim held} :
    held ≠ [] →
    (aim = .last → w.settings.drainOnClose = true) →
    Entry w (.rest held) (.begun aim held) (.busy aim held [])
  | answer {aim held qs op x} :
    Entry w (.busy aim held qs) (.answered op x) (.busy aim held (qs ++ [(op, x)]))
  | settle {aim held qs o} :
    Course (w.attempt aim held) qs (.done o) →
    Entry w (.busy aim held qs) (.settled aim o) (.leaves aim (o.left held))
  | aside {a o} : Aside [o] → Entry w a o a

inductive Path (w : Setup Op Ans) : Hand Op Ans → History Op Ans → Hand Op Ans → Prop
  | nil {a} : Path w a [] a
  | cons {a b c o h} : Entry w a o b → Path w b h c → Path w a (o :: h) c

-- Whether the loop has this in hand.
inductive Tells (w : Setup Op Ans) (s : State Op Ans) : Hand Op Ans → Prop
  | idle :
    s.loop = .absent ∨ s.loop = .starting →
    s.stats.discarded = 0 →
    Tells w s (.rest [])
  | listening {held next} :
    s.loop = .listening held next →
    s.stats.discarded = 0 →
    Tells w s (.rest held)
  | writing {aim held qs op go} :
    s.loop = .writing aim held op go →
    Course (w.attempt aim held) qs (.ask op go) →
    s.stats.discarded = 0 →
    Tells w s (.busy aim held qs)
  | discarded {held} :
    s.loop = .ended →
    s.stats.discarded = held.length →
    Tells w s (.rest held)
  | drained {held} :
    s.loop = .ended →
    s.stats.discarded = held.length →
    Tells w s (.spent held)
  | broken {a} : s.loop = .broken → Tells w s a

variable {w : Setup Op Ans} {s s' : State Op Ans} {h h' os : History Op Ans} {a b c : Hand Op Ans}
variable {aim : Aim} {held rs : List Record} {qs : List (Op × Ans)} {o : Occurrence Op Ans}

namespace Path

theorem append_iff : Path w a (h ++ h') c ↔ ∃ b, Path w a h b ∧ Path w b h' c := by
  induction h generalizing a with
  | nil =>
    refine ⟨fun p => ⟨a, .nil, p⟩, fun ⟨b, p, p'⟩ => ?_⟩
    cases p
    exact p'
  | cons o h hi =>
    constructor
    · rintro (_ | ⟨e, p⟩)
      have ⟨b, p, p'⟩ := hi.mp p
      exact ⟨b, .cons e p, p'⟩
    · rintro ⟨b, _ | ⟨e, p⟩, p'⟩
      exact .cons e (hi.mpr ⟨b, p, p'⟩)

theorem append (p : Path w a h b) (p' : Path w b h' c) : Path w a (h ++ h') c :=
  append_iff.mpr ⟨b, p, p'⟩

end Path

namespace History.Aside

theorem cons_iff : Aside (o :: h) ↔ Aside [o] ∧ Aside h where
  mp q := by
    have ⟨hr, ha, ho, hx⟩ := q
    rw [received_cons, List.append_eq_nil_iff] at hr
    rw [attempts_cons, List.append_eq_nil_iff] at ha
    rw [outcomes_cons, List.append_eq_nil_iff] at ho
    rw [answers_cons, List.append_eq_nil_iff] at hx
    exact ⟨⟨hr.left, ha.left, ho.left, hx.left⟩, hr.right, ha.right, ho.right, hx.right⟩
  mpr q := by
    refine ⟨?_, ?_, ?_, ?_⟩
    · rw [received_cons, q.left.received, q.right.received]; rfl
    · rw [attempts_cons, q.left.attempts, q.right.attempts]; rfl
    · rw [outcomes_cons, q.left.outcomes, q.right.outcomes]; rfl
    · rw [answers_cons, q.left.answers, q.right.answers]; rfl

theorem path (q : Aside h) : Path w a h a := by
  induction h with
  | nil => exact .nil
  | cons o h hi =>
    have ⟨q, q'⟩ := cons_iff.mp q
    exact .cons (.aside q) (hi q')

theorem logged (ns : List Log.Notice) : Aside (ns.map .logged : History Op Ans) :=
  ⟨received_logged, attempts_logged, outcomes_logged, answers_logged⟩

theorem finish (buffer : List Record) (s : State Op Ans) : Aside (s.finish buffer).1 := by
  simp only [State.finish]
  split <;> exact ⟨rfl, rfl, rfl, rfl⟩

end History.Aside

namespace Path

theorem receive (held queue : List Record) :
    Path w (.rest held) (queue.map .received) (.rest (held ++ queue)) := by
  induction queue generalizing held with
  | nil =>
    rw [List.append_nil]
    exact .nil
  | cons r queue hi =>
    have p := hi (held ++ [r])
    rw [List.append_assoc] at p
    exact .cons .receive p

theorem of_proceeds {a : Flush.Attempt Op Ans} (p : Proceeds aim held a s os s')
    (c : Course (w.attempt aim held) qs a.pause.2) (hd : s.stats.discarded = 0) :
    ∃ b, Path w (.busy aim held qs) os b ∧ Tells w s' b := by
  have l : Path w (.busy aim held qs) (a.pause.1.map .logged) (.busy aim held qs) :=
    (Aside.logged _).path
  cases p with
  | ask hp => exact ⟨_, l, .writing rfl (hp ▸ c) hd⟩
  | crash  => exact ⟨_, l.append (Aside.path ⟨rfl, rfl, rfl, rfl⟩), .broken rfl⟩
  | settle hp ha =>
    subst ha
    refine ⟨_, l.append (.cons (.settle (hp ▸ c)) (Aside.path ⟨rfl, rfl, rfl, rfl⟩)), ?_⟩
    exact .listening rfl (by simp [hd])
  | finish hp ha =>
    subst ha
    refine ⟨_, l.append (.cons (.settle (hp ▸ c)) (Path.cons (.aside ⟨rfl, rfl, rfl, rfl⟩)
      (Aside.finish _ _).path)), ?_⟩
    exact .drained rfl (by simp [State.finish, hd])

end Path

namespace Tells

theorem start : Tells w w.start (.rest []) := .idle (.inl rfl) rfl

theorem of_starting (l : Tells w s a) (hl : s.loop = .absent ∨ s.loop = .starting) :
    a = .rest [] ∧ s.stats.discarded = 0 := by
  cases l with
  | idle _ hd => exact ⟨rfl, hd⟩
  | _         => simp_all

theorem of_listening {next : Nat} (l : Tells w s a) (hl : s.loop = .listening held next) :
    a = .rest held ∧ s.stats.discarded = 0 := by
  cases l with
  | listening hl' hd =>
    cases hl'.symm.trans hl
    exact ⟨rfl, hd⟩
  | _ => simp_all

theorem of_writing {op : Op} {go} (l : Tells w s a) (hl : s.loop = .writing aim held op go) :
    ∃ qs, a = .busy aim held qs ∧ Course (w.attempt aim held) qs (.ask op go) ∧
      s.stats.discarded = 0 := by
  cases l with
  | writing hl' c hd =>
    cases hl'.symm.trans hl
    exact ⟨_, rfl, c, hd⟩
  | _ => simp_all

theorem call (l : Tells w s a) (hl : s'.loop = s.loop) (hs : s'.stats = s.stats) : Tells w s' a := by
  cases l with
  | idle h hd      => exact .idle (hl ▸ h) (hs ▸ hd)
  | listening h hd => exact .listening (hl.trans h) (hs ▸ hd)
  | writing h c hd => exact .writing (hl.trans h) c (hs ▸ hd)
  | discarded h hd => exact .discarded (hl.trans h) (hs ▸ hd)
  | drained h hd   => exact .drained (hl.trans h) (hs ▸ hd)
  | broken h       => exact .broken (hl.trans h)

theorem turn (l : Tells w s a) (u : Turn w s os s') : ∃ b, Path w a os b ∧ Tells w s' b := by
  cases u with
  | wake hl _ =>
    obtain ⟨rfl, hd⟩ := l.of_starting (.inr hl)
    exact ⟨_, Aside.path ⟨rfl, rfl, rfl, rfl⟩, .listening rfl hd⟩
  | fail hl _ => exact ⟨_, Aside.path ⟨rfl, rfl, rfl, rfl⟩, .broken rfl⟩
  | receive hl _ =>
    obtain ⟨rfl, hd⟩ := l.of_listening hl
    exact ⟨_, .cons .receive .nil, .listening rfl hd⟩
  | idle hl _ =>
    obtain ⟨rfl, hd⟩ := l.of_listening hl
    exact ⟨_, Aside.path ⟨rfl, rfl, rfl, rfl⟩, .listening rfl hd⟩
  | tick hl _ _ hn p =>
    obtain ⟨rfl, hd⟩ := l.of_listening hl
    have ⟨b, p, l⟩ := Path.of_proceeds (w := w) p (.start rfl) hd
    exact ⟨b, .cons (.aside ⟨rfl, rfl, rfl, rfl⟩) (.cons (.begin hn nofun) p), l⟩
  | answer hl p =>
    obtain ⟨qs, rfl, c, hd⟩ := l.of_writing hl
    have ⟨b, p, l⟩ := Path.of_proceeds p (.answer c rfl) hd
    exact ⟨b, (Aside.logged _).path.append (.cons .answer p), l⟩
  | @drain buffer _ _ _ _ hl _ hs hn p =>
    obtain ⟨rfl, hd⟩ := l.of_listening hl
    have ⟨b, p, l⟩ := Path.of_proceeds (w := w) p (.start rfl) hd
    refine ⟨b, .cons (.aside ⟨rfl, rfl, rfl, rfl⟩) ((Path.receive buffer s.intake.queue).append ?_), l⟩
    exact .cons (.aside ⟨rfl, rfl, rfl, rfl⟩) (.cons (.begin hn fun _ => hs) p)
  | @discard buffer _ _ hl =>
    obtain ⟨rfl, hd⟩ := l.of_listening hl
    refine ⟨.rest (buffer ++ s.intake.queue), .cons (.aside ⟨rfl, rfl, rfl, rfl⟩) ?_,
      .discarded rfl (by simp [State.finish, State.gathered, hd])⟩
    exact (Path.receive buffer s.intake.queue).append (Aside.finish _ _).path

theorem change (l : Tells w s a) (hf : s.phase = .fresh → s.loop = .absent) (c : Change w s os s') :
    ∃ b, Path w a os b ∧ Tells w s' b := by
  cases c with
  | call c => exact ⟨a, Aside.path ⟨c.received, c.attempts, c.outcomes, c.answers⟩, l.call c.loop c.stats⟩
  | start hp =>
    obtain ⟨rfl, hd⟩ := l.of_starting (.inl (hf hp))
    exact ⟨_, Aside.path ⟨rfl, rfl, rfl, rfl⟩, .idle (.inr rfl) hd⟩
  | turn u => exact l.turn u

-- The machine follows the loop from wherever it is.
theorem run (r : Reachable w h s) (l : Tells w s a) (hr : Run w s os s') :
    ∃ b, Path w a os b ∧ Tells w s' b := by
  induction hr with
  | refl => exact ⟨a, .nil, l⟩
  | step hr hs hi =>
    have ⟨b, p, l⟩ := hi
    have ⟨c, p', l⟩ := l.change (Flow.of_reachable (r.trans hr)).fresh (change_of_step hs)
    exact ⟨c, p.append p', l⟩

theorem of_reachable (r : Reachable w h s) : ∃ a, Path w (.rest []) h a ∧ Tells w s a :=
  start.run .refl r

end Tells

namespace Entry

theorem balance (e : Entry w a o b) :
    a.underway + (attempts [o]).length = (outcomes [o]).length + b.underway := by
  cases e with
  | @settle aim => cases aim <;> rfl
  | aside q     => rw [q.attempts, q.outcomes]; exact Nat.add_comm _ _
  | _           => rfl

theorem filled (e : Entry w a o b) : ∀ x ∈ attempts [o], x.2 ≠ [] := by
  cases e with
  | begin hn => exact List.forall_mem_singleton.mpr hn
  | aside q  => simp [q.attempts]
  | _        => simp [attempts]

end Entry

namespace Path

theorem of_spent (p : Path w (.spent held) h b) : b = .spent held ∧ Aside h := by
  induction h with
  | nil =>
    cases p
    exact ⟨rfl, rfl, rfl, rfl, rfl⟩
  | cons o h hi =>
    obtain _ | ⟨e, p⟩ := p
    cases e with
    | aside q =>
      have ⟨hb, q'⟩ := hi p
      exact ⟨hb, History.Aside.cons_iff.mpr ⟨q, q'⟩⟩

theorem of_rest (p : Path w (.rest held) h b) (hn : h.attempts = []) :
    b = .rest (held ++ h.received) ∧ h.outcomes = [] ∧ h.answers = [] := by
  induction h generalizing held with
  | nil =>
    cases p
    simp
  | cons o h hi =>
    obtain _ | ⟨e, p⟩ := p
    rw [History.attempts_cons, List.append_eq_nil_iff] at hn
    cases e with
    | @receive held r =>
      obtain ⟨hb, ho, hx⟩ := hi p hn.right
      refine ⟨?_, ho, hx⟩
      rw [hb, History.received_cons, List.append_assoc]
      rfl
    | begin   => exact absurd hn.left (by simp [attempts])
    | aside q =>
      obtain ⟨hb, ho, hx⟩ := hi p hn.right
      rw [History.received_cons, History.outcomes_cons, History.answers_cons, q.received, q.outcomes,
        q.answers]
      exact ⟨hb, ho, hx⟩

theorem of_busy (p : Path w (.busy aim held qs) h b) (hn : h.attempts = []) :
    (b = .busy aim held (qs ++ h.answers) ∧ h.outcomes = []) ∨
      ∃ o, h.outcomes = [o] ∧ Course (w.attempt aim held) (qs ++ h.answers) (.done o) ∧
        b = .leaves aim (o.left held ++ h.received) := by
  induction h generalizing qs with
  | nil =>
    cases p
    simp
  | cons o h hi =>
    obtain _ | ⟨e, p⟩ := p
    rw [History.attempts_cons, List.append_eq_nil_iff] at hn
    cases e with
    | @answer _ _ _ op x =>
      rcases hi p hn.right with ⟨hb, ho⟩ | ⟨o, ho, c, hb⟩
      case inl => exact .inl ⟨by simpa [answers] using hb, ho⟩
      case inr => exact .inr ⟨o, ho, by simpa [answers] using c, hb⟩
    | @settle _ _ _ o c =>
      refine .inr ⟨o, ?_⟩
      cases aim with
      | tick next =>
        obtain ⟨hb, ho, hx⟩ := p.of_rest hn.right
        rw [History.outcomes_cons, History.answers_cons, ho, hx]
        exact ⟨rfl, by simpa [answers] using c, hb⟩
      | last =>
        obtain ⟨hb, q⟩ := p.of_spent
        rw [History.outcomes_cons, History.answers_cons, History.received_cons, q.outcomes, q.answers,
          q.received]
        exact ⟨rfl, by simpa [answers] using c, by simpa [received, Hand.leaves] using hb⟩
    | aside q =>
      rw [History.received_cons, History.outcomes_cons, History.answers_cons, q.received, q.outcomes,
        q.answers]
      exact hi p hn.right

theorem of_last (p : Path w (.busy .last held qs) h b) : h.attempts = [] := by
  induction h generalizing qs with
  | nil => rfl
  | cons o h hi =>
    obtain _ | ⟨e, p⟩ := p
    cases e with
    | answer   => exact hi p
    | settle   => exact p.of_spent.right.attempts
    | aside q  =>
      rw [History.attempts_cons, q.attempts]
      exact hi p

theorem of_begun (p : Path w a (.begun aim rs :: h) b) :
    a = .rest rs ∧ rs ≠ [] ∧ (aim = .last → w.settings.drainOnClose = true) ∧
      Path w (.busy aim rs []) h b := by
  obtain _ | ⟨e, p⟩ := p
  cases e with
  | begin hn hd => exact ⟨rfl, hn, hd, p⟩
  | aside q     => exact absurd q.attempts (by simp [attempts])

theorem balance (p : Path w a h b) :
    a.underway + h.attempts.length = h.outcomes.length + b.underway := by
  induction p with
  | nil => simp
  | cons e _ hi =>
    have hb := e.balance
    rw [History.attempts_cons, History.outcomes_cons, List.length_append, List.length_append]
    omega

theorem filled (p : Path w a h b) : ∀ x ∈ h.attempts, x.2 ≠ [] := by
  induction p with
  | nil => simp
  | cons e _ hi =>
    rw [History.attempts_cons]
    exact List.forall_mem_append.mpr ⟨e.filled, hi⟩

end Path

structure Buffered (w : Setup Op Ans) (h : History Op Ans) (s : State Op Ans) : Prop where
  filled : ∀ x ∈ h.attempts, x.2 ≠ []
  first  : ∀ (pre post : History Op Ans) aim rs,
    h = pre ++ .begun aim rs :: post → pre.attempts = [] → rs = pre.received
  -- Between two attempts in a row, the first has its outcome, to which its answers have led.
  next   : ∀ (pre mid post : History Op Ans) aim rs aim' rs',
    h = pre ++ .begun aim rs :: (mid ++ .begun aim' rs' :: post) → mid.attempts = [] →
    ∃ o, mid.outcomes = [o] ∧ Course (w.attempt aim rs) mid.answers (.done o) ∧
      rs' = o.left rs ++ mid.received
  -- At any time there is one attempt at most that has no outcome.
  single : ∀ pre post : History Op Ans, h = pre ++ post →
    pre.outcomes.length ≤ pre.attempts.length ∧ pre.attempts.length ≤ pre.outcomes.length + 1
  -- Nothing but an answer moves it, a call of close neither.
  uncut  : ∀ aim rs op go e os s', s.loop = .writing aim rs op go →
    s.step? w e = some (os, s') → (∀ ns x, e ≠ .answer ns x) → s'.loop = s.loop
  drain  : ∀ (pre post : History Op Ans) rs, h = pre ++ .begun .last rs :: post →
    w.settings.drainOnClose = true ∧ post.attempts = []
  ended  : s.loop = .ended →
    (h.attempts = [] ∧ s.stats.discarded = h.received.length) ∨
    ∃ (pre post : History Op Ans) (aim : Aim) (rs : List Record) (o : Outcome),
      LastAttempt h pre aim rs post ∧ post.outcomes = [o] ∧
      Course (w.attempt aim rs) post.answers (.done o) ∧
      s.stats.discarded = (o.left rs ++ post.received).length

theorem loop_of_not_answer {e : Event Ans} {op : Op} {go} (r : Reachable w h s)
    (hl : s.loop = .writing aim rs op go) (hs : s.step? w e = some (os, s'))
    (he : ∀ ns x, e ≠ .answer ns x) : s'.loop = s.loop := by
  have hx := answers_of_step hs he
  cases change_of_step hs with
  | call c   => exact c.loop
  | start hp => simp [(Flow.of_reachable r).fresh hp] at hl
  | turn u   =>
    cases u with
    | answer => simp [answers] at hx
    | _      => simp_all

theorem exists_lastAttempt (hn : h.attempts ≠ []) : ∃ pre aim rs post, LastAttempt h pre aim rs post := by
  induction h with
  | nil => exact absurd rfl hn
  | cons o h hi =>
    by_cases ha : attempts h = []
    case neg =>
      have ⟨pre, aim, rs, post, l⟩ := hi ha
      exact ⟨o :: pre, aim, rs, post, by rw [l.eq, List.cons_append], l.none⟩
    case pos =>
      rw [History.attempts_cons, ha, List.append_nil] at hn
      cases o with
      | begun aim rs => exact ⟨[], aim, rs, h, rfl, ha⟩
      | _            => exact absurd rfl hn

theorem ended_of_tells (p : Path w (.rest []) h a) (l : Tells w s a) (hl : s.loop = .ended) :
    (h.attempts = [] ∧ s.stats.discarded = h.received.length) ∨
    ∃ (pre post : History Op Ans) (aim : Aim) (rs : List Record) (o : Outcome),
      LastAttempt h pre aim rs post ∧ post.outcomes = [o] ∧
      Course (w.attempt aim rs) post.answers (.done o) ∧
      s.stats.discarded = (o.left rs ++ post.received).length := by
  have ⟨held, hd, ha⟩ : ∃ held, s.stats.discarded = held.length ∧ (a = .rest held ∨ a = .spent held) := by
    cases l with
    | discarded _ hd => exact ⟨_, hd, .inl rfl⟩
    | drained _ hd   => exact ⟨_, hd, .inr rfl⟩
    | _              => simp_all
  rw [hd]
  by_cases hn : h.attempts = []
  case pos =>
    have ⟨hr, _⟩ := p.of_rest hn
    rcases ha with rfl | rfl
    · cases hr
      exact .inl ⟨hn, rfl⟩
    · cases hr
  case neg =>
    have ⟨pre, aim, rs, post, l⟩ := exists_lastAttempt hn
    have ⟨_, _, p⟩ := Path.append_iff.mp (l.eq ▸ p)
    have ⟨_, _, _, p⟩ := p.of_begun
    rcases p.of_busy l.none with ⟨hb, _⟩ | ⟨o, ho, c, hb⟩
    case inl => rcases ha with rfl | rfl <;> cases hb
    case inr =>
      refine .inr ⟨pre, post, aim, rs, o, l, ho, c, congrArg _ ?_⟩
      rcases ha with rfl | rfl <;> cases aim <;> cases hb <;> rfl

-- Whatever the outcomes of the attempts, and whatever happens in between, the law of the buffer holds.
theorem attempts_buffered (r : Reachable w h s) : Buffered w h s := by
  have ⟨a, p, l⟩ := Tells.of_reachable r
  refine ⟨p.filled, fun pre post aim rs he hn => ?_, fun pre mid post aim rs aim' rs' he hn => ?_,
    fun pre post he => ?_, fun _ _ _ _ _ _ _ => loop_of_not_answer r, fun pre post rs he => ?_,
    ended_of_tells p l⟩
  case refine_1 =>
    have ⟨b, p, p'⟩ := Path.append_iff.mp (he ▸ p)
    obtain ⟨rfl, _⟩ := p'.of_begun
    have ⟨hb, _⟩ := p.of_rest hn
    simpa using hb
  case refine_2 =>
    have ⟨_, _, p⟩ := Path.append_iff.mp (he ▸ p)
    have ⟨_, _, _, p⟩ := p.of_begun
    have ⟨b, p, p'⟩ := Path.append_iff.mp p
    obtain ⟨rfl, _⟩ := p'.of_begun
    rcases p.of_busy hn with ⟨hb, _⟩ | ⟨o, ho, c, hb⟩
    case inl => cases hb
    case inr =>
      refine ⟨o, ho, c, ?_⟩
      cases aim <;> cases hb
      rfl
  case refine_3 =>
    have ⟨b, p, _⟩ := Path.append_iff.mp (he ▸ p)
    have hc := p.balance
    have hu : b.underway ≤ 1 := by cases b <;> simp [Hand.underway]
    simp only [Hand.underway] at hc hu
    omega
  case refine_4 =>
    have ⟨_, _, p⟩ := Path.append_iff.mp (he ▸ p)
    have ⟨_, _, hd, p⟩ := p.of_begun
    exact ⟨hd rfl, p.of_last⟩

-- An attempt comes too early, one leaves a record, and the one at the end leaves another. Between them a
-- record is saved while the attempt is in progress.
def threeAttempts : List (Event Verdict) :=
  [.start 0, .wake, .save 1 (.uniform 1), .receive, .pass 1000000000, .tick, .save 1 (.uniform 2),
    .answer [] (some (.error (.chunking (.tooSmall 1 2)))), .receive, .pass 1000000000, .tick,
    .save 1 (.uniform 3), .answer [] (some (.error (.sink 0 [.uniform 2] (.sql .timedOut)))), .close 2,
    .stop, .answer [] (some (.ok [.uniform 3]))]

theorem attempts_buffered_of_three :
    ∃ h s, Reachable ⟨{ drainOnClose := true }, scripted⟩ h s ∧
      (h.attempts.map (·.2), s.stats.discarded)
        = ([[.uniform 1], [.uniform 1, .uniform 2], [.uniform 2, .uniform 3]], 1) ∧
      Buffered ⟨{ drainOnClose := true }, scripted⟩ h s := by
  let w : Setup (List Record) Verdict := ⟨{ drainOnClose := true }, scripted⟩
  have hm : (w.start.follow w 1 threeAttempts).map
      (fun x => (x.2.1.attempts.map (·.2), x.2.2.stats.discarded))
      = some ([[.uniform 1], [.uniform 1, .uniform 2], [.uniform 2, .uniform 3]], 1) := by
    decide +kernel
  have ⟨⟨_, h, s⟩, hf, he⟩ := Option.map_eq_some_iff.mp hm
  have r : Reachable w h s := .follow .refl hf
  exact ⟨h, s, r, he, attempts_buffered r⟩

end WriteBehind.Writer
