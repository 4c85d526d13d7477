import WriteBehind.Proofs.Writer.Backpressure
import WriteBehind.Proofs.Writer.Lifecycle

namespace WriteBehind.Writer

open Flush (Receipt)
open Flush.Attempt (Course)
open History (accepted attempts)

variable {Op Ans : Type} {w : Setup Op Ans} {h os : History Op Ans} {s s' : State Op Ans}
variable {t : Ticket} {r : Record} {e : Event Ans}

def Crashed (w : Setup Op Ans) (h : History Op Ans) : Prop :=
  ∃ pre aim rs post, Underway w h pre aim rs post ∧ Course (w.attempt aim rs) post.answers .crash

structure Works (w : Setup Op Ans) (h : History Op Ans) (s : State Op Ans) : Prop where
  made    : w.make = .ok w.start
  opens   : s.isHeld = true → s.phase = .fresh → ∀ t, s.step? w (.start t) =
    some ([.logged .opened, .opened t (.ok ())], { s with phase := .running, loop := .starting })
  -- The loop comes to listen, or it breaks, and it does neither before it runs.
  wakes   : s.loop = .starting → Representable (s.now + w.settings.interval) →
    ∃ os, s.step? w .wake = some (os, { s with loop := .listening [] (s.now + w.settings.interval) })
  breaks  : s.loop = .starting → ¬Representable (s.now + w.settings.interval) →
    s.step? w .wake = some ([.loopBroke], { s with intake := s.intake.shut, loop := .broken })
  waits   : s.loop = .starting → ∀ e os s', s.step? w e = some (os, s') → s'.loop ≠ .starting →
    s.step? w .wake = some (os, s')
  -- A save is let in at once or waits, and those who wait can be let in, unless the loop has broken.
  saves   : s.isHeld = true → s.phase = .running → s.loop ≠ .broken → ∀ t r, s.step? w (.save t r) =
    some (if s.intake.HasFree then ([.saved t r (.ok ())], { s with intake := s.intake.push r })
      else ([], { s with intake := s.intake.wait ⟨t, r⟩ }))
  served  : ∀ buffer next, s.loop = .listening buffer next →
    ∃ os s', Run w s os s' ∧ s'.intake.waiting = [] ∧
      accepted os = s.intake.waiting.map fun x => (x.ticket, x.record)
  refused : s.isHeld = true → s.phase = .running → s.loop = .broken → ∀ t r,
    s.step? w (.save t r) = some ([.saved t r (.error .closed)], s)
  -- The loop ends as the writer is closed or dropped, and breaks by an attempt or for want of time.
  ended   : s.loop = .ended → s.phase = .closed ∨ s.isHeld = false
  broken  : s.loop = .broken → Crashed w h ∨ ¬Representable (s.now + w.settings.interval)

theorem stops_of_isDone (rc : Reachable w h s) (hd : s.loop.IsDone) (hb : s.loop ≠ .broken) :
    s.phase = .closed ∨ s.isHeld = false := by
  revert hd hb
  apply rc.induct
  case start => exact fun hd => hd.elim
  case keep =>
    intro h s e os s' _ hi hs hd hb
    rcases acts_or_turn hs with a | ⟨u, _⟩
    case inl =>
      cases a with
      | spawn   => exact hd.elim
      | close   => exact .inl rfl
      | release => exact .inr rfl
      | _       => exact hi hd hb
    case inr =>
      have k := kept_of_turn u
      rw [k.phase, k.isHeld]
      by_cases hd' : s.loop.IsDone
      case pos => exact hi hd' fun hl => absurd u (Loop.IsOver.not_turn (hl ▸ trivial))
      case neg =>
        have hs : s.Stops := by_contra fun hn => not_isDone_of_turn u hn hd' hb hd
        exact hs.imp_right And.right

theorem isOpen_of_running (rc : Reachable w h s) (hh : s.isHeld = true) (hp : s.phase = .running)
    (hb : s.loop ≠ .broken) : s.intake.isOpen = true := by
  refine (Flow.of_reachable rc).isOpen fun hd => ?_
  rcases stops_of_isDone rc hd hb with hn | hn
  · cases hp.symm.trans hn
  · cases hh.symm.trans hn

theorem save_of_running (rc : Reachable w h s) (hh : s.isHeld = true) (hp : s.phase = .running)
    (hb : s.loop ≠ .broken) : s.step? w (.save t r) =
      some (if s.intake.HasFree then ([.saved t r (.ok ())], { s with intake := s.intake.push r })
        else ([], { s with intake := s.intake.wait ⟨t, r⟩ })) := by
  have ho := isOpen_of_running rc hh hp hb
  by_cases hf : s.intake.HasFree <;> simp [State.step?, State.save, hh, hp, ho, hf]

theorem save_of_shut (hh : s.isHeld = true) (hp : s.phase = .running) (ho : s.intake.isOpen = false) :
    s.step? w (.save t r) = some ([.saved t r (.error .closed)], s) := by
  simp [State.step?, State.save, hh, hp, ho]

theorem wake_of_starting (hl : s.loop = .starting) (hs : s.step? w e = some (os, s'))
    (hn : s'.loop ≠ .starting) : s.step? w .wake = some (os, s') := by
  rcases acts_or_turn hs with a | ⟨u, _⟩
  case inl => cases a <;> exact absurd (by simp [hl]) hn
  case inr =>
    cases u with
    | wake _ hr => simp [State.step?, State.wake, hl, hr]
    | fail _ hr => simp [State.step?, State.wake, State.crash, hl, hr]
    | receive hl' | idle hl' | tick hl' | answer hl' | drain hl' | discard hl' =>
      cases hl.symm.trans hl'

theorem crashed_or_unrepresentable (rc : Reachable w h s) (hb : s.loop = .broken) :
    Crashed w h ∨ ¬Representable (s.now + w.settings.interval) := by
  cases Stands.of_reachable rc with
  | failed _ ha    => exact .inr (unrepresentable_of_unattempted rc hb ha)
  | crashed _ u c  => exact .inl ⟨_, _, _, _, u, c⟩
  | _              => simp_all

-- With settings that pass the check the writer works, unless the interval is too long for the clock.
theorem works_of_check (hc : w.settings.check = .ok ()) (rc : Reachable w h s) : Works w h s where
  made                := by rw [Setup.make, hc]; rfl
  opens hh hp _       := by simp [State.step?, State.start, hh, hp]
  wakes hl hr         := wake_of_representable hl hr
  breaks hl hr        := wake_of_not_representable hl hr
  waits hl _ _ _      := wake_of_starting hl
  saves hh hp hb _ _  := save_of_running rc hh hp hb
  served _ _ hl       := by
    have ho := (Flow.of_reachable rc).isOpen (by simp [hl, Loop.IsDone])
    exact exists_served ho ((capacity_of_reachable rc).symm ▸ capacity_of_check hc) hl
  refused hh hp hb _ _ :=
    save_of_shut hh hp ((Flow.of_reachable rc).shut.mp (by simp [hb, Loop.IsDone]))
  ended hl            := stops_of_isDone rc (by simp [hl, Loop.IsDone]) (by simp [hl])
  broken              := crashed_or_unrepresentable rc

-- One place in the queue, and two saves that come before the loop has run.
def hasty : List (Event Receipt) :=
  [.start 0, .save 1 (.uniform 1), .save 2 (.uniform 2), .wake, .receive, .resume 2]

theorem works_of_check_of_hasty :
    ∃ h s, Reachable (inChunks { capacity := 1 } 1) h s ∧
      h.accepted = [(1, .uniform 1), (2, .uniform 2)] ∧
      Works (inChunks { capacity := 1 } 1) h s := by
  let w := inChunks { capacity := 1 } 1
  have hm : (w.start.follow w 1 hasty).map (fun x => x.2.1.accepted)
      = some [(1, .uniform 1), (2, .uniform 2)] := by
    decide +kernel
  have ⟨⟨_, h, s⟩, hf, he⟩ := Option.map_eq_some_iff.mp hm
  have rc : Reachable w h s := .follow .refl hf
  exact ⟨h, s, rc, he, works_of_check rfl rc⟩

-- The longest interval that the settings can hold: 2 ^ 64 seconds but for a nanosecond.
def longest : Settings := { interval := 18446744073709551615999999999 }

-- The settings pass the check, and the loop breaks as it starts. A running writer then refuses all saves.
theorem not_works_of_longest :
    longest.check = .ok () ∧ ∃ h s, Reachable (inChunks longest 1) h s ∧
      (s.isHeld, s.phase, h.attempts.length) = (true, .running, 0) ∧
      ∀ t r, s.step? (inChunks longest 1) (.save t r) = some ([.saved t r (.error .closed)], s) := by
  let w := inChunks longest 1
  have hm : (w.start.follow w 1 [.start 0, .wake]).map
      (fun x => (x.2.2.intake.isOpen, x.2.2.isHeld, x.2.2.phase, x.2.1.attempts.length))
      = some (false, true, .running, 0) := by
    decide +kernel
  have ⟨⟨_, h, s⟩, hf, he⟩ := Option.map_eq_some_iff.mp hm
  have ⟨ho, he⟩ := Prod.mk.inj he
  have ⟨hh, hp⟩ := Prod.mk.inj he
  exact ⟨rfl, h, s, .follow .refl hf, he, fun _ _ => save_of_shut hh (Prod.mk.inj hp).left ho⟩

end WriteBehind.Writer
