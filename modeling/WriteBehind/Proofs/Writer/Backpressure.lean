import WriteBehind.Proofs.Writer.Lifecycle

namespace WriteBehind.Writer

open Flush (Attempt Receipt)
open History (accepted received)

variable {Op Ans : Type} {w : Setup Op Ans} {h os : History Op Ans} {s s' : State Op Ans}
variable {t : Ticket} {r : Record} {i : Nat} {e : Event Ans} {x : Waiting} {xs : List Waiting}
variable {aim : Aim} {buffer : List Record} {a : Attempt Op Ans} {next : Nat}

def Intake.free (q : Intake) : Nat := q.room - q.waiting.length

def Waiting.ends (result : Except Fault Unit) (x : Waiting) : Occurrence Op Ans :=
  .saved x.ticket x.record result

-- A save that waits is given up. A place that belonged to it belongs to the first in line who had none, or
-- else to nobody.
structure GivenUp (w : Setup Op Ans) (h : History Op Ans) (s : State Op Ans) (t : Ticket) (i : Nat)
    (r : Record) (os : History Op Ans) (s' : State Op Ans) : Prop where
  event  : os = [.abandoned t r]
  state  : s' = { s with intake := s.intake.leave i }
  passed : s.intake.Granted i → ∀ x, s.intake.waiting[s.intake.room]? = some x →
    ∃ j, s'.intake.waiting[j]? = some x ∧ s'.intake.Granted j
  freed  : s.intake.waiting.length ≤ s.intake.room → s'.intake.free = s.intake.free + 1
  again  : ∀ os' s'', Run w s' os' s'' → s''.loop ≠ .broken →
    (received (h ++ os ++ os') ++ s''.intake.queue).count r
      = (received h ++ s.intake.queue).count r + ((accepted os').map (·.2)).count r

-- Whether the line goes on: the loop takes a record, or the first in line is let in. Before that the loop
-- may have to be woken.
inductive GoesOn (w : Setup Op Ans) : State Op Ans → Prop
  | receive {s s' : State Op Ans} {r : Record} :
    s.step? w .receive = some ([.received r], s') →
    GoesOn w s
  | enter {s s' : State Op Ans} {x : Waiting} :
    s.intake.waiting.head? = some x →
    s.step? w (.resume x.ticket) = some ([x.ends (.ok ())], s') →
    GoesOn w s
  | wake {s s' : State Op Ans} {os : History Op Ans} :
    s.step? w .wake = some (os, s') →
    s'.intake = s.intake →
    GoesOn w s' →
    GoesOn w s
  | fail {s s' : State Op Ans} {os : History Op Ans} :
    s.step? w .wake = some (os, s') →
    s'.loop = .broken →
    GoesOn w s

structure Backpressure (w : Setup Op Ans) (h : History Op Ans) (s : State Op Ans) : Prop where
  bounded : s.intake.queue.length ≤ w.settings.capacity
  -- A save on a running writer is let in, or it waits because all places are taken by records and by those
  -- who wait.
  enters  : s.isHeld = true → s.phase = .running → ¬s.loop.IsDone → s.intake.HasFree →
    ∀ t r, s.step? w (.save t r) = some ([.saved t r (.ok ())], { s with intake := s.intake.push r })
  waits   : s.isHeld = true → s.phase = .running → ¬s.loop.IsDone → ¬s.intake.HasFree →
    w.settings.capacity ≤ s.intake.queue.length + s.intake.waiting.length ∧
      ∀ t r, s.step? w (.save t r) = some ([], { s with intake := s.intake.wait ⟨t, r⟩ })
  -- It waits as long as all places are taken by records and by those before it.
  stays   : ∀ t i r, s.waiter? t = some (i, r) →
    (s.step? w (.resume t) = none ↔
      ¬s.loop.IsDone ∧ w.settings.capacity ≤ s.intake.queue.length + i)
  fails   : ∀ e os s' t r f, s.step? w e = some (os, s') → .saved t r (.error f) ∈ os →
    e = .save t r ∧ s.phase.refusal? = some f ∨ f = .closed ∧ s.loop.IsDone
  givesUp : ∀ t i r, s.waiter? t = some (i, r) →
    ∃ os s', s.step? w (.giveUp t) = some (os, s') ∧ GivenUp w h s t i r os s'
  -- What saves have brought in is received or queued, but for what a crash has lost.
  carried : ∃ lost, received h ++ s.intake.queue ++ lost = (accepted h).map (·.2) ∧
    (lost ≠ [] → s.loop = .broken)
  goesOn  : s.intake.waiting ≠ [] → ¬s.loop.IsDone → ¬s.loop.Waits → GoesOn w s
  -- All who wait can be let in, in the order of the line.
  served  : ∀ buffer next, s.loop = .listening buffer next →
    ∃ os s', Run w s os s' ∧ s'.intake.waiting = [] ∧
      accepted os = s.intake.waiting.map fun x => (x.ticket, x.record)
  -- Once the loop has stopped to listen nobody joins the line, and nobody leaves it but with this end.
  shut    : s.loop.IsDone → ∀ os s', Run w s os s' →
    s'.intake.waiting.Sublist s.intake.waiting ∧ ∀ t r y, .saved t r y ∈ os → y = .error .closed
  refused : s.loop.IsDone →
    ∃ s', Run w s (s.intake.waiting.map (·.ends (.error .closed))) s' ∧ s'.intake.waiting = []
  dropped : s.isHeld = false → s.intake.waiting = []

theorem queue_of_proceeds (p : Proceeds aim buffer a s os s') : s'.intake.queue <:+ s.intake.queue := by
  cases p with
  | crash => exact List.nil_suffix
  | _     => exact List.suffix_rfl

theorem queue_of_turn (u : Turn w s os s') : s'.intake.queue <:+ s.intake.queue := by
  cases u with
  | wake | idle       => exact List.suffix_rfl
  | fail | discard    => exact List.nil_suffix
  | receive _ hq      => exact hq ▸ List.suffix_cons _ _
  | tick _ _ _ _ p    => exact queue_of_proceeds (s := s.begun) p
  | answer _ p        => exact queue_of_proceeds p
  | drain _ _ _ _ p   => exact (queue_of_proceeds p).trans List.nil_suffix

theorem length_queue_le (r : Reachable w h s) : s.intake.queue.length ≤ w.settings.capacity := by
  apply r.induct
  case start => exact Nat.zero_le _
  case keep =>
    intro h s e os s' r hi hs
    have hk := capacity_of_reachable r
    rcases acts_or_turn hs with a | ⟨u, _⟩
    case inr => exact (queue_of_turn u).length_le.trans hi
    case inl =>
      cases a with
      | enter _ _ _ hf =>
        simp only [Intake.HasFree, Intake.room] at hf
        simp only [Intake.push_queue, List.length_append, List.length_singleton]
        omega
      | resume _ _ hg =>
        simp only [Intake.Granted, Intake.room] at hg
        simp only [Intake.push_queue, Intake.leave_queue, List.length_append, List.length_singleton]
        omega
      | _ => exact hi

theorem held_of_waiting (r : Reachable w h s) (hn : s.intake.waiting ≠ []) :
    s.isHeld = true ∧ s.phase ≠ .fresh := by
  revert hn
  apply r.induct
  case start => exact (absurd rfl ·)
  case keep =>
    intro h s e os s' _ hi hs hn
    rcases acts_or_turn hs with a | ⟨u, _⟩
    case inr =>
      have k := kept_of_turn u
      rw [k.isHeld, k.phase]
      exact hi (k.waiting ▸ hn)
    case inl =>
      cases a with
      | wait hh hp         => exact ⟨hh, by simp [hp]⟩
      | spawn | close      => exact ⟨(hi hn).left, nofun⟩
      | release _ hw       => exact absurd hw hn
      | resume | shutOut | giveUp =>
        exact hi fun hw => hn (by simp [hw])
      | _                  => exact hi hn

theorem received_of_turn (u : Turn w s os s') : received os <+: s.intake.queue := by
  have all {n : Log.Notice} {os : History Op Ans} (hr : received os = []) :
      received (.logged n :: s.intake.queue.map .received ++ os) <+: s.intake.queue := by
    rw [History.received_append, hr, History.received_cons, History.received_received]
    simp [received]
  cases u with
  | wake | fail | idle => exact List.nil_prefix
  | receive _ hq       => exact hq ▸ ⟨_, rfl⟩
  | drain _ _ _ _ p    => exact all (quiet_of_proceeds p).received
  | discard            => exact all (quiet_of_finish _ _).received
  | tick _ _ _ _ p     =>
    have hr := (quiet_of_proceeds p).received
    exact hr.symm ▸ List.nil_prefix
  | answer _ p         =>
    rw [History.received_append, History.received_logged, History.received_cons,
      (quiet_of_proceeds p).received]
    exact List.nil_prefix

theorem carried_or_lost (r : Reachable w h s) :
    ∃ lost, received h ++ s.intake.queue ++ lost = (accepted h).map (·.2) ∧
      (lost ≠ [] → s.loop = .broken) := by
  apply r.induct
  case start => exact ⟨[], rfl, (absurd rfl ·)⟩
  case keep =>
    intro h s e os s' r ⟨lost, hi, hb⟩ hs
    have f' := Flow.of_reachable (r.step hs)
    by_cases hl : s'.loop = .broken
    case neg => exact ⟨[], by rw [List.append_nil, (f'.carried hl).queued], (absurd rfl ·)⟩
    case pos =>
      -- Either the loop breaks now, or it was broken before and nothing comes in any more.
      cases change_of_step hs with
      | start  => cases hl
      | call c =>
        have f := frozen_of_change (w := w) (.of_reachable r) (by rw [← c.loop, hl]; trivial) (.call c)
        refine ⟨lost, ?_, fun _ => hl⟩
        rw [History.received_append, History.accepted_append, c.received, c.queue, f.accepted]
        simpa using hi
      | turn u =>
        obtain ⟨lost, hr⟩ := received_of_turn u
        have hq : s'.intake.queue = [] := f'.queue_eq_nil (by rw [hl]; trivial)
        have hn : s.loop ≠ .broken := fun hl => Loop.IsOver.not_turn (by rw [hl]; trivial) u
        refine ⟨lost, ?_, fun _ => hl⟩
        rw [History.received_append, History.accepted_append, (silent_of_turn u).left, hq,
          List.append_nil, List.append_nil, List.append_assoc, hr,
          ((Flow.of_reachable r).carried hn).queued]

theorem givesUp_of_waiter (rc : Reachable w h s) (hw : s.waiter? t = some (i, r)) :
    ∃ os s', s.step? w (.giveUp t) = some (os, s') ∧ GivenUp w h s t i r os s' := by
  have hs : s.step? w (.giveUp t) = some ([.abandoned t r], { s with intake := s.intake.leave i }) := by
    simp [State.step?, State.giveUp, hw]
  obtain ⟨before, after, hb, he, _⟩ := waiting_of_waiter hw
  refine ⟨_, _, hs, rfl, rfl, fun hg x hx => ?_, fun hl => ?_, fun os' s'' l hn => ?_⟩
  case refine_1 =>
    have hg : i < s.intake.room := hg
    refine ⟨s.intake.room - 1, ?_, ?_⟩
    · rw [Intake.leave_waiting, List.getElem?_eraseIdx, if_neg (by omega), Nat.sub_add_cancel (by omega)]
      exact hx
    · change s.intake.room - 1 < s.intake.room
      omega
  case refine_2 =>
    have hlen := congrArg List.length hb
    have hlen' := congrArg List.length he
    have hroom : (s.intake.leave i).room = s.intake.room := rfl
    simp only [List.length_append, List.length_cons] at hlen hlen'
    simp only [Intake.free, hroom, Intake.leave_waiting]
    omega
  case refine_3 =>
    have hb : s.loop ≠ .broken := by
      intro hb
      have f := frozen_of_run rc (by rw [hb]; trivial) ((Run.single hs).trans l)
      exact hn (f.loop.trans hb)
    have c := ((Flow.of_reachable rc).carried hb).queued
    have c' := ((Flow.of_reachable ((rc.trans (.single hs)).trans l)).carried hn).queued
    rw [c', c, History.accepted_append, History.accepted_append]
    simp [accepted]

theorem stays_of_waiter (rc : Reachable w h s) (hw : s.waiter? t = some (i, r)) :
    s.step? w (.resume t) = none ↔
      ¬s.loop.IsDone ∧ w.settings.capacity ≤ s.intake.queue.length + i := by
  have hg : ¬s.intake.Granted i ↔ w.settings.capacity ≤ s.intake.queue.length + i := by
    rw [← capacity_of_reachable rc, Intake.Granted, Intake.room]
    omega
  rw [(Flow.of_reachable rc).shut, ← hg]
  by_cases ho : s.intake.isOpen = true <;> by_cases hi : s.intake.Granted i <;>
    simp [State.step?, State.resume, hw, ho, hi]

theorem fails_of_step {f : Fault} (rc : Reachable w h s) (hs : s.step? w e = some (os, s'))
    (hm : .saved t r (.error f) ∈ os) :
    e = .save t r ∧ s.phase.refusal? = some f ∨ f = .closed ∧ s.loop.IsDone := by
  have fl := Flow.of_reachable rc
  rcases acts_or_turn hs with a | ⟨u, _⟩
  case inr => exact (isLoops_of_turn u _ hm).elim
  case inl =>
    cases a with
    | refuse _ hf  => cases List.mem_singleton.mp hm; exact .inl ⟨rfl, hf⟩
    | fail _ _ ho  => cases List.mem_singleton.mp hm; exact .inr ⟨rfl, fl.shut.mpr ho⟩
    | shutOut _ ho => cases List.mem_singleton.mp hm; exact .inr ⟨rfl, fl.shut.mpr ho⟩
    | _            => simp at hm

theorem enter_of_head (hw : s.intake.waiting = x :: xs) (ho : s.intake.isOpen = true)
    (hq : s.intake.queue = []) (hk : 0 < s.intake.capacity) :
    s.step? w (.resume x.ticket) =
      some ([x.ends (.ok ())], { s with intake := (s.intake.leave 0).push x.record }) := by
  have hg : s.intake.Granted 0 := by simpa [Intake.Granted, Intake.room, hq] using hk
  simp [State.step?, State.resume, waiter_of_head hw, ho, hg, Waiting.ends]

theorem receive_of_listening {queue : List Record} (hl : s.loop = .listening buffer next)
    (hq : s.intake.queue = r :: queue) :
    s.step? w .receive = some ([.received r],
      { s with intake := { s.intake with queue }
               loop := .listening (buffer ++ [r]) next
               stats := { s.stats with received := s.stats.received + 1 } }) := by
  simp [State.step?, State.receive, hl, hq]

theorem goesOn_of_listening (hw : s.intake.waiting = x :: xs) (ho : s.intake.isOpen = true)
    (hk : 0 < s.intake.capacity) (hl : s.loop = .listening buffer next) : GoesOn w s := by
  cases hq : s.intake.queue with
  | nil         => exact .enter (by rw [hw]; rfl) (enter_of_head hw ho hq hk)
  | cons _ queue => exact .receive (receive_of_listening hl hq)

theorem goesOn_of_starting (hw : s.intake.waiting = x :: xs) (ho : s.intake.isOpen = true)
    (hk : 0 < s.intake.capacity) (hl : s.loop = .starting) : GoesOn w s := by
  by_cases hr : Representable (s.now + w.settings.interval)
  case pos =>
    have ⟨_, hs⟩ := wake_of_representable hl hr
    exact .wake hs rfl (goesOn_of_listening hw ho hk rfl)
  case neg => exact .fail (wake_of_not_representable hl hr) rfl

theorem goesOn_of_waiting (rc : Reachable w h s) (hk : 0 < w.settings.capacity)
    (hn : s.intake.waiting ≠ []) (hd : ¬s.loop.IsDone) (hb : ¬s.loop.Waits) : GoesOn w s := by
  obtain ⟨x, xs, hw⟩ := List.exists_cons_of_ne_nil hn
  have ho : s.intake.isOpen = true := (Flow.of_reachable rc).isOpen hd
  have hk : 0 < s.intake.capacity := (capacity_of_reachable rc).symm ▸ hk
  cases hl : s.loop with
  | absent    => exact absurd ((absent_iff_fresh rc).mp hl) (held_of_waiting rc hn).right
  | starting  => exact goesOn_of_starting hw ho hk hl
  | listening => exact goesOn_of_listening hw ho hk hl
  | writing   => exact absurd (by rw [hl]; trivial) hb
  | ended     => exact absurd (by rw [hl]; trivial) hd
  | broken    => exact absurd (by rw [hl]; trivial) hd

theorem exists_emptied (hl : s.loop = .listening buffer next) :
    ∃ os s' buffer', Run w s os s' ∧ accepted os = [] ∧ s'.loop = .listening buffer' next ∧
      s'.intake = { s.intake with queue := [] } := by
  generalize hq : s.intake.queue = rs
  induction rs generalizing s buffer with
  | nil => exact ⟨[], s, buffer, .refl, rfl, hl, by rw [← hq]⟩
  | cons r queue hi =>
    have hs := receive_of_listening (w := w) hl hq
    obtain ⟨os, s', buffer', l, ha, hl', hi'⟩ := hi (s := { s with
      intake := { s.intake with queue }
      loop := .listening (buffer ++ [r]) next
      stats := { s.stats with received := s.stats.received + 1 } }) rfl rfl
    exact ⟨_, s', buffer', (Run.single hs).trans l, by rw [History.accepted_append, ha]; rfl, hl', hi'⟩

theorem exists_served (ho : s.intake.isOpen = true) (hk : 0 < s.intake.capacity)
    (hl : s.loop = .listening buffer next) :
    ∃ os s', Run w s os s' ∧ s'.intake.waiting = [] ∧
      accepted os = s.intake.waiting.map fun x => (x.ticket, x.record) := by
  generalize hw : s.intake.waiting = xs
  induction xs generalizing s buffer with
  | nil => exact ⟨[], s, .refl, hw, rfl⟩
  | cons x xs hi =>
    obtain ⟨os₁, s₁, buffer₁, l₁, ha₁, hl₁, hi₁⟩ := exists_emptied (w := w) hl
    have hw₁ : s₁.intake.waiting = x :: xs := by rw [hi₁, ← hw]
    have hs := enter_of_head (w := w) hw₁ (by rw [hi₁]; exact ho) (by rw [hi₁]) (by rw [hi₁]; exact hk)
    obtain ⟨os₂, s₂, l₂, hw₂, ha₂⟩ := hi (s := { s₁ with intake := (s₁.intake.leave 0).push x.record })
      (by rw [hi₁]; exact ho) (by rw [hi₁]; exact hk) hl₁ (by simp [hw₁])
    refine ⟨_, s₂, (l₁.trans (.single hs)).trans l₂, hw₂, ?_⟩
    rw [History.accepted_append, History.accepted_append, ha₁, ha₂]
    rfl

theorem shut_of_proceeds (p : Proceeds aim buffer a s os s') (ho : s.intake.isOpen = false) :
    s'.intake.isOpen = false := by
  cases p with
  | crash => rfl
  | _     => exact ho

theorem shut_of_step (hs : s.step? w e = some (os, s')) (ho : s.intake.isOpen = false) :
    s'.intake.isOpen = false := by
  rcases acts_or_turn hs with a | ⟨u, _⟩
  case inl => cases a <;> exact ho
  case inr =>
    cases u with
    | fail | discard  => rfl
    | tick _ _ _ _ p  => exact shut_of_proceeds (s := s.begun) p ho
    | answer _ p      => exact shut_of_proceeds p ho
    | drain _ _ _ _ p => exact shut_of_proceeds p rfl
    | _               => exact ho

theorem shut_of_run (l : Run w s os s') (ho : s.intake.isOpen = false) : s'.intake.isOpen = false := by
  induction l with
  | refl         => exact ho
  | step _ hs hi => exact shut_of_step hs hi

theorem closed_of_step {y : Except Fault Unit} (rc : Reachable w h s)
    (hs : s.step? w e = some (os, s')) (ho : s.intake.isOpen = false) :
    s'.intake.waiting.Sublist s.intake.waiting ∧ (.saved t r y ∈ os → y = .error .closed) := by
  have hf : s.phase ≠ .fresh := by
    intro hp
    have fl := Flow.of_reachable rc
    simpa [fl.fresh hp, Loop.IsDone] using fl.shut.mpr ho
  rcases acts_or_turn hs with a | ⟨u, _⟩
  case inr =>
    exact ⟨(kept_of_turn u).waiting ▸ .refl _, fun hm => (isLoops_of_turn u _ hm).elim⟩
  case inl =>
    cases a with
    | enter _ _ hn | wait _ _ hn | resume _ hn => simp [ho] at hn
    | shutOut    => exact ⟨List.eraseIdx_sublist _ _, fun hm => by cases List.mem_singleton.mp hm; rfl⟩
    | giveUp     => exact ⟨List.eraseIdx_sublist _ _, fun hm => by simp at hm⟩
    | fail       => exact ⟨.refl _, fun hm => by cases List.mem_singleton.mp hm; rfl⟩
    | refuse _ hr =>
      refine ⟨.refl _, fun hm => ?_⟩
      cases List.mem_singleton.mp hm
      cases hp : s.phase with
      | fresh             => exact absurd hp hf
      | running | closed  => simp_all [Phase.refusal?]
    | _          => exact ⟨.refl _, fun hm => by simp at hm⟩

theorem closed_of_run (rc : Reachable w h s) (ho : s.intake.isOpen = false) (l : Run w s os s') :
    s'.intake.waiting.Sublist s.intake.waiting ∧ ∀ t r y, .saved t r y ∈ os → y = .error .closed := by
  induction l with
  | refl => exact ⟨.refl _, fun _ _ _ hm => by simp at hm⟩
  | step l hs hi =>
    have hc {t r y} := closed_of_step (t := t) (r := r) (y := y) (rc.trans l) hs (shut_of_run l ho)
    refine ⟨(hc (t := 0) (r := default) (y := .ok ())).left.trans hi.left, fun t r y hm => ?_⟩
    rcases List.mem_append.mp hm with hm | hm
    case inl => exact hi.right t r y hm
    case inr => exact hc.right hm

theorem exists_refused_all (ho : s.intake.isOpen = false) :
    ∃ s', Run w s (s.intake.waiting.map (·.ends (.error .closed))) s' ∧ s'.intake.waiting = [] := by
  generalize hw : s.intake.waiting = xs
  induction xs generalizing s with
  | nil => exact ⟨s, .refl, hw⟩
  | cons x xs hi =>
    have hs : s.step? w (.resume x.ticket)
        = some ([x.ends (.error .closed)], { s with intake := s.intake.leave 0 }) := by
      simp [State.step?, State.resume, waiter_of_head hw, ho, Waiting.ends]
    obtain ⟨s', l, hw'⟩ := hi (s := { s with intake := s.intake.leave 0 }) ho (by simp [hw])
    exact ⟨s', (Run.single hs).trans l, hw'⟩

theorem capacity_of_check {settings : Settings} (hc : settings.check = .ok ()) :
    0 < settings.capacity := by
  simp only [Settings.check] at hc
  split at hc
  · cases hc
  · omega

-- Whoever saves, waits and gives up in whatever order, the queue keeps its bound and the line goes on.
theorem backpressure_of_reachable (hc : w.settings.check = .ok ()) (rc : Reachable w h s) :
    Backpressure w h s where
  bounded                  := length_queue_le rc
  enters hh hp hd hf t r   := by
    have ho := (Flow.of_reachable rc).isOpen hd
    simp [State.step?, State.save, hh, hp, ho, hf]
  waits hh hp hd hf        := by
    have ho := (Flow.of_reachable rc).isOpen hd
    refine ⟨?_, fun t r => by simp [State.step?, State.save, hh, hp, ho, hf]⟩
    rw [← capacity_of_reachable rc]
    rw [Intake.HasFree, Intake.room] at hf
    omega
  stays _ _ _              := stays_of_waiter rc
  fails _ _ _ _ _ _        := fails_of_step rc
  givesUp _ _ _            := givesUp_of_waiter rc
  carried                  := carried_or_lost rc
  goesOn                   := goesOn_of_waiting rc (capacity_of_check hc)
  served buffer next hl    := by
    have ho := (Flow.of_reachable rc).isOpen (by simp [hl, Loop.IsDone])
    exact exists_served ho ((capacity_of_reachable rc).symm ▸ capacity_of_check hc) hl
  shut hd _ _              := closed_of_run rc ((Flow.of_reachable rc).shut.mp hd)
  refused hd               := exists_refused_all ((Flow.of_reachable rc).shut.mp hd)
  dropped hh               := by
    by_contra hn
    exact Bool.false_ne_true (hh.symm.trans (held_of_waiting rc hn).left)

-- One place and three producers: a save is given up while two wait, and is made again behind the other.
def jostling : List (Event Receipt) :=
  [.start 0, .wake, .save 1 (.uniform 1), .save 2 (.uniform 2), .save 3 (.uniform 3), .giveUp 2,
    .save 2 (.uniform 2), .receive]

theorem backpressure_of_jostling :
    ∃ h s, Reachable (inChunks { capacity := 1 } 1) h s ∧
      (s.loop.buffer, s.intake.queue, s.intake.waiting.map (·.record))
        = ([.uniform 1], [], [.uniform 3, .uniform 2]) ∧
      Backpressure (inChunks { capacity := 1 } 1) h s := by
  let w := inChunks { capacity := 1 } 1
  have hm : (w.start.follow w 1 jostling).map
      (fun x => (x.2.2.loop.buffer, x.2.2.intake.queue, x.2.2.intake.waiting.map (·.record)))
      = some ([.uniform 1], [], [.uniform 3, .uniform 2]) := by
    decide +kernel
  have ⟨⟨_, h, s⟩, hf, he⟩ := Option.map_eq_some_iff.mp hm
  have rc : Reachable w h s := .follow .refl hf
  exact ⟨h, s, rc, he, backpressure_of_reachable rfl rc⟩

end WriteBehind.Writer
