import WriteBehind.Proofs.Writer.Standing

namespace WriteBehind.Writer

open History (accepted answers endings)

variable {Op Ans : Type} {w : Setup Op Ans} {s s' : State Op Ans} {os : History Op Ans}
variable {aim : Aim} {buffer : List Record} {a : Flush.Attempt Op Ans}

structure Kept (s s' : State Op Ans) : Prop where
  phase    : s'.phase = s.phase
  closing  : s'.closing = s.closing
  isHeld   : s'.isHeld = s.isHeld
  now      : s'.now = s.now
  capacity : s'.intake.capacity = s.intake.capacity
  waiting  : s'.intake.waiting = s.intake.waiting

theorem kept_of_proceeds (p : Proceeds aim buffer a s os s') : Kept s s' := by
  cases p <;> exact ⟨rfl, rfl, rfl, rfl, rfl, rfl⟩

theorem Kept.after {s₀ : State Op Ans} (k' : Kept s₀ s') (k : Kept s s₀) : Kept s s' where
  phase    := k'.phase.trans k.phase
  closing  := k'.closing.trans k.closing
  isHeld   := k'.isHeld.trans k.isHeld
  now      := k'.now.trans k.now
  capacity := k'.capacity.trans k.capacity
  waiting  := k'.waiting.trans k.waiting

theorem kept_of_turn (u : Turn w s os s') : Kept s s' := by
  cases u with
  | wake | fail | receive | idle | discard => exact ⟨rfl, rfl, rfl, rfl, rfl, rfl⟩
  | tick _ _ _ _ p  => exact (kept_of_proceeds p).after ⟨rfl, rfl, rfl, rfl, rfl, rfl⟩
  | drain _ _ _ _ p => exact (kept_of_proceeds p).after ⟨rfl, rfl, rfl, rfl, rfl, rfl⟩
  | answer _ p      => exact kept_of_proceeds p

def Occurrence.IsLoops : Occurrence Op Ans → Prop
  | .opened .. | .saved .. | .abandoned .. | .closed .. | .forgone .. => False
  | _                                                                 => True

theorem isLoops_of_finish (buffer : List Record) (s : State Op Ans) :
    ∀ o ∈ (s.finish buffer).1, o.IsLoops := by
  simp only [State.finish]
  split <;> simp [Occurrence.IsLoops]

theorem isLoops_of_proceeds (p : Proceeds aim buffer a s os s') : ∀ o ∈ os, o.IsLoops := by
  have hl (ns : List Log.Notice) : ∀ o ∈ (ns.map .logged : History Op Ans), o.IsLoops := by
    simp [Occurrence.IsLoops]
  cases p with
  | ask    => exact hl _
  | crash  => exact List.forall_mem_append.mpr ⟨hl _, by simp [Occurrence.IsLoops]⟩
  | settle => exact List.forall_mem_append.mpr ⟨hl _, by simp [Occurrence.IsLoops]⟩
  | finish =>
    refine List.forall_mem_append.mpr ⟨hl _, ?_⟩
    simpa [Occurrence.IsLoops] using isLoops_of_finish _ _

theorem isLoops_of_turn (u : Turn w s os s') : ∀ o ∈ os, o.IsLoops := by
  cases u with
  | wake | fail | receive | idle => simp [Occurrence.IsLoops]
  | tick _ _ _ _ p  => simpa [Occurrence.IsLoops] using isLoops_of_proceeds p
  | answer _ p      => simpa [Occurrence.IsLoops, or_imp, forall_and] using isLoops_of_proceeds p
  | drain _ _ _ _ p => simpa [Occurrence.IsLoops, or_imp, forall_and] using isLoops_of_proceeds p
  | @discard buffer =>
    have hf := isLoops_of_finish (buffer ++ s.intake.queue) s.gathered
    simpa [Occurrence.IsLoops, or_imp, forall_and] using hf

-- What is read off calls is not read off turns.
theorem filterMap_of_turn {β : Type} {f : Occurrence Op Ans → Option β}
    (hf : ∀ o, o.IsLoops → f o = none) (u : Turn w s os s') : os.filterMap f = [] :=
  List.filterMap_eq_nil_iff.mpr fun o ho => hf o (isLoops_of_turn u o ho)

theorem silent_of_turn (u : Turn w s os s') : accepted os = [] ∧ ∀ t, endings t os = [] :=
  ⟨filterMap_of_turn (fun o ho => by cases o <;> simp_all [Occurrence.IsLoops]) u,
    fun _ => filterMap_of_turn (fun o ho => by cases o <;> simp_all [Occurrence.IsLoops]) u⟩

theorem answers_of_turn (u : Turn w s os s') :
    answers os = [] ∨ ∃ aim buffer op go x, s.loop = .writing aim buffer op go ∧
      answers os = [(op, x)] := by
  have of_received {rs : List Record} {os : History Op Ans} (hs : answers os = []) :
      answers (rs.map .received ++ os) = [] := by
    simp [hs]
  cases u with
  | wake | fail | receive | idle => exact .inl rfl
  | tick _ _ _ _ p => exact .inl (quiet_of_proceeds p).answers
  | drain _ _ _ _ p => exact .inl (of_received (quiet_of_proceeds p).answers)
  | discard => exact .inl (of_received (quiet_of_finish _ _).answers)
  | @answer aim buffer op go x os _ ns hl p =>
    refine .inr ⟨aim, buffer, op, go, x, hl, ?_⟩
    rw [History.answers_append, History.answers_logged, History.answers_cons,
      (quiet_of_proceeds p).answers]
    rfl

theorem Event.IsTurn.ne_answer {e : Event Ans} (he : e.IsTurn) : ∀ ns x, e ≠ .answer ns x := by
  rintro ns x rfl
  exact he

theorem Event.IsTurn.ne_release {e : Event Ans} (he : e.IsTurn) : e ≠ .release := by
  rintro rfl
  exact he

theorem step_of_writing {e : Event Ans} {op : Op} {go} (hl : s.loop = .writing aim buffer op go)
    (he : e.IsTurn) : s.step? w e = none := by
  cases e with
  | wake    => simp [State.step?, State.wake, hl]
  | receive => simp [State.step?, State.receive, hl]
  | stop    => simp [State.step?, State.stop, hl]
  | runDry  => simp [State.step?, State.runDry, hl]
  | tick    => simp [State.step?, State.tick, hl]
  | _       => exact he.elim

theorem answers_of_step {e : Event Ans} (hs : s.step? w e = some (os, s'))
    (he : ∀ ns x, e ≠ .answer ns x) : answers os = [] := by
  rcases acts_or_turn hs with a | ⟨u, ht⟩
  case inl => cases a <;> rfl
  case inr =>
    have ht : e.IsTurn := ht.resolve_right fun ⟨ns, x, ha⟩ => he ns x ha
    rcases answers_of_turn u with hx | ⟨aim, buffer, op, go, x, hl, _⟩
    case inl => exact hx
    case inr => simp [step_of_writing hl ht] at hs

theorem answers_of_answer {op : Op} {go} {x : Ans} {ns : List Log.Notice}
    (hs : s.answer ns x = some (os, s')) (hl : s.loop = .writing aim buffer op go) :
    answers os = [(op, x)] := by
  simp only [State.answer, hl] at hs
  cases hs
  rw [History.answers_append, History.answers_logged, History.answers_cons,
    (quiet_of_proceeds (proceeds aim buffer (go x) s)).answers]
  rfl

theorem not_isDone_of_turn (u : Turn w s os s') (hs : ¬s.Stops) (hd : ¬s.loop.IsDone)
    (hb : s'.loop ≠ .broken) : ¬s'.loop.IsDone := by
  have of_proceeds {aim buffer} {a : Flush.Attempt Op Ans} {s₀ os}
      (p : Proceeds aim buffer a s₀ os s') (ha : aim ≠ .last) : ¬s'.loop.IsDone := by
    cases p with
    | ask         => simpa [isDone_writing] using ha
    | crash       => exact absurd rfl hb
    | settle      => simp [Loop.IsDone]
    | finish _ hl => exact absurd hl ha
  cases u with
  | wake | receive | idle => simp [Loop.IsDone]
  | fail                  => exact absurd rfl hb
  | tick _ _ _ _ p        => exact of_proceeds p (by simp)
  | answer hl p           => exact of_proceeds p fun ha => hd (hl ▸ isDone_writing.mpr ha)
  | drain _ hs'           => exact absurd hs' hs
  | discard _ hs'         => exact absurd hs' hs

section Calls

variable {t : Ticket} {r : Record}

theorem isHeld_of_step {e : Event Ans} (hs : s.step? w e = some (os, s')) (he : e ≠ .release) :
    s'.isHeld = s.isHeld := by
  rcases acts_or_turn hs with a | ⟨u, _⟩
  case inr => exact (kept_of_turn u).isHeld
  case inl =>
    cases a with
    | release => exact absurd rfl he
    | _       => rfl

theorem save_of_open (hs : s.save t r = some (os, s')) (hp : s.phase = .running)
    (ho : s.intake.isOpen = true) :
    s'.phase = .running ∧
      (os = [.saved t r (.ok ())] ∧ s'.intake.waiting = s.intake.waiting ∨
        os = [] ∧ s'.intake.waiting = s.intake.waiting ++ [⟨t, r⟩]) := by
  cases acts_of_save hs with
  | refuse _ hf => simp [hp, Phase.refusal?] at hf
  | fail _ _ hn => simp [ho] at hn
  | enter       => exact ⟨hp, .inl ⟨rfl, rfl⟩⟩
  | wait        => exact ⟨hp, .inr ⟨rfl, rfl⟩⟩

theorem waiter_of_head {x : Waiting} {xs : List Waiting} (hw : s.intake.waiting = x :: xs) :
    s.waiter? x.ticket = some (0, x.record) := by
  simp [State.waiter?, Intake.index?, hw, List.findIdx?_cons]

theorem resume_of_open (hs : s.resume t = some (os, s')) (hw : s.intake.waiting = [⟨t, r⟩])
    (ho : s.intake.isOpen = true) :
    s'.phase = s.phase ∧ os = [.saved t r (.ok ())] ∧ s'.intake.waiting = [] := by
  have hr : s.waiter? t = some (0, r) := waiter_of_head hw
  cases acts_of_resume hs with
  | shutOut _ hn => simp [ho] at hn
  | resume hr'   =>
    cases hr'.symm.trans hr
    exact ⟨rfl, rfl, by simp [hw]⟩

theorem close_of_running (hs : s.close t = some (os, s')) (hp : s.phase = .running) :
    os = [] ∧ s' = { s with phase := .closed, closing := some t } := by
  cases acts_of_close hs with
  | close        => exact ⟨rfl, rfl⟩
  | reclose _ hx => simp [hp, Phase.closing?] at hx

theorem loop_of_join (hs : s.join = some (os, s')) :
    (s.loop = .ended ∨ s.loop = .broken) ∧ s'.intake = s.intake := by
  cases acts_of_join hs with
  | join _ hl       => exact ⟨.inl hl, rfl⟩
  | joinBroken _ hl => exact ⟨.inr hl, rfl⟩

theorem queue_of_close (hs : s.close t = some (os, s')) : s'.intake.queue = s.intake.queue := by
  cases acts_of_close hs <;> rfl

end Calls

end WriteBehind.Writer
