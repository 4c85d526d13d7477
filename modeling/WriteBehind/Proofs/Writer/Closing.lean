import WriteBehind.Proofs.Writer.Conservation

namespace WriteBehind.Writer

open Flush (Receipt)
open History (accepted attempts answers)

variable {Op Ans : Type} {w : Setup Op Ans} {h os os' : History Op Ans} {s s' s'' : State Op Ans}
variable {t : Ticket} {r : Record} {i : Nat}

namespace History

def closings (h : History Op Ans) : List Ticket :=
  h.filterMap fun
    | .closed t (.ok _) => some t
    | _                 => none

def forgoings (h : History Op Ans) : List Ticket :=
  h.filterMap fun
    | .forgone t => some t
    | _          => none

end History

open History (closings forgoings)

structure Frozen (s : State Op Ans) (os : History Op Ans) (s' : State Op Ans) : Prop where
  loop     : s'.loop = s.loop
  stats    : s'.stats = s.stats
  attempts : attempts os = []
  answers  : answers os = []
  accepted : accepted os = []

structure Stopped (w : Setup Op Ans) (s : State Op Ans) : Prop where
  isOver  : s.loop.IsOver
  frozen  : ∀ os s', Run w s os s' → Frozen s os s'
  refused : ∀ t i r, s.waiter? t = some (i, r) →
    ∃ s', s.step? w (.resume t) = some ([.saved t r (.error .closed)], s')

theorem Frozen.refl : Frozen s [] s := ⟨rfl, rfl, rfl, rfl, rfl⟩

theorem Frozen.trans (f : Frozen s os s') (f' : Frozen s' os' s'') : Frozen s (os ++ os') s'' where
  loop     := f'.loop.trans f.loop
  stats    := f'.stats.trans f.stats
  attempts := by simp [f.attempts, f'.attempts]
  answers  := by simp [f.answers, f'.answers]
  accepted := by simp [f.accepted, f'.accepted]

theorem frozen_of_change (f : Flow h s) (ho : s.loop.IsOver) (c : Change w s os s') :
    Frozen s os s' := by
  cases c with
  | start hp =>
    rw [f.fresh hp] at ho
    exact ho.elim
  | turn u => exact absurd u ho.not_turn
  | call c =>
    have hn : s.intake.isOpen = false := f.shut.mp ho.isDone
    have ha : accepted os = [] := by
      by_contra he
      simp [c.entered he] at hn
    exact ⟨c.loop, c.stats, c.attempts, c.answers, ha⟩

theorem frozen_of_run (r : Reachable w h s) (ho : s.loop.IsOver) (l : Run w s os s') :
    Frozen s os s' := by
  induction l with
  | refl => exact .refl
  | step l hs hi =>
    have f' := frozen_of_change (.of_reachable (r.trans l)) (hi.loop ▸ ho) (change_of_step hs)
    exact hi.trans f'

theorem stopped_of_over (r : Reachable w h s) (ho : s.loop.IsOver) : Stopped w s where
  isOver := ho
  frozen := fun _ _ => frozen_of_run r ho
  refused t i r' hw := by
    have hn : s.intake.isOpen = false := (Flow.of_reachable r).shut.mp ho.isDone
    refine ⟨{ s with intake := s.intake.leave i }, ?_⟩
    simp [State.step?, State.resume, hw, hn]

@[simp] theorem History.closings_append : closings (h ++ os) = closings h ++ closings os :=
  List.filterMap_append

@[simp] theorem History.forgoings_append : forgoings (h ++ os) = forgoings h ++ forgoings os :=
  List.filterMap_append

theorem closings_of_turn (u : Turn w s os s') : closings os = [] ∧ forgoings os = [] :=
  ⟨filterMap_of_turn (fun o ho => by cases o <;> simp_all [Occurrence.IsLoops]) u,
    filterMap_of_turn (fun o ho => by cases o <;> simp_all [Occurrence.IsLoops]) u⟩

-- Before the writer is closed no call of close waits, and none has. From then on the loop is over unless
-- one waits, who has the writer, or was given up.
structure Ending (h : History Op Ans) (s : State Op Ans) : Prop where
  before : s.phase ≠ .closed → s.closing = none ∧ h.closings = [] ∧ h.forgoings = []
  after  : s.phase = .closed → s.closing = none → h.forgoings = [] → s.loop.IsOver
  held   : s.closing ≠ none → s.isHeld = true

namespace Ending

theorem start : Ending [] w.start := ⟨fun _ => ⟨rfl, rfl, rfl⟩, nofun, nofun⟩

theorem still (e : Ending h s) (ho : closings os = [] ∧ forgoings os = [])
    (hp : s'.phase = .closed ↔ s.phase = .closed) (hc : s'.closing = s.closing)
    (hh : s'.isHeld = s.isHeld) (hl : s.phase = .closed → s.loop.IsOver → s'.loop.IsOver) :
    Ending (h ++ os) s' where
  before hn := by
    have ⟨hc', hh', hf'⟩ := e.before (mt hp.mpr hn)
    simp [hc, hc', hh', hf', ho]
  after hp' hc' hf := by
    simp only [History.forgoings_append, ho.right, List.append_nil] at hf
    exact hl (hp.mp hp') (e.after (hp.mp hp') (hc ▸ hc') hf)
  held hn := hh.trans (e.held (hc ▸ hn))

theorem reclose {x : Except Fault Unit} (d : Ending h s) (hx : s.phase.closing? = some x) :
    Ending (h ++ [.closed t x]) s := by
  cases hp : s.phase with
  | running => simp [hp, Phase.closing?] at hx
  | fresh   =>
    rw [hp] at hx
    cases hx
    exact d.still ⟨rfl, rfl⟩ .rfl rfl rfl fun _ => id
  | closed  =>
    refine ⟨(absurd hp ·), fun hp hc hf => d.after hp hc ?_, d.held⟩
    simpa using (List.append_eq_nil_iff.mp (History.forgoings_append ▸ hf)).left

theorem closed_of_waiting (d : Ending h s) (hc : s.closing = some t) : s.phase = .closed := by
  by_contra hn
  cases hc.symm.trans (d.before hn).left

theorem join (d : Ending h s) (hc : s.closing = some t) (ho : s.loop.IsOver) :
    Ending (h ++ os) { s with closing := none } :=
  ⟨(absurd (d.closed_of_waiting hc) ·), fun _ _ _ => ho, nofun⟩

theorem forgo (d : Ending h s) (hc : s.closing = some t) :
    Ending (h ++ [.forgone t]) { s with closing := none } :=
  ⟨(absurd (d.closed_of_waiting hc) ·), fun _ _ hf => by simp [forgoings] at hf, nofun⟩

theorem step {e : Event Ans} (d : Ending h s) (hs : s.step? w e = some (os, s')) :
    Ending (h ++ os) s' := by
  rcases acts_or_turn hs with a | ⟨u, _⟩
  case inr =>
    have k := kept_of_turn u
    exact d.still (closings_of_turn u) (by rw [k.phase]) k.closing k.isHeld
      fun _ ho => absurd u ho.not_turn
  case inl =>
    cases a with
    | close hh          => exact ⟨(absurd rfl ·), fun _ hn => absurd hn (Option.some_ne_none _), fun _ => hh⟩
    | reclose _ hx      => exact d.reclose hx
    | join hc hl        => exact d.join hc (hl ▸ trivial)
    | joinBroken hc hl  => exact d.join hc (hl ▸ trivial)
    | forgo hc          => exact d.forgo hc
    | release _ _ hc    =>
      rw [List.append_nil]
      exact ⟨d.before, d.after, (absurd hc ·)⟩
    | spawn _ hp        => exact d.still ⟨rfl, rfl⟩ (by simp [hp]) rfl rfl fun hc => by simp [hp] at hc
    | _                 => exact d.still ⟨rfl, rfl⟩ .rfl rfl rfl fun _ => id

theorem of_reachable (r : Reachable w h s) : Ending h s :=
  r.induct start fun _ _ _ _ _ _ d hs => d.step hs

end Ending

structure Closes (w : Setup Op Ans) (h : History Op Ans) (s : State Op Ans) : Prop where
  -- The call that finds the writer running waits, until the loop is over or the call is given up.
  waits   : ∀ t os s', s.phase = .running → s.step? w (.close t) = some (os, s') →
    os = [] ∧ s' = { s with phase := .closed, closing := some t }
  returns : ∀ t, s.closing = some t → s.loop.IsOver → ∃ os s', s.step? w .join = some (os, s')
  forgoes : ∀ t, s.closing = some t →
    s.step? w .forgo = some ([.forgone t], { s with closing := none })
  -- When it returns, the loop is over, then and ever after.
  joined  : ∀ t os s', s.closing = some t → s.step? w .join = some (os, s') →
    closings os = [t] ∧ ∀ os' s'', Run w s' os' s'' → Stopped w s''
  -- Once a call has succeeded, the loop is over unless that call waits or was given up.
  stopped : h.closings ≠ [] → s.closing = none → h.forgoings = [] → Stopped w s
  -- The calls that find the writer closed return at once and change nothing.
  again   : ∀ t, s.phase = .closed → s.isHeld = true →
    s.step? w (.close t) = some ([.closed t (.ok ())], s)
  overlap : ∀ t u, s.closing = some u → s.step? w (.close t) = some ([.closed t (.ok ())], s)

theorem closings_of_join (hs : s.join = some (os, s')) (hc : s.closing = some t) : closings os = [t] := by
  cases acts_of_join hs with
  | join hc' | joinBroken hc' =>
    cases hc.symm.trans hc'
    rfl

theorem join_of_isOver (hc : s.closing = some t) (ho : s.loop.IsOver) :
    ∃ os s', s.step? w .join = some (os, s') := by
  cases hl : s.loop with
  | ended | broken => simp [State.step?, State.join, hc, hl]
  | _              => simp [hl, Loop.IsOver] at ho

-- Whoever calls, and whatever the storage does: when the call of close that found the writer running
-- returns, the loop is over for good. No other call of close waits for it.
theorem stopped_of_closed (r : Reachable w h s) : Closes w h s := by
  have d := Ending.of_reachable r
  have again (t : Ticket) (hp : s.phase = .closed) (hh : s.isHeld = true) :
      s.step? w (.close t) = some ([.closed t (.ok ())], s) := by
    simp [State.step?, State.close, hh, hp]
  constructor
  case waits   => exact fun t os s' hp hs => close_of_running hs hp
  case returns => exact fun t hc ho => join_of_isOver hc ho
  case forgoes => exact fun t hc => by simp [State.step?, State.forgo, hc]
  case joined  =>
    intro t os s' hc hs
    refine ⟨closings_of_join hs hc, fun os' s'' l => ?_⟩
    have r' : Reachable w (h ++ os) s' := .step r hs
    have hl : s''.loop = s'.loop := (frozen_of_run r' (isOver_of_join hs) l).loop
    exact stopped_of_over (r'.trans l) (hl ▸ isOver_of_join hs)
  case stopped =>
    intro hn hc hf
    have hp : s.phase = .closed := by
      by_contra hp
      exact hn (d.before hp).right.left
    exact stopped_of_over r (d.after hp hc hf)
  case again   => exact again
  case overlap => exact fun t u hu => again t (d.closed_of_waiting hu) (d.held (by simp [hu]))

-- Three records are drained in two chunks, and the writer is closed once more while the first of them is
-- being written.
def overlapping : List (Event Receipt) :=
  [.start 0, .wake, .save 1 (.uniform 1), .save 1 (.uniform 2), .save 1 (.uniform 3), .receive, .receive,
    .receive, .close 2, .stop, .close 3]

def drained : List (Event Receipt) := [.answer [] (.ok ()), .answer [] (.ok ()), .join]

theorem stopped_of_closed_of_drained :
    ∃ h s, Reachable (inChunks { drainOnClose := true } 2) h s ∧
      (h.closings, s.closing, h.forgoings, s.stats.written) = ([3, 2], none, [], 3) ∧
      Stopped (inChunks { drainOnClose := true } 2) s := by
  let w := inChunks { drainOnClose := true } 2
  have hm : (w.start.follow w 1 (overlapping ++ drained)).map
      (fun x => (x.2.1.closings, x.2.2.closing, x.2.1.forgoings, x.2.2.stats.written))
      = some ([3, 2], none, [], 3) := by
    decide +kernel
  have ⟨⟨_, h, s⟩, hf, he⟩ := Option.map_eq_some_iff.mp hm
  have r : Reachable w h s := .follow .refl hf
  simp only [Prod.mk.injEq] at he
  have ⟨hc, hs, hg, _⟩ := he
  have hn : h.closings ≠ [] := by
    rw [hc]
    exact List.cons_ne_nil _ _
  exact ⟨h, s, r, by simp [he], (stopped_of_closed r).stopped hn hs hg⟩

-- The call that was made last has succeeded, and both chunks are written after it.
theorem not_stopped_of_overlapping :
    ∃ h s os s', Reachable (inChunks { drainOnClose := true } 2) h s ∧ h.closings = [3] ∧
      Run (inChunks { drainOnClose := true } 2) s os s' ∧
      os.acknowledged = [[.uniform 1, .uniform 2], [.uniform 3]] ∧
      (s.stats.written, s'.stats.written) = (0, 3) ∧
      ¬Stopped (inChunks { drainOnClose := true } 2) s := by
  let w := inChunks { drainOnClose := true } 2
  have hm : (w.start.follow w 1 overlapping).bind (fun x => (x.2.2.follow w 1 drained).map fun y =>
      (x.2.1.closings, y.2.1.acknowledged, x.2.2.stats.written, y.2.2.stats.written))
      = some ([3], [[.uniform 1, .uniform 2], [.uniform 3]], 0, 3) := by
    decide +kernel
  have ⟨⟨_, h, s⟩, hf, hm⟩ := Option.bind_eq_some_iff.mp hm
  have ⟨⟨_, os, s'⟩, hf', he⟩ := Option.map_eq_some_iff.mp hm
  simp only [Prod.mk.injEq] at he
  have ⟨hc, ha, hs, hs'⟩ := he
  have l : Run w s os s' := .follow .refl hf'
  refine ⟨h, s, os, s', .follow .refl hf, hc, l, ha, by rw [hs, hs'], fun st => ?_⟩
  have hn := congrArg Stats.written (st.frozen os s' l).stats
  simp [hs, hs'] at hn

end WriteBehind.Writer
