import WriteBehind.Proofs.Writer.Conservation
import WriteBehind.Proofs.Writer.Progress

namespace WriteBehind.Writer

open Flush (Attempt Receipt)
open History (attempts ticks)
open Log (Notice)

variable {Op Ans : Type} {w : Setup Op Ans} {h os : History Op Ans} {s s' : State Op Ans}
variable {aim : Aim} {buffer rs : List Record} {a : Attempt Op Ans} {e : Event Ans} {ns : List Notice}
variable {p start next : Nat} {ts : List (Nat × Nat)}

namespace History

def starts (h : History Op Ans) : List Nat :=
  h.filterMap fun
    | .loopStarted time => some time
    | _                 => none

def tickAttempts (h : History Op Ans) : List (Aim × List Record) :=
  h.attempts.filter (·.1 matches .tick _)

end History

open History (starts tickAttempts)

def Loop.due? : Loop Op Ans → Option Nat
  | .listening _ next         => some next
  | .writing (.tick next) ..  => some next
  | _                         => none

-- Ticks served one after the other, with when each was due and when it was served. The first is due an
-- interval after the start, and the one after them at `next`.
inductive Beat (p start : Nat) : List (Nat × Nat) → Nat → Prop
  | start : Beat p start [] (start + p)
  | serve {ts next time} :
    Beat p start ts next →
    next ≤ time →
    Beat p start (ts ++ [(next, time)]) (nextTick p next time)

structure Paced (p start : Nat) (h : History Op Ans) (s : State Op Ans) : Prop where
  served   : ∀ k due time, h.ticks[k]? = some (due, time) →
    start + (k + 1) * p ≤ due ∧ due ≤ time ∧ time ≤ s.now
  pending  : ∀ due, s.loop.due? = some due → start + (h.ticks.length + 1) * p ≤ due
  attempts : h.tickAttempts.length ≤ (s.now - start) / p
  -- As long as no tick has been served late, the ticks are due on a grid.
  onGrid   : ∀ k due time, h.ticks[k]? = some (due, time) → (∀ x ∈ h.ticks.take k, x.2 ≤ x.1 + slack) →
    due = start + (k + 1) * p
  next     : (∀ x ∈ h.ticks, x.2 ≤ x.1 + slack) → ∀ due, s.loop.due? = some due →
    due = start + (h.ticks.length + 1) * p

theorem le_nextTick {due now : Nat} : due + p ≤ nextTick p due now := by
  unfold nextTick
  split <;> omega

theorem nextTick_of_le {due now : Nat} (hn : now ≤ due + slack) : nextTick p due now = due + p :=
  if_neg (Nat.not_lt.mpr hn)

namespace Beat

theorem le_next (b : Beat p start ts next) : start + (ts.length + 1) * p ≤ next := by
  induction b with
  | start            => simp
  | @serve ts next time _ _ hi =>
    have hn : next + p ≤ nextTick p next time := le_nextTick
    rw [List.length_append, List.length_singleton, Nat.succ_mul]
    omega

theorem next_eq (b : Beat p start ts next) (hs : ∀ x ∈ ts, x.2 ≤ x.1 + slack) :
    next = start + (ts.length + 1) * p := by
  induction b with
  | start            => simp
  | @serve ts next time _ _ hi =>
    have ⟨hs, hl⟩ := List.forall_mem_append.mp hs
    have hn : nextTick p next time = next + p := nextTick_of_le (hl _ List.mem_cons_self)
    rw [hn, hi hs, List.length_append, List.length_singleton, Nat.succ_mul (ts.length + 1)]
    omega

theorem take {k due time : Nat} (b : Beat p start ts next) (hk : ts[k]? = some (due, time)) :
    Beat p start (ts.take k) due ∧ due ≤ time := by
  induction b with
  | start => simp at hk
  | @serve ts next time' b hd hi =>
    have hl : k ≤ ts.length := by
      have hl := (List.getElem?_eq_some_iff.mp hk).1
      rw [List.length_append, List.length_singleton] at hl
      omega
    rw [List.take_append_of_le_length hl]
    rcases Nat.lt_or_eq_of_le hl with hl | rfl
    case inl => exact hi (by rwa [List.getElem?_append_left hl] at hk)
    case inr =>
      rw [List.getElem?_concat_length, Option.some.injEq, Prod.mk.injEq] at hk
      obtain ⟨rfl, rfl⟩ := hk
      exact ⟨by rwa [List.take_length], hd⟩

end Beat

namespace History

@[simp] theorem ticks_append : ticks (h ++ os) = ticks h ++ ticks os := List.filterMap_append

@[simp] theorem starts_append : starts (h ++ os) = starts h ++ starts os := List.filterMap_append

@[simp] theorem tickAttempts_append : tickAttempts (h ++ os) = tickAttempts h ++ tickAttempts os := by
  simp [tickAttempts]

structure Untimed (h : History Op Ans) : Prop where
  starts : h.starts = []
  ticks  : h.ticks = []

namespace Untimed

theorem append (q : Untimed h) (q' : Untimed os) : Untimed (h ++ os) where
  starts := by rw [starts_append, q.starts, q'.starts]; rfl
  ticks  := by rw [ticks_append, q.ticks, q'.ticks]; rfl

theorem logged (ns : List Notice) : Untimed (ns.map .logged : History Op Ans) where
  starts := filterMap_logged _ (fun _ => rfl) ns
  ticks  := filterMap_logged _ (fun _ => rfl) ns

theorem received (rs : List Record) : Untimed (rs.map .received : History Op Ans) where
  starts := by simp [History.starts, List.filterMap_map]
  ticks  := by simp [History.ticks, List.filterMap_map]

theorem finish : Untimed (s.finish buffer).1 := by
  simp only [State.finish]
  split <;> exact ⟨rfl, rfl⟩

theorem of_proceeds (pr : Proceeds aim buffer a s os s') : Untimed os := by
  cases pr with
  | ask    => exact logged _
  | crash  => exact (logged _).append ⟨rfl, rfl⟩
  | settle => exact (logged _).append ⟨rfl, rfl⟩
  | @finish o =>
    have q : Untimed ([.settled aim o, .logged (Stats.report buffer o)] : History Op Ans) := ⟨rfl, rfl⟩
    exact (logged _).append (q.append finish)

theorem of_acts (c : Acts s e os s') : Untimed os := by
  cases c <;> exact ⟨rfl, rfl⟩

end Untimed

end History

open History (Untimed)

theorem due_of_proceeds {due : Nat} (pr : Proceeds aim buffer a s os s')
    (hd : s'.loop.due? = some due) : aim = .tick due := by
  cases pr with
  | ask         => cases aim <;> simp_all [Loop.due?]
  | crash       => cases hd
  | settle _ ha => simp_all [Loop.due?]
  | finish      => cases hd

inductive Begins (w : Setup Op Ans) (s : State Op Ans) (os : History Op Ans) : Prop
  | none : attempts os = [] → Begins w s os
  | tick {buffer due next} :
    s.loop = .listening buffer due →
    due ≤ s.now →
    buffer ≠ [] →
    ticks os = [(due, s.now)] →
    attempts os = [(.tick next, buffer)] →
    Begins w s os
  | last (rs : List Record) :
    w.settings.drainOnClose = true →
    attempts os = [(.last, rs)] →
    Begins w s os

theorem begins_of_turn (u : Turn w s os s') : Begins w s os := by
  cases u with
  | wake | fail | receive | idle => exact .none rfl
  | @tick buffer due next os _ hl hd _ hb pr =>
    have ha : attempts (.ticked due s.now :: .begun (.tick next) buffer :: os) = [(.tick next, buffer)] := by
      rw [History.attempts_cons, History.attempts_cons (h := os), (quiet_of_proceeds pr).attempts]
      rfl
    exact .tick hl hd hb (congrArg _ (Untimed.of_proceeds pr).ticks) ha
  | answer _ pr =>
    refine .none ?_
    rw [History.attempts_append, History.attempts_logged, History.attempts_cons,
      (quiet_of_proceeds pr).attempts]
    rfl
  | @drain buffer _ _ _ _ _ _ hd _ pr =>
    refine .last (buffer ++ s.intake.queue) hd ?_
    rw [History.attempts_append, History.attempts_cons, History.attempts_received,
      History.attempts_cons (o := .logged (.draining _)), History.attempts_cons (o := .begun ..),
      (quiet_of_proceeds pr).attempts]
    rfl
  | discard =>
    refine .none ?_
    rw [History.attempts_append, History.attempts_cons, History.attempts_received,
      (quiet_of_finish _ _).attempts]
    rfl

theorem tickAttempts_of_attempts (ha : attempts os = []) : tickAttempts os = [] := by
  rw [tickAttempts, ha]
  rfl

namespace Begins

theorem tickAttempts_eq_nil (b : Begins w s os) (hx : ticks os = []) : tickAttempts os = [] := by
  cases b with
  | none ha          => exact tickAttempts_of_attempts ha
  | tick _ _ _ hx' _ => simp [hx'] at hx
  | last _ _ ha      => simp [tickAttempts, ha]

theorem length_tickAttempts (b : Begins w s os) : (tickAttempts os).length ≤ 1 := by
  cases b with
  | none ha                       => simp [tickAttempts_of_attempts ha]
  | tick _ _ _ _ ha | last _ _ ha => exact (List.length_filter_le _ _).trans (by simp [ha])

end Begins

inductive Strikes (w : Setup Op Ans) (s : State Op Ans) (os : History Op Ans) (s' : State Op Ans) : Prop
  | still :
    Untimed os →
    (∀ due, s'.loop.due? = some due → s.loop.due? = some due) →
    Strikes w s os s'
  | serve {due} :
    s.loop.due? = some due →
    due ≤ s.now →
    starts os = [] →
    ticks os = [(due, s.now)] →
    (∀ d, s'.loop.due? = some d → d = nextTick w.settings.interval due s.now) →
    Strikes w s os s'

theorem strikes_of_turn (u : Turn w s os s') (hl : s.loop ≠ .starting) : Strikes w s os s' := by
  cases u with
  | wake hs | fail hs => exact absurd hs hl
  | receive hs        => exact .still ⟨rfl, rfl⟩ fun due hd => by simpa [hs, Loop.due?] using hd
  | idle hs hd        =>
    exact .serve (by rw [hs]; rfl) hd rfl rfl fun d hd => by simpa [Loop.due?] using hd.symm
  | tick hs hd hn _ pr =>
    have q := Untimed.of_proceeds pr
    refine .serve (by rw [hs]; rfl) hd q.starts (congrArg _ q.ticks) fun d hd => ?_
    cases due_of_proceeds pr hd
    exact hn
  | @answer _ _ op _ x os _ ns hs pr =>
    have q : Untimed (ns.map .logged ++ [.answered op x] ++ os) :=
      ((Untimed.logged ns).append ⟨rfl, rfl⟩).append (.of_proceeds pr)
    refine .still (by simpa using q) fun due hd => ?_
    cases due_of_proceeds pr hd
    rw [hs]
    rfl
  | @drain buffer _ n os _ _ _ _ _ pr =>
    have q : Untimed ([.logged n] ++ s.intake.queue.map .received ++
        [.logged (.draining (buffer ++ s.intake.queue).length), .begun .last (buffer ++ s.intake.queue)] ++
        os) := ((Untimed.append ⟨rfl, rfl⟩ (.received _)).append ⟨rfl, rfl⟩).append (.of_proceeds pr)
    exact .still (by simpa using q) fun due hd => by cases due_of_proceeds pr hd
  | @discard buffer _ n _ =>
    have q : Untimed ([.logged n] ++ s.intake.queue.map .received ++
        (State.finish (buffer ++ s.intake.queue) s.gathered).1) :=
      (Untimed.append ⟨rfl, rfl⟩ (.received _)).append .finish
    exact .still (by simpa using q) fun due hd => by cases hd

inductive Ticking (w : Setup Op Ans) (h : History Op Ans) (s : State Op Ans) : Prop
  | before :
    s.loop = .absent ∨ s.loop = .starting ∨ s.loop.IsOver →
    h.starts = [] → h.ticks = [] → h.attempts = [] →
    Ticking w h s
  | since {start next : Nat} :
    s.loop ≠ .absent ∧ s.loop ≠ .starting →
    h.starts = [start] →
    Beat w.settings.interval start h.ticks next →
    (∀ due, s.loop.due? = some due → due = next) →
    (∀ x ∈ h.ticks, x.2 ≤ s.now) →
    h.tickAttempts.length ≤ h.ticks.length →
    Ticking w h s

namespace Ticking

theorem still (t : Ticking w h s) (q : Untimed os) (ha : attempts os = []) (hl : s'.loop = s.loop)
    (hn : s.now ≤ s'.now) : Ticking w (h ++ os) s' := by
  cases t with
  | before hs ht hx hb =>
    exact .before (hl ▸ hs) (by simp [ht, q.starts]) (by simp [hx, q.ticks]) (by simp [hb, ha])
  | since hs ht b hd hx hb =>
    refine .since (hl ▸ hs) (by rw [History.starts_append, ht, q.starts]; rfl)
      (by simpa [q.ticks] using b) (hl ▸ hd) ?_ ?_
    · intro x hm
      exact (hx x (by simpa [q.ticks] using hm)).trans hn
    · simpa [q.ticks, tickAttempts_of_attempts ha] using hb

theorem wake (t : Ticking w h s) (hl : s.loop = .starting) (u : Turn w s os s') :
    Ticking w (h ++ os) s' := by
  cases t with
  | since hs        => exact absurd hl hs.right
  | before _ ht hx hb =>
    cases u with
    | wake =>
      have hs : starts (h ++ [.loopStarted s.now,
          .logged (.loopStarted w.settings.capacity w.settings.interval)]) = [s.now] := by
        rw [History.starts_append, ht]
        rfl
      refine .since ⟨nofun, nofun⟩ hs ?_ (fun due hd => (Option.some.inj hd).symm) ?_ ?_
      · rw [History.ticks_append, hx]
        exact .start
      · rw [History.ticks_append, hx]
        nofun
      · rw [History.tickAttempts_append, tickAttempts_of_attempts hb]
        exact Nat.zero_le _
    | fail =>
      refine .before (.inr (.inr trivial)) ?_ ?_ ?_
      · rw [History.starts_append, ht]
        rfl
      · rw [History.ticks_append, hx]
        rfl
      · rw [History.attempts_append, hb]
        rfl
    | receive hs | idle hs | tick hs | answer hs | drain hs | discard hs => cases hl.symm.trans hs

theorem turn (t : Ticking w h s) (u : Turn w s os s') : Ticking w (h ++ os) s' := by
  by_cases hl : s.loop = .starting
  case pos => exact t.wake hl u
  cases t with
  | before hs =>
    rcases hs with hs | hs | hs
    · cases u <;> simp_all
    · exact absurd hs hl
    · exact absurd u hs.not_turn
  | since _ ht b hd hx hb =>
    have k := kept_of_turn u
    cases strikes_of_turn u hl with
    | still q hd' =>
      have ha := (begins_of_turn u).tickAttempts_eq_nil q.ticks
      refine .since (begun_of_turn u) (by rw [History.starts_append, ht, q.starts]; rfl)
        (by simpa [q.ticks] using b) (fun due hs => hd due (hd' due hs)) ?_ (by simpa [q.ticks, ha] using hb)
      rw [k.now]
      simpa [q.ticks] using hx
    | serve hs hn ht' hx' hd' =>
      have ha := (begins_of_turn u).length_tickAttempts
      cases hd _ hs
      refine .since (begun_of_turn u) (by rw [History.starts_append, ht, ht']; rfl)
        (by simpa [hx'] using b.serve hn) hd' ?_ ?_
      · rw [k.now, History.ticks_append, hx']
        exact List.forall_mem_append.mpr ⟨hx, List.forall_mem_singleton.mpr (Nat.le_refl _)⟩
      · rw [History.tickAttempts_append, History.ticks_append, hx', List.length_append,
          List.length_append, List.length_singleton]
        omega

theorem of_reachable (r : Reachable w h s) : Ticking w h s := by
  apply r.induct
  case start => exact .before (.inl rfl) rfl rfl rfl
  case keep =>
    intro h s e os s' r t hs
    rcases acts_or_turn hs with c | ⟨u, _⟩
    case inr => exact t.turn u
    case inl =>
      have q := Untimed.of_acts c
      by_cases he : ∀ t, e ≠ .start t
      case pos =>
        have c := c.call he
        exact t.still q c.attempts c.loop c.now
      case neg =>
        cases c with
        | reopen     => exact t.still q rfl rfl (Nat.le_refl _)
        | spawn _ hp =>
          have hl := (Flow.of_reachable r).fresh hp
          cases t with
          | since hs             => exact absurd hl hs.left
          | before _ ht hx hb =>
            exact .before (.inr (.inl rfl)) (by simp [ht, q.starts]) (by simp [hx, q.ticks])
              (by rw [History.attempts_append, hb]; rfl)
        | _ => exact absurd nofun he

end Ticking

namespace Paced

theorem served_of_beat (b : Beat p start h.ticks next) (hx : ∀ x ∈ h.ticks, x.2 ≤ s.now)
    (k due time : Nat) (hk : h.ticks[k]? = some (due, time)) :
    start + (k + 1) * p ≤ due ∧ due ≤ time ∧ time ≤ s.now := by
  have ⟨bk, hd⟩ := b.take hk
  have hl : k < h.ticks.length := (List.getElem?_eq_some_iff.mp hk).1
  have hle := bk.le_next
  rw [List.length_take_of_le hl.le] at hle
  exact ⟨hle, hd, hx _ (List.mem_of_getElem? hk)⟩

theorem attempts_of_beat (hp : 0 < p) (b : Beat p start h.ticks next)
    (hx : ∀ x ∈ h.ticks, x.2 ≤ s.now) (hb : h.tickAttempts.length ≤ h.ticks.length) :
    h.tickAttempts.length ≤ (s.now - start) / p := by
  rw [Nat.le_div_iff_mul_le hp]
  cases hn : h.ticks.length with
  | zero   =>
    rw [hn, Nat.le_zero] at hb
    rw [hb, Nat.zero_mul]
    exact Nat.zero_le _
  | succ n =>
    -- The last tick that was served is the one with the number `n`.
    have hk := List.getElem?_eq_getElem (hn ▸ Nat.lt_succ_self n : n < h.ticks.length)
    have ⟨hs, hd, hx⟩ := served_of_beat b hx n _ _ hk
    have hm : h.tickAttempts.length * p ≤ (n + 1) * p := Nat.mul_le_mul_right _ (hn ▸ hb)
    omega

theorem of_beat (hp : 0 < p) (b : Beat p start h.ticks next)
    (hd : ∀ due, s.loop.due? = some due → due = next) (hx : ∀ x ∈ h.ticks, x.2 ≤ s.now)
    (hb : h.tickAttempts.length ≤ h.ticks.length) : Paced p start h s where
  served               := served_of_beat b hx
  pending due hs       := hd due hs ▸ b.le_next
  attempts             := attempts_of_beat hp b hx hb
  onGrid k due _ hk hs := by
    have ⟨bk, _⟩ := b.take hk
    have hl : k < h.ticks.length := (List.getElem?_eq_some_iff.mp hk).1
    rw [bk.next_eq hs, List.length_take_of_le hl.le]
  next hs due hl       := hd due hl ▸ b.next_eq hs

end Paced

-- However long the attempts take, the ticks of a loop keep their pace from when it has started.
theorem ticks_paced (hp : 0 < w.settings.interval) (r : Reachable w h s) :
    (h.starts = [] → h.ticks = [] ∧ h.attempts = []) ∧
      ∀ start ∈ h.starts, Paced w.settings.interval start h s := by
  cases Ticking.of_reachable r with
  | before _ ht hx hb     => exact ⟨fun _ => ⟨hx, hb⟩, by simp [ht]⟩
  | since _ ht b hd hx hb =>
    rw [ht]
    exact ⟨nofun, List.forall_mem_singleton.mpr (.of_beat hp b hd hx hb)⟩

-- An attempt that takes two intervals and a half: the tick that it delays is served late.
def lagging : List (Event Receipt) :=
  [.start 0, .wake, .save 1 (.uniform 1), .receive, .pass 1000000000, .tick, .pass 2500000000,
    .answer [] (.ok ()), .save 1 (.uniform 2), .receive, .tick, .answer [] (.ok ()), .pass 1000000000, .tick]

theorem ticks_paced_of_lagging :
    ∃ h s, Reachable (inChunks {} 1) h s ∧
      (h.ticks, h.tickAttempts.length)
        = ([(1000000000, 1000000000), (2000000000, 3500000000), (4500000000, 4500000000)], 2) ∧
      Paced 1000000000 0 h s := by
  let w := inChunks {} 1
  have hm : (w.start.follow w 1 lagging).map
      (fun x => ((x.2.1.ticks, x.2.1.tickAttempts.length), x.2.1.starts))
      = some (([(1000000000, 1000000000), (2000000000, 3500000000), (4500000000, 4500000000)], 2), [0]) := by
    decide +kernel
  have ⟨⟨_, h, s⟩, hf, he⟩ := Option.map_eq_some_iff.mp hm
  have ⟨ht, hs⟩ := Prod.mk.inj he
  have rc : Reachable w h s := .follow .refl hf
  have hb : 0 < w.settings.interval := by decide
  exact ⟨h, s, rc, ht, (ticks_paced hb rc).right 0 (hs ▸ List.mem_singleton_self 0)⟩

end WriteBehind.Writer
