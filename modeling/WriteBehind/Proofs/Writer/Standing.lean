import WriteBehind.Proofs.Writer.Turn

namespace WriteBehind.Writer

open Flush.Attempt (Course)
open History (LastAttempt Quiet accepted received attempts answers)

variable {Op Ans : Type} {w : Setup Op Ans} {h os : History Op Ans} {s s' : State Op Ans}

def Loop.IsDone : Loop Op Ans → Prop
  | .writing .last .. | .ended | .broken => True
  | _ => False

structure Carried (h : History Op Ans) (s : State Op Ans) : Prop where
  queued  : h.received ++ s.intake.queue = h.accepted.map (·.2)
  counted : s.stats.received = h.received.length

-- Records are carried from the queue into the buffer until the loop has stopped to listen.
structure Flow (h : History Op Ans) (s : State Op Ans) : Prop where
  carried : s.loop ≠ .broken → Carried h s
  empty   : s.intake.isOpen = false → s.intake.queue = []
  shut    : s.loop.IsDone ↔ s.intake.isOpen = false
  fresh   : s.phase = .fresh → s.loop = .absent

-- What the loop holds between two attempts, all of which were made for ticks.
inductive Held (w : Setup Op Ans) : History Op Ans → List Record → Prop
  | fresh {h : History Op Ans} : h.attempts = [] → h.answers = [] → Held w h h.received
  | left {h pre post : History Op Ans} {rs next o} :
    Held w pre rs →
    rs ≠ [] →
    LastAttempt h pre (.tick next) rs post →
    Course (w.policy.flush rs) post.answers (.done o) →
    Held w h (o.left rs ++ post.received)

structure Underway (w : Setup Op Ans) (h pre : History Op Ans) (aim : Aim) (rs : List Record)
    (post : History Op Ans) : Prop where
  held     : Held w pre rs
  filled   : rs ≠ []
  last     : LastAttempt h pre aim rs post
  received : post.received = []

inductive Stands (w : Setup Op Ans) (h : History Op Ans) (s : State Op Ans) : Prop
  | idle :
    s.loop = .absent ∨ s.loop = .starting →
    h.attempts = [] → h.answers = [] → h.received = [] →
    s.stats.discarded = 0 →
    Stands w h s
  | listening {buffer next} :
    s.loop = .listening buffer next →
    Held w h buffer →
    s.stats.discarded = 0 →
    Stands w h s
  | writing {aim buffer op go} {pre post : History Op Ans} :
    s.loop = .writing aim buffer op go →
    Underway w h pre aim buffer post →
    (aim = .last → w.settings.drainOnClose = true ∧ post.accepted = []) →
    Course (w.attempt aim buffer) post.answers (.ask op go) →
    s.stats.discarded = 0 →
    Stands w h s
  | drained {pre post : History Op Ans} {rs o} :
    s.loop = .ended →
    Underway w h pre .last rs post →
    w.settings.drainOnClose = true →
    post.accepted = [] →
    Course (w.policy.drain rs) post.answers (.done o) →
    s.stats.discarded = (o.left rs).length →
    Stands w h s
  | discarded {buffer} :
    s.loop = .ended →
    Held w h buffer →
    (w.settings.drainOnClose = true → buffer = []) →
    s.stats.discarded = buffer.length →
    Stands w h s
  | failed :
    s.loop = .broken →
    h.attempts = [] → h.answers = [] → h.received = [] →
    Stands w h s
  | crashed {aim buffer} {pre post : History Op Ans} :
    s.loop = .broken →
    Underway w h pre aim buffer post →
    Course (w.attempt aim buffer) post.answers .crash →
    Stands w h s

theorem isDone_writing {aim : Aim} {buffer : List Record} {op : Op} {go} :
    (Loop.writing aim buffer op go : Loop Op Ans).IsDone ↔ aim = .last := by
  cases aim <;> simp [Loop.IsDone]

theorem quiet_of_finish (buffer : List Record) (s : State Op Ans) : Quiet (s.finish buffer).1 := by
  simp only [State.finish]
  split <;> exact ⟨rfl, rfl, rfl, rfl, fun _ => rfl⟩

theorem quiet_of_proceeds {aim : Aim} {buffer : List Record} {a : Flush.Attempt Op Ans}
    (p : Proceeds aim buffer a s os s') : Quiet os := by
  cases p with
  | ask    => exact .logged _
  | crash  => exact (Quiet.logged _).append ⟨rfl, rfl, rfl, rfl, fun _ => rfl⟩
  | settle => exact (Quiet.logged _).append ⟨rfl, rfl, rfl, rfl, fun _ => rfl⟩
  | @finish o =>
    have q : Quiet ([.settled aim o, .logged (Stats.report buffer o)] : History Op Ans) :=
      ⟨rfl, rfl, rfl, rfl, fun _ => rfl⟩
    exact (Quiet.logged _).append <| q.append <| quiet_of_finish _ _

namespace Carried

variable {o : Occurrence Op Ans}

theorem still (c : Carried h s) (ha : accepted os = []) (hr : received os = [])
    (hq : s'.intake.queue = s.intake.queue) (hs : s'.stats.received = s.stats.received) :
    Carried (h ++ os) s' where
  queued  := by simpa [ha, hr, hq] using c.queued
  counted := by simpa [hr, hs] using c.counted

theorem call (c : Carried h s) (a : Call s os s') : Carried (h ++ os) s' where
  queued  := by simp [a.received, a.queue, ← c.queued]
  counted := by simp [a.received, a.stats, c.counted]

theorem receive {r : Record} {queue : List Record} (c : Carried h s) (hq : s.intake.queue = r :: queue)
    (hq' : s'.intake.queue = queue) (hr : s'.stats.received = s.stats.received + 1) :
    Carried (h ++ [.received r]) s' where
  queued  := by simpa [received, accepted, hq', hq] using c.queued
  counted := by simp [received, hr, c.counted]

theorem gather (c : Carried h s) (q : Quiet [o]) :
    Carried (h ++ o :: s.intake.queue.map .received) s.gathered where
  queued  := by
    rw [History.received_append, History.received_cons, History.accepted_append,
      History.accepted_cons, q.received, q.accepted]
    simp [State.gathered, ← c.queued]
  counted := by
    rw [History.received_append, History.received_cons, q.received]
    simp [State.gathered, c.counted]

end Carried

namespace Flow

theorem start : Flow [] w.start where
  carried := fun _ => ⟨rfl, rfl⟩
  empty   := fun _ => rfl
  shut    := by simp [Setup.start, Loop.IsDone]
  fresh   := fun _ => rfl

theorem not_fresh (f : Flow h s) (hl : s.loop ≠ .absent) : s.phase ≠ .fresh :=
  mt f.fresh hl

theorem queue_eq_nil (f : Flow h s) (hd : s.loop.IsDone) : s.intake.queue = [] :=
  f.empty <| f.shut.mp hd

theorem isOpen (f : Flow h s) (hd : ¬s.loop.IsDone) : s.intake.isOpen = true := by
  simpa [f.shut] using hd

theorem call (f : Flow h s) (c : Call s os s') : Flow (h ++ os) s' where
  carried := fun hb => (f.carried (c.loop ▸ hb)).call c
  empty ho := by
    have ha : accepted os = [] := by
      by_contra hn
      simp [c.entered hn, c.isOpen] at ho
    simp [c.queue, ha, f.empty (c.isOpen ▸ ho)]
  shut     := by rw [c.loop, c.isOpen, f.shut]
  fresh hp := c.loop.trans (f.fresh (c.phase hp))

theorem proceeds {aim : Aim} {buffer : List Record} {a : Flush.Attempt Op Ans}
    (p : Proceeds aim buffer a s os s') (c : Carried h s)
    (he : s.intake.isOpen = false → s.intake.queue = [])
    (hs : aim = .last ↔ s.intake.isOpen = false) (hp : s.phase ≠ .fresh) : Flow (h ++ os) s' := by
  have q := quiet_of_proceeds p
  cases p with
  | ask    =>
    exact ⟨fun _ => c.still q.accepted q.received rfl rfl, he, isDone_writing.trans hs,
      fun hf => absurd hf hp⟩
  | crash  => exact ⟨(absurd rfl ·), fun _ => rfl, by simp [Loop.IsDone], fun hf => absurd hf hp⟩
  | settle _ ha =>
    have hl : ¬s.intake.isOpen = false := by simp [← hs, ha]
    exact ⟨fun _ => c.still q.accepted q.received rfl (Stats.settle_received ..), he,
      by simpa [Loop.IsDone] using hl, fun hf => absurd hf hp⟩
  | finish _ ha =>
    have hl : s.intake.isOpen = false := hs.mp ha
    exact ⟨fun _ => c.still q.accepted q.received rfl (Stats.settle_received ..), he,
      by simpa [State.finish, Loop.IsDone] using hl, fun hf => absurd hf hp⟩

theorem turn (f : Flow h s) (t : Turn w s os s') : Flow (h ++ os) s' := by
  cases t with
  | wake hl _ =>
    have c := f.carried (by simp [hl])
    have hs := f.shut
    exact ⟨fun _ => c.still rfl rfl rfl rfl, f.empty, by simpa [hl, Loop.IsDone] using hs,
      fun hf => absurd hf (f.not_fresh (by simp [hl]))⟩
  | fail hl _ =>
    exact ⟨(absurd rfl ·), fun _ => rfl, by simp [Loop.IsDone],
      fun hf => absurd hf (f.not_fresh (by simp [hl]))⟩
  | receive hl hq =>
    have c := f.carried (by simp [hl])
    have hs := f.shut
    exact ⟨fun _ => c.receive hq rfl rfl, fun ho => absurd (f.empty ho) (by simp [hq]),
      by simpa [hl, Loop.IsDone] using hs, fun hf => absurd hf (f.not_fresh (by simp [hl]))⟩
  | idle hl _ =>
    have c := f.carried (by simp [hl])
    have hs := f.shut
    exact ⟨fun _ => c.still rfl rfl rfl rfl, f.empty, by simpa [hl, Loop.IsDone] using hs,
      fun hf => absurd hf (f.not_fresh (by simp [hl]))⟩
  | @tick buffer due next os _ hl _ _ _ p =>
    have hs : s.begun.intake.isOpen ≠ false := fun ho => by
      simpa [hl, Loop.IsDone] using f.shut.mpr ho
    have c : Carried (h ++ [.ticked due s.now, .begun (.tick next) buffer]) s.begun :=
      (f.carried (by simp [hl])).still rfl rfl rfl rfl
    have f' := Flow.proceeds p c f.empty (by simpa using hs) (f.not_fresh (by simp [hl]))
    simpa using f'
  | @answer aim buffer op go x os _ ns hl p =>
    have c : Carried (h ++ (ns.map .logged ++ [.answered op x])) s :=
      (f.carried (by simp [hl])).still (by simp [accepted]) (by simp [received]) rfl rfl
    have hs := isDone_writing.symm.trans (hl ▸ f.shut)
    have f' := Flow.proceeds p c f.empty hs (f.not_fresh (by simp [hl]))
    simpa using f'
  | @drain buffer next n os _ hl _ _ _ p =>
    have c := (f.carried (by simp [hl])).gather (⟨rfl, rfl, rfl, rfl, fun _ => rfl⟩ : Quiet [.logged n])
    have c' : Carried (h ++ .logged n :: s.intake.queue.map .received ++
        [.logged (.draining (buffer ++ s.intake.queue).length), .begun .last (buffer ++ s.intake.queue)])
        s.gathered.begun := c.still rfl rfl rfl rfl
    have f' := Flow.proceeds p c' (fun _ => rfl) (by simp [State.begun, State.gathered])
      (f.not_fresh (by simp [hl]))
    simpa using f'
  | @discard buffer next n hl _ _ =>
    have c := (f.carried (by simp [hl])).gather (⟨rfl, rfl, rfl, rfl, fun _ => rfl⟩ : Quiet [.logged n])
    have q := quiet_of_finish (buffer ++ s.intake.queue) s.gathered
    refine ⟨fun _ => ?_, fun _ => rfl, by simp [State.finish, State.gathered, Loop.IsDone],
      fun hf => absurd hf (f.not_fresh (by simp [hl]))⟩
    have c' : Carried _ (State.finish (buffer ++ s.intake.queue) s.gathered).2 :=
      c.still q.accepted q.received rfl rfl
    simpa using c'

theorem change (f : Flow h s) (c : Change w s os s') : Flow (h ++ os) s' := by
  cases c with
  | call c => exact f.call c
  | start hp =>
    have hl := f.fresh hp
    have c := f.carried (by simp [hl])
    have hs := f.shut
    exact ⟨fun _ => c.still rfl rfl rfl rfl, f.empty, by simpa [hl, Loop.IsDone] using hs, by simp⟩
  | turn t => exact f.turn t

theorem of_reachable (r : Reachable w h s) : Flow h s :=
  r.induct start fun _ _ _ _ _ _ f hs => f.change (change_of_step hs)

end Flow

theorem Held.append {buffer : List Record} (b : Held w h buffer) (ha : attempts os = [])
    (hx : answers os = []) : Held w (h ++ os) (buffer ++ received os) := by
  cases b with
  | fresh ha₁ hx₁ =>
    rw [← History.received_append]
    exact .fresh (by simp [ha, ha₁]) (by simp [hx, hx₁])
  | left b hn l c =>
    rw [List.append_assoc, ← History.received_append]
    exact .left b hn (l.append ha) (by simpa [hx] using c)

theorem Held.still {buffer : List Record} (b : Held w h buffer) (ha : attempts os = [])
    (hx : answers os = []) (hr : received os = []) : Held w (h ++ os) buffer := by
  have b' := b.append ha hx
  rwa [hr, List.append_nil] at b'

theorem Held.gather {buffer queue : List Record} {n : Log.Notice} (b : Held w h buffer) :
    Held w (h ++ .logged n :: queue.map .received) (buffer ++ queue) := by
  have b₁ : Held w (h ++ [.logged n]) buffer := b.still rfl rfl rfl
  have b₂ : Held w (h ++ [.logged n] ++ queue.map .received) _ :=
    b₁.append History.attempts_received History.answers_received
  simpa using b₂

namespace Underway

variable {pre post : History Op Ans} {aim : Aim} {buffer : List Record}

theorem append (u : Underway w h pre aim buffer post) (ha : attempts os = [])
    (hr : os.received = []) : Underway w (h ++ os) pre aim buffer (post ++ os) where
  held     := u.held
  filled   := u.filled
  last     := u.last.append ha
  received := by simp [u.received, hr]

theorem begin (b : Held w h buffer) (hn : buffer ≠ []) :
    Underway w (h ++ [.begun aim buffer]) h aim buffer [] :=
  ⟨b, hn, ⟨rfl, rfl⟩, rfl⟩

end Underway

namespace Stands

theorem start : Stands w [] w.start :=
  .idle (.inl rfl) rfl rfl rfl rfl

theorem call (st : Stands w h s) (f : Flow h s) (c : Call s os s') : Stands w (h ++ os) s' := by
  -- Once the loop has stopped to listen, nothing is accepted.
  have hacc (hd : s.loop.IsDone) : accepted os = [] := by
    by_contra hn
    exact absurd (c.entered hn) (by simp [f.shut.mp hd])
  have hdis : s'.stats.discarded = s.stats.discarded := congrArg Stats.discarded c.stats
  cases st with
  | idle hl ha hx hr hd =>
    exact .idle (c.loop ▸ hl) (by simp [ha, c.attempts]) (by simp [hx, c.answers])
      (by simp [hr, c.received]) (hdis.trans hd)
  | listening hl b hd =>
    exact .listening (c.loop.trans hl) (b.still c.attempts c.answers c.received) (hdis.trans hd)
  | writing hl u hlast hc hd =>
    refine .writing (c.loop.trans hl) (u.append c.attempts c.received) (fun ha => ?_)
      (by simpa [c.answers] using hc) (hdis.trans hd)
    have ho := hacc (hl ▸ isDone_writing.mpr ha)
    exact ⟨(hlast ha).left, by simp [(hlast ha).right, ho]⟩
  | drained hl u hs ha hc hd =>
    have ho := hacc (by simp [hl, Loop.IsDone])
    exact .drained (c.loop.trans hl) (u.append c.attempts c.received) hs (by simp [ha, ho])
      (by simpa [c.answers] using hc) (hdis.trans hd)
  | discarded hl b hs hd =>
    exact .discarded (c.loop.trans hl) (b.still c.attempts c.answers c.received) hs (hdis.trans hd)
  | failed hl ha hx hr =>
    exact .failed (c.loop.trans hl) (by simp [ha, c.attempts]) (by simp [hx, c.answers])
      (by simp [hr, c.received])
  | crashed hl u hc =>
    exact .crashed (c.loop.trans hl) (u.append c.attempts c.received) (by simpa [c.answers] using hc)

theorem proceeds {aim : Aim} {buffer : List Record} {a : Flush.Attempt Op Ans}
    {pre post : History Op Ans} (p : Proceeds aim buffer a s os s')
    (u : Underway w h pre aim buffer post)
    (hlast : aim = .last → w.settings.drainOnClose = true ∧ post.accepted = [])
    (hc : Course (w.attempt aim buffer) post.answers a.pause.2) (hd : s.stats.discarded = 0) :
    Stands w (h ++ os) s' := by
  have q := quiet_of_proceeds p
  have u' := u.append q.attempts q.received
  have hc' : Course (w.attempt aim buffer) (post ++ os).answers a.pause.2 := by
    simpa [q.answers] using hc
  have hacc (ha : aim = .last) : (post ++ os).accepted = [] := by
    simp [(hlast ha).right, q.accepted]
  cases p with
  | ask hp => exact .writing rfl u' (fun ha => ⟨(hlast ha).left, hacc ha⟩) (hp ▸ hc') hd
  | crash hp => exact .crashed rfl u' (hp ▸ hc')
  | settle hp ha =>
    subst ha
    have b := Held.left u'.held u'.filled u'.last (hp ▸ hc')
    rw [u'.received, List.append_nil] at b
    exact .listening rfl b (by simp [hd])
  | finish hp ha =>
    subst ha
    exact .drained rfl u' (hlast rfl).left (hacc rfl) (hp ▸ hc') (by simp [State.finish, hd])

theorem of_starting (st : Stands w h s) (hl : s.loop = .absent ∨ s.loop = .starting) :
    h.attempts = [] ∧ h.answers = [] ∧ h.received = [] ∧ s.stats.discarded = 0 := by
  cases st with
  | idle _ ha hx hr hd => exact ⟨ha, hx, hr, hd⟩
  | _ => simp_all

theorem of_listening {buffer : List Record} {next : Nat} (st : Stands w h s)
    (hl : s.loop = .listening buffer next) : Held w h buffer ∧ s.stats.discarded = 0 := by
  cases st with
  | listening hl' b hd =>
    cases hl'.symm.trans hl
    exact ⟨b, hd⟩
  | _ => simp_all

theorem of_writing {aim : Aim} {buffer : List Record} {op : Op} {go} (st : Stands w h s)
    (hl : s.loop = .writing aim buffer op go) :
    ∃ pre post, Underway w h pre aim buffer post ∧
      (aim = .last → w.settings.drainOnClose = true ∧ post.accepted = []) ∧
      Course (w.attempt aim buffer) post.answers (.ask op go) ∧ s.stats.discarded = 0 := by
  cases st with
  | writing hl' u hlast hc hd =>
    cases hl'.symm.trans hl
    exact ⟨_, _, u, hlast, hc, hd⟩
  | _ => simp_all

theorem turn (st : Stands w h s) (t : Turn w s os s') : Stands w (h ++ os) s' := by
  cases t with
  | wake hl _ =>
    obtain ⟨ha, hx, hr, hd⟩ := st.of_starting (.inr hl)
    have b : Held w h [] := hr ▸ .fresh ha hx
    exact .listening rfl (b.still rfl rfl rfl) hd
  | fail hl _ =>
    obtain ⟨ha, hx, hr, -⟩ := st.of_starting (.inr hl)
    refine .failed rfl ?_ ?_ ?_
    · rw [History.attempts_append, ha]; rfl
    · rw [History.answers_append, hx]; rfl
    · rw [History.received_append, hr]; rfl
  | receive hl _ =>
    obtain ⟨b, hd⟩ := st.of_listening hl
    exact .listening rfl (b.append rfl rfl) hd
  | idle hl _ =>
    obtain ⟨b, hd⟩ := st.of_listening hl
    exact .listening rfl (b.still rfl rfl rfl) hd
  | @tick buffer due next os _ hl _ _ hn p =>
    obtain ⟨b, hd⟩ := st.of_listening hl
    have u : Underway w (h ++ [.ticked due s.now] ++ [.begun (.tick next) buffer]) _ _ _ [] :=
      .begin (b.still rfl rfl rfl) hn
    have st' := Stands.proceeds p u (by simp) (.start rfl) hd
    simpa using st'
  | @answer aim buffer op go x os _ ns hl p =>
    obtain ⟨pre, post, u, hlast, hc, hd⟩ := st.of_writing hl
    let os₁ : History Op Ans := ns.map .logged ++ [.answered op x]
    have ha : os₁.accepted = [] := by simp [os₁, accepted]
    have hx : (post ++ os₁).answers = post.answers ++ [(op, x)] := by simp [os₁, answers]
    have u' : Underway w (h ++ os₁) pre aim buffer (post ++ os₁) :=
      u.append (by simp [os₁, attempts]) (by simp [os₁, received])
    have hlast' (hl : aim = .last) : w.settings.drainOnClose = true ∧ (post ++ os₁).accepted = [] :=
      ⟨(hlast hl).left, by rw [History.accepted_append, (hlast hl).right, ha]; rfl⟩
    have st' := Stands.proceeds p u' hlast' (hx ▸ .answer hc rfl) hd
    simpa [os₁] using st'
  | @drain buffer next n os _ hl _ hs hn p =>
    obtain ⟨b, hd⟩ := st.of_listening hl
    have b' : Held w (h ++ .logged n :: s.intake.queue.map .received ++
        [.logged (.draining (buffer ++ s.intake.queue).length)]) (buffer ++ s.intake.queue) :=
      b.gather.still rfl rfl rfl
    have st' := Stands.proceeds p (.begin b' hn) (fun _ => ⟨hs, rfl⟩) (.start rfl) hd
    simpa using st'
  | @discard buffer next n hl _ hs =>
    obtain ⟨b, hd⟩ := st.of_listening hl
    have q := quiet_of_finish (buffer ++ s.intake.queue) s.gathered
    have b' : Held w (h ++ .logged n :: s.intake.queue.map .received ++ _) _ :=
      b.gather.still q.attempts q.answers q.received
    have st' : Stands w _ (State.finish (buffer ++ s.intake.queue) s.gathered).2 :=
      .discarded rfl b' hs (by simp [State.finish, State.gathered, hd])
    simpa using st'

theorem change (st : Stands w h s) (f : Flow h s) (c : Change w s os s') : Stands w (h ++ os) s' := by
  cases c with
  | call c => exact st.call f c
  | start hp =>
    obtain ⟨ha, hx, hr, hd⟩ := st.of_starting (.inl (f.fresh hp))
    refine .idle (.inr rfl) ?_ ?_ ?_ hd
    · rw [History.attempts_append, ha]; rfl
    · rw [History.answers_append, hx]; rfl
    · rw [History.received_append, hr]; rfl
  | turn t => exact st.turn t

theorem of_reachable (r : Reachable w h s) : Stands w h s := by
  have hfs : Flow h s ∧ Stands w h s := by
    apply r.induct
    case start => exact ⟨.start, start⟩
    case keep =>
      intro h s e os s' _ ⟨f, st⟩ hs
      exact ⟨f.change (change_of_step hs), st.change f (change_of_step hs)⟩
  exact hfs.right

end Stands

def Setup.IsCalm (w : Setup Op Ans) : Prop := ∀ aim rs qs, ¬Course (w.attempt aim rs) qs .crash

theorem Representable.of_le {n m : Nat} (hm : Representable m) (h : n ≤ m) : Representable n :=
  Nat.lt_of_le_of_lt (Nat.div_le_div_right h) hm

-- Before the first attempt, a step breaks the loop only where it starts and the clock cannot represent
-- when the first tick is due.
theorem broken_of_unattempted {e : Event Ans} (r : Reachable w h s) (hs : s.step? w e = some (os, s'))
    (hl : s'.loop = .broken) (ha : (h ++ os).attempts = []) :
    s.loop = .broken ∧ s.now ≤ s'.now ∨
      s.loop = .starting ∧ ¬Representable (s.now + w.settings.interval) ∧ s'.now = s.now := by
  cases change_of_step hs with
  | start  => cases hl
  | call c => exact .inl ⟨c.loop ▸ hl, c.now⟩
  | turn u =>
    cases u with
    | fail hb hr   => exact .inr ⟨hb, hr, rfl⟩
    | answer hw    =>
      have ⟨_, _, u, _⟩ := (Stands.of_reachable r).of_writing hw
      simp [u.last.eq, attempts] at ha
    | tick | drain => simp [attempts] at ha
    | _            => cases hl

theorem unrepresentable_of_unattempted (r : Reachable w h s) (hl : s.loop = .broken)
    (ha : h.attempts = []) : ¬Representable (s.now + w.settings.interval) := by
  revert hl ha
  apply r.induct
  case start => simp [Setup.start]
  case keep =>
    intro h s e os s' r hi hs hl ha hr
    rcases broken_of_unattempted r hs hl ha with ⟨hb, hn⟩ | ⟨_, hn, ht⟩
    case inl =>
      rw [History.attempts_append, List.append_eq_nil_iff] at ha
      exact hi hb ha.left (hr.of_le (Nat.add_le_add_right hn _))
    case inr => exact hn (ht ▸ hr)

namespace Setup.IsCalm

theorem of_broken (hc : w.IsCalm) (st : Stands w h s) (hl : s.loop = .broken) :
    h.attempts = [] ∧ h.answers = [] ∧ h.received = [] := by
  cases st with
  | failed _ ha hx hr => exact ⟨ha, hx, hr⟩
  | crashed _ _ c     => exact absurd c (hc _ _ _)
  | _                 => simp_all

theorem broken_of_step {e : Event Ans} (hc : w.IsCalm) (r : Reachable w h s)
    (hs : s.step? w e = some (os, s')) (hl : s'.loop = .broken) :
    s.loop = .broken ∧ s.now ≤ s'.now ∨
      s.loop = .starting ∧ ¬Representable (s.now + w.settings.interval) ∧ s'.now = s.now :=
  broken_of_unattempted r hs hl (hc.of_broken (.of_reachable (.step r hs)) hl).left

theorem unrepresentable (hc : w.IsCalm) (r : Reachable w h s) (hl : s.loop = .broken) :
    ¬Representable (s.now + w.settings.interval) :=
  unrepresentable_of_unattempted r hl (hc.of_broken (.of_reachable r) hl).left

end Setup.IsCalm

end WriteBehind.Writer
