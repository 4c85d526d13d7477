import WriteBehind.Ingest.Reference
import WriteBehind.Proofs.Ingest.Progress

namespace WriteBehind.Ingest

open Flush (Receipt)
open Flush.Attempt (Within)
open Log (Notice)
open Writer (History Turn)

variable {p : Plan} {items : List Item} {d : Storage.Database} {m : Move} {ns : List Notice}
variable {h os : History (List Record) Receipt} {s s' : State} {k n : Nat}
variable {writer : Writer.State (List Record) Receipt}

def Reader.left : Reader → Nat
  | .reading rest | .saving rest => rest.length
  | .holding _ rest              => rest.length + 1
  | .closing _ | .done _         => 0

def State.load (s : State) : Nat :=
  s.writer.loop.buffer.length + s.writer.intake.queue.length + s.writer.intake.waiting.length +
    s.reader.left

-- How many answers can still come in the usual order. In it no tick is due, so that the loop writes at
-- its end only.
inductive State.Needs : Nat → State → Prop
  | starting {s : State} {k : Nat} :
    s.writer.loop = .starting →
    s.load ≤ k →
    Needs k s
  | listening {s : State} {k : Nat} {buffer next} :
    s.writer.loop = .listening buffer next →
    s.writer.now < next →
    s.load ≤ k →
    Needs k s
  | writing {s : State} {k : Nat} {buffer chunk go} :
    s.writer.loop = .writing .last buffer chunk go →
    (∀ x, Within k (go x)) →
    Needs (k + 1) s
  | finished {s : State} {k : Nat} :
    s.writer.loop.IsOver →
    Needs k s

theorem load_of_reading (a : Attends p h s) (g : Reading p s os s') : s'.load ≤ s.load := by
  cases g with
  | close hr _ _ hw =>
    have ⟨l, _⟩ := a.attended.reading_or_holding (.inl ⟨_, hr⟩)
    obtain ⟨rfl, rfl⟩ := Writer.close_of_running hw l.phase
    simp [State.load, Reader.left]
  | interrupt hr _ hw =>
    have ⟨l, _⟩ := a.attended.reading_or_holding hr
    obtain ⟨rfl, rfl⟩ := Writer.close_of_running hw l.phase
    simp [State.load, Reader.left]
  | void hr | invalid hr | record hr => simp [State.load, hr, Reader.left]
  | save hr _ hw =>
    cases Writer.acts_of_save hw with
    | refuse | fail => simp [State.load, State.afterSave, State.saved?, hr, Reader.left]
    | enter | wait  =>
      simp [State.load, State.afterSave, State.saved?, hr, Reader.left, Writer.Intake.wait]
      omega
  | resume hr _ hw =>
    obtain ⟨_, r, hq⟩ := a.attended.of_saving hr
    have hi := Writer.waiter_of_head hq
    cases Writer.acts_of_resume hw with
    | resume hi' | shutOut hi' =>
      cases hi'.symm.trans hi
      simp [State.load, State.afterSave, State.saved?, hr, Reader.left, hq]
      omega
  | forsake hr _ hw =>
    cases Writer.acts_of_giveUp hw
    simp [State.load, hr, Reader.left, List.length_eraseIdx]
    split <;> omega
  | fail hr hw | finish hr hw =>
    cases Writer.acts_of_join hw <;> simp [State.load, hr, Reader.left]

theorem now_of_reading (g : Reading p s os s') : s'.writer.now = s.writer.now := by
  cases g with
  | void | invalid | record       => rfl
  | close _ _ _ hw                => cases Writer.acts_of_close hw <;> rfl
  | interrupt _ _ hw              => cases Writer.acts_of_close hw <;> rfl
  | forsake _ _ hw                => cases Writer.acts_of_giveUp hw; rfl
  | fail _ hw | finish _ hw       => cases Writer.acts_of_join hw <;> rfl
  | save _ _ hw                   =>
    rw [(afterSave_eq _).left]
    cases Writer.acts_of_save hw <;> rfl
  | resume _ _ hw                 =>
    rw [(afterSave_eq _).left]
    cases Writer.acts_of_resume hw <;> rfl

namespace State.Needs

theorem of_proceeds {buffer : List Record} {a : Flush.ChunkAttempt}
    (pr : Writer.Proceeds .last buffer a s.writer os writer) (hn : Within k a) (d : Storage.Database) :
    Needs k { s with writer, database := d } := by
  cases pr with
  | ask hp      => obtain ⟨k, rfl, hg⟩ := hn.pause hp; exact .writing rfl hg
  | settle _ ha => cases ha
  | _           => exact .finished (by simp [Writer.Loop.IsOver, Writer.State.finish])

theorem tick_eq_none (nd : Needs k s) : s.writer.tick p.setup = none := by
  rw [Writer.State.tick]
  cases nd with
  | listening hl hn => simp [hl, hn]
  | finished hl     => cases hs : s.writer.loop <;> simp_all [Writer.Loop.IsOver]
  | _ hl            => simp [hl]

theorem read (nd : Needs k s) (a : Attends p h s) (g : Reading p s os s') : Needs k s' := by
  have hl : s'.writer.loop = s.writer.loop := by
    rcases (call_of_reading g).left with ⟨_, hw⟩ | ⟨_, _, _, c⟩
    · exact congrArg _ hw
    · exact c.loop
  have hd := load_of_reading a g
  cases nd with
  | starting hl' hk     => exact .starting (hl.trans hl') (hd.trans hk)
  | listening hl' hn hk => exact .listening (hl.trans hl') (now_of_reading g ▸ hn) (hd.trans hk)
  | writing hl' hw      => exact .writing (hl.trans hl') hw
  | finished hl'        => exact .finished (hl ▸ hl')

theorem turn (nd : Needs k s) (hi : 0 < p.settings.writer.interval)
    (hw : ¬s.writer.loop.Waits) (u : Turn p.setup s.writer os writer) :
    ∃ k' ≤ k, Needs k' { s with writer } := by
  have ho := fun ho : s.writer.loop.IsOver => ho.not_turn u
  cases u with
  | wake hl =>
    cases nd with
    | starting _ hk =>
      refine ⟨k, Nat.le_refl k, .listening rfl (by simp [Plan.setup, hi]) ?_⟩
      simpa [State.load, hl, Writer.Loop.buffer] using hk
    | _ => simp_all
  | fail => exact ⟨k, Nat.le_refl k, .finished (by simp [Writer.Loop.IsOver])⟩
  | receive hl hq =>
    cases nd with
    | listening hl' hn hk =>
      cases hl.symm.trans hl'
      refine ⟨k, Nat.le_refl k, .listening rfl hn ?_⟩
      simp [State.load, hl, hq, Writer.Loop.buffer] at hk ⊢
      omega
    | _ => simp_all
  | idle hl hn | tick hl hn =>
    cases nd with
    | listening hl' hn' =>
      cases hl.symm.trans hl'
      omega
    | _ => simp_all
  | answer hl => simp [hl, Writer.Loop.Waits] at hw
  | drain hl _ _ _ pr =>
    cases nd with
    | listening hl' _ hk =>
      cases hl.symm.trans hl'
      refine ⟨_, ?_, of_proceeds (s := { s with writer := s.writer.gathered.begun }) pr
        (Flush.within_drain _ _) s.database⟩
      simp [State.load, hl, Writer.Loop.buffer] at hk ⊢
      omega
    | _ => simp_all
  | discard => exact ⟨k, Nat.le_refl k, .finished (by simp [Writer.Loop.IsOver, Writer.State.finish])⟩

-- Each move in the usual order leaves less to do, or is an answer after which less can come.
theorem step (nd : Needs k s) (a : Attends p h s) (hi : 0 < p.settings.writer.interval)
    (hm : m ∈ order) (g : Moved p s m os s') : ∃ k', Needs k' s' ∧ s'.toDo + k' < s.toDo + k := by
  have ⟨hle, hlt⟩ := toDo_of_moved a g
  cases g with
  | cancel | pass => simp [order] at hm
  | reader g      => exact ⟨k, nd.read a g, Nat.add_lt_add_right (hlt trivial) k⟩
  | @turn m e os writer he hw u =>
    have ha : m.Advances := by
      cases m with
      | tick =>
        cases he
        exact absurd (nd.tick_eq_none.symm.trans hw) (by simp)
      | wake | receive | stop => trivial
      | _                     => cases he
    have hn : ¬s.writer.loop.Waits := by
      intro hn
      cases hl : s.writer.loop with
      | writing =>
        rw [Writer.step_of_writing hl (isTurn_of_event he)] at hw
        cases hw
      | _ => simp [hl, Writer.Loop.Waits] at hn
    obtain ⟨k', hk, nd⟩ := nd.turn hi hn u
    exact ⟨k', nd, by have := hlt ha; omega⟩
  | answer hl hd hw =>
    cases nd with
    | writing hl' hn =>
      cases hl.symm.trans hl'
      simp only [Writer.State.answer, hl] at hw
      cases hw
      exact ⟨_, of_proceeds (Writer.proceeds _ _ _ _) (hn _) _, by omega⟩
    | finished ho => simp [hl, Writer.Loop.IsOver] at ho
    | _           => simp_all

end State.Needs

theorem exists_usual (a : Attends p h s) (hk : 0 < p.settings.writer.capacity)
    (hd : ∀ r, s.reader ≠ .done r) : ∃ m ∈ State.order, s.Can p m := by
  by_cases hw : s.writer.loop.Waits
  case pos =>
    cases hl : s.writer.loop with
    | writing => exact ⟨.answer, by simp [State.order], can_answer hl⟩
    | _       => simp [hl, Writer.Loop.Waits] at hw
  case neg =>
    obtain ⟨m, ha, hc⟩ := can_advance a hk hd hw
    refine ⟨m, ?_, hc⟩
    cases m <;> simp [State.order, Move.Advances] at ha ⊢

theorem done_of_run (a : Attends p h s) (hk : 0 < p.settings.writer.capacity)
    (hi : 0 < p.settings.writer.interval) (nd : s.Needs k) (hn : s.toDo + k ≤ n) :
    ∃ r, (s.run p n).2.reader = .done r := by
  induction n generalizing s h k with
  | zero =>
    cases hr : s.reader with
    | done r => exact ⟨r, hr⟩
    | _      => simp [State.toDo, hr, Reader.toDo] at hn
  | succ n ih =>
    rw [State.run]
    cases hf : State.order.findSome? (s.step? p) with
    | none =>
      by_contra hd
      obtain ⟨m, hm, hc⟩ := exists_usual a hk fun r hr => hd ⟨r, hr⟩
      rw [State.Can, List.findSome?_eq_none_iff.mp hf m hm] at hc
      cases hc
    | some x =>
      obtain ⟨m, hm, hs⟩ := List.exists_of_findSome?_eq_some hf
      obtain ⟨os, g⟩ := moved_of_step hs
      obtain ⟨k', nd', hl⟩ := nd.step a hi hm g
      exact ih (a.moved g) nd' (by omega)

theorem sizes_of_check {settings : Settings} (hs : settings.check = .ok ()) :
    0 < settings.chunkSize ∧ 0 < settings.writer.capacity ∧ 0 < settings.writer.interval := by
  rw [Settings.check, Writer.Settings.check] at hs
  split at hs
  case isTrue => cases hs
  case isFalse hz =>
    split at hs
    case isTrue => cases hs
    case isFalse hk =>
      split at hs
      case isTrue     => cases hs
      case isFalse hi => exact ⟨Nat.pos_of_ne_zero hz, Nat.pos_of_ne_zero hk, Nat.pos_of_ne_zero hi⟩

-- Each line takes four moves and an answer at most, and three more are the loop's.
theorem done_of_reading (items : List Item) (d : Storage.Database) (hs : p.settings.check = .ok ()) :
    ∃ r, ((p.reading items d).run p (moves items)).2.reader = .done r := by
  have ⟨_, hk, hi⟩ := sizes_of_check hs
  refine done_of_run (k := items.length) .start hk hi (.starting rfl ?_) ?_
  · simp [State.load, Plan.reading, Writer.Setup.opened, Writer.Setup.start, Writer.Loop.buffer, Reader.left]
  · simp [State.toDo, Plan.reading, Writer.Setup.opened, Writer.Setup.start, Writer.State.toDo,
      Writer.Loop.toDo, Reader.toDo, moves]
    omega

theorem done_of_closed {e : Fault} (hs : p.settings.check = .ok ())
    (hc : (p.reading [] d).close (some e) = some (ns, s)) :
    ∃ r, (s.run p (moves [])).2.reader = .done r := by
  have ⟨_, hk, hi⟩ := sizes_of_check hs
  have ⟨os, a⟩ := Attends.start.close (.inl ⟨_, rfl⟩) hc
  cases hc
  refine done_of_run (k := 0) a hk hi (.starting rfl ?_) ?_
  · simp [State.load, Plan.reading, Writer.Setup.opened, Writer.Setup.start, Writer.Loop.buffer, Reader.left]
  · simp [State.toDo, Plan.reading, Writer.Setup.opened, Writer.Setup.start, Writer.State.toDo,
      Writer.Loop.toDo, Reader.toDo, moves]

theorem runs_of_run (p : Plan) (standard : List UInt8) (disk : Storage.Disk) :
    ∃ last, Runs p standard disk last (run p standard disk).2.1 (run p standard disk).2.2 := by
  rcases hs : p.settings.check with e | _
  case error =>
    simp only [run, hs]
    exact ⟨none, .rejected hs⟩
  case ok =>
    rcases ho : disk.openDatabase p.settings.database.toList with ⟨ns, disk', e | c⟩
    case error =>
      simp only [run, hs, ho]
      exact ⟨none, .unopened hs ho⟩
    case ok =>
      rcases hi : openInput p.settings disk' standard with e | ⟨ns', items⟩
      case error =>
        have hc : (p.reading [] c.database).close (some e) = some ([], _) := rfl
        have ⟨r, hr⟩ := done_of_closed hs hc
        simp only [run, hs, ho, hi, hc, hr]
        exact ⟨_, .unread hs ho hi .refl rfl hc (.of_run _ _) hr⟩
      case ok =>
        have ⟨r, hr⟩ := done_of_reading items c.database hs
        simp only [run, hs, ho, hi, hr]
        exact ⟨_, .read hs ho hi (.of_run _ _) hr⟩

end WriteBehind.Ingest
