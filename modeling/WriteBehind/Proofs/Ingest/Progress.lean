import WriteBehind.Proofs.Ingest.Moves

namespace WriteBehind.Ingest

open Flush (Receipt)
open Log (Notice)
open Writer (History)

variable {p : Plan} {m : Move} {ns : List Notice} {rest : List Item}
variable {h os : History (List Record) Receipt} {s s' : State}

-- A line can make a save, which can wait.
def Reader.toDo : Reader → Nat
  | .reading rest   => 4 * rest.length + 2
  | .holding _ rest => 4 * rest.length + 5
  | .saving rest    => 4 * rest.length + 2
  | .closing _      => 1
  | .done _         => 0

def State.toDo (s : State) : Nat := s.reader.toDo + s.writer.toDo

def Move.Advances : Move → Prop
  | .reader | .wake | .receive | .stop => True
  | _                                  => False

def State.Can (p : Plan) (m : Move) (s : State) : Prop := (s.step? p m).isSome

instance : Decidable (s.Can p m) := inferInstanceAs (Decidable (_ = true))

theorem toDo_of_call {w w' : Writer.State (List Record) Receipt} (c : Writer.Call w os w') :
    w'.toDo + 2 * w.intake.waiting.length
      = w.toDo + 2 * w'.intake.waiting.length + os.accepted.length := by
  simp only [Writer.State.toDo, c.loop, c.queue, List.length_append, List.length_map]
  omega

theorem toDo_of_close {fault : Option Fault} {writer : Writer.State (List Record) Receipt} {b : Bool}
    (l : s.Listens) (hw : s.writer.close State.closeTicket = some (os, writer))
    (hr : 1 < s.reader.toDo) :
    State.toDo { s with writer, interrupted := b, reader := .closing fault } < s.toDo := by
  obtain ⟨rfl, rfl⟩ := Writer.close_of_running hw l.phase
  exact Nat.add_lt_add_right hr _

theorem toDo_of_reading (a : Attends p h s) (g : Reading p s os s') : s'.toDo < s.toDo := by
  have join {writer} (hw : s.writer.join = some (os, writer)) : writer.toDo = s.writer.toDo := by
    have c := Writer.call_of_join hw
    simp [Writer.State.toDo, (Writer.loop_of_join hw).right, c.loop]
  cases g with
  | close hr _ _ hw =>
    obtain ⟨l, _⟩ := a.attended.reading_or_holding (.inl ⟨_, hr⟩)
    exact toDo_of_close (b := s.interrupted) l hw (by simp [hr, Reader.toDo])
  | interrupt hr _ hw =>
    obtain ⟨l, _⟩ := a.attended.reading_or_holding hr
    refine toDo_of_close l hw ?_
    rcases hr with ⟨items, hr⟩ | ⟨r, rest, hr⟩ <;> simp [hr, Reader.toDo]
  | void hr | invalid hr => exact Nat.add_lt_add_right (by simp [hr, Reader.toDo]) _
  | record hr            => exact Nat.add_lt_add_right (by simp [hr, Reader.toDo]; omega) _
  | @save r rest os writer hr _ hw =>
    obtain ⟨l, hq⟩ := a.attended.reading_or_holding (.inr ⟨_, _, hr⟩)
    have hc := toDo_of_call (Writer.call_of_save hw)
    cases Writer.acts_of_save hw with
    | refuse _ hf  => simp [l.phase, Writer.Phase.refusal?] at hf
    | fail         => simp [State.toDo, State.afterSave, State.saved?, hr, Reader.toDo]
    | enter | wait =>
      simp [hq, State.toDo, State.afterSave, State.saved?, hr, Reader.toDo, History.accepted,
        Writer.Intake.wait] at hc ⊢
      omega
  | @resume rest os writer hr _ hw =>
    obtain ⟨_, r, hq⟩ := a.attended.of_saving hr
    have hi := Writer.waiter_of_head hq
    have hc := toDo_of_call (Writer.call_of_resume hw)
    cases Writer.acts_of_resume hw with
    | resume hi' | shutOut hi' =>
      cases hi'.symm.trans hi
      simp [hq, State.toDo, State.afterSave, State.saved?, hr, Reader.toDo, History.accepted] at hc ⊢
      omega
  | @forsake rest os writer hr _ hw =>
    obtain ⟨_, r, hq⟩ := a.attended.of_saving hr
    have hi := Writer.waiter_of_head hq
    have hc := toDo_of_call (Writer.call_of_giveUp hw)
    cases Writer.acts_of_giveUp hw with
    | giveUp hi' =>
      cases hi'.symm.trans hi
      simp [hq, State.toDo, hr, Reader.toDo, History.accepted] at hc ⊢
      omega
  | fail hr hw | finish hr hw => simp [State.toDo, hr, Reader.toDo, join hw]

theorem toDo_of_moved (a : Attends p h s) (g : Moved p s m os s') :
    s'.toDo ≤ s.toDo ∧ (m.Advances → s'.toDo < s.toDo) := by
  cases g with
  | reader g =>
    have hl := toDo_of_reading a g
    exact ⟨Nat.le_of_lt hl, fun _ => hl⟩
  | turn he hw u =>
    have hl := Writer.toDo_of_turn u
    refine ⟨Nat.add_le_add_left hl _, fun ha => Nat.add_lt_add_left ?_ _⟩
    cases m with
    | wake    => cases he; exact Writer.toDo_of_wake hw
    | receive => cases he; exact Writer.toDo_of_receive hw
    | stop    => cases he; exact Writer.toDo_of_stop hw
    | tick    => exact ha.elim
    | _       => cases he
  | answer _ _ hw =>
    have u : Writer.Turn p.setup s.writer _ _ := Writer.turn_of_answer hw
    exact ⟨Nat.add_le_add_left (Writer.toDo_of_turn u) _, False.elim⟩
  | cancel | pass => exact ⟨Nat.le_refl _, False.elim⟩

theorem toDo_of_step (a : Attends p h s) (hs : s.step? p m = some (ns, s')) :
    s'.toDo ≤ s.toDo ∧ (m.Advances → s'.toDo < s.toDo) := by
  have ⟨_, g⟩ := moved_of_step hs
  exact toDo_of_moved a g

theorem can_of_loop {e : Writer.Event Receipt} (hs : (s.writer.step? p.setup e).isSome) :
    (s.loop p e).isSome := by
  have ⟨x, hx⟩ := Option.isSome_iff_exists.mp hs
  simp [State.loop, hx]

theorem can_wake (hl : s.writer.loop = .starting) : s.Can p .wake := by
  refine can_of_loop ?_
  simp only [Writer.State.step?, Writer.State.wake, hl]
  split <;> rfl

theorem can_read (a : Attends p h s)
    (hr : (∃ items, s.reader = .reading items) ∨ ∃ r rest, s.reader = .holding r rest) :
    s.Can p .reader := by
  have ⟨l, _⟩ := a.attended.reading_or_holding hr
  have hh := a.isHeld
  have close (b : Bool) (fault : Option Fault) :
      (State.close fault { s with interrupted := b }).isSome := by
    simp [State.close, Writer.State.close, hh, l.phase]
  rcases hr with ⟨items, hr⟩ | ⟨r, rest, hr⟩
  case inl =>
    simp only [State.Can, State.step?, State.read, hr]
    split
    case isTrue => exact close true none
    case isFalse =>
      split
      case h_1 => exact close _ none
      case h_2 => exact close _ _
      case h_3 => split <;> rfl
  case inr =>
    simp only [State.Can, State.step?, State.read, hr]
    split
    case isTrue => exact close true none
    case isFalse =>
      have hs : (s.writer.save State.saveTicket r).isSome := Writer.isSome_save hh
      obtain ⟨x, hx⟩ := Option.isSome_iff_exists.mp hs
      simp [hx]

theorem can_resume (a : Attends p h s) (hk : 0 < p.settings.writer.capacity)
    (hr : s.reader = .saving rest) (hq : s.writer.intake.queue = []) : s.Can p .reader := by
  have ⟨_, r, hw⟩ := a.attended.of_saving hr
  have hc : s.writer.intake.capacity = p.settings.writer.capacity :=
    Writer.capacity_of_reachable a.reachable
  simp only [State.Can, State.step?, State.read, hr]
  split
  case isTrue => simp [Writer.State.giveUp, Writer.waiter_of_head hw]
  case isFalse =>
    obtain ⟨x, hx⟩ := Option.isSome_iff_exists.mp (Writer.isSome_resume hw hq (hc ▸ hk))
    simp [hx]

-- As long as the loop does not wait for the database, something can be done.
theorem can_advance (a : Attends p h s) (hk : 0 < p.settings.writer.capacity)
    (hd : ∀ r, s.reader ≠ .done r) (hw : ¬s.writer.loop.Waits) : ∃ m, m.Advances ∧ s.Can p m := by
  cases a.attended with
  | done hr        => exact absurd hr (hd _)
  | reading hr     => exact ⟨.reader, trivial, can_read a (.inl ⟨_, hr⟩)⟩
  | holding hr     => exact ⟨.reader, trivial, can_read a (.inr ⟨_, _, hr⟩)⟩
  | saving hr =>
    cases hl : s.writer.loop with
    | starting => exact ⟨.wake, trivial, can_wake hl⟩
    | listening buffer next =>
      cases hq : s.writer.intake.queue with
      | nil => exact ⟨.reader, trivial, can_resume a hk hr hq⟩
      | cons =>
        refine ⟨.receive, trivial, can_of_loop ?_⟩
        simp [Writer.State.step?, Writer.State.receive, hl, hq]
    | absent         => exact absurd hl a.present
    | writing        => simp [hl, Writer.Loop.Waits] at hw
    | ended | broken =>
      have ho : s.writer.intake.isOpen = false := a.flow.shut.mp (by simp [hl, Writer.Loop.IsDone])
      exact ⟨.reader, trivial, can_resume a hk hr (a.flow.empty ho)⟩
  | @closing fault hr hp hc =>
    cases hl : s.writer.loop with
    | starting => exact ⟨.wake, trivial, can_wake hl⟩
    | listening buffer next =>
      refine ⟨.stop, trivial, can_of_loop ?_⟩
      simp [Writer.State.step?, Writer.State.stop, hl, hp]
    | ended | broken =>
      refine ⟨.reader, trivial, ?_⟩
      cases fault <;> simp [State.Can, State.step?, State.read, hr, Writer.State.join, hc, hl]
    | absent  => exact absurd hl a.present
    | writing => simp [hl, Writer.Loop.Waits] at hw

theorem can_answer {aim : Writer.Aim} {buffer chunk : List Record} {go}
    (hl : s.writer.loop = .writing aim buffer chunk go) : s.Can p .answer := by
  simp [State.Can, State.step?, State.answer, State.loop, Writer.State.step?, Writer.State.answer, hl]

end WriteBehind.Ingest
