import Mathlib.Data.Nat.Find
import Mathlib.Order.Monotone.Basic
import WriteBehind.Proofs.Ingest.Outcome
import WriteBehind.Proofs.Ingest.Progress

namespace WriteBehind.Ingest

open Flush (Receipt)
open Flush.Attempt (Within)
open Writer (History Representable)

variable {p : Plan} {items : List Item} {t : Storage.Table} {d : Storage.Database} {start s s' : State}
variable {m : Move} {ns : List Log.Notice} {h : History (List Record) Receipt} {i j : Nat}

structure Execution (p : Plan) (start : State) where
  state : Nat → State
  move  : Nat → Move
  first : state 0 = start
  next  : ∀ i, ∃ ns, (state i).step? p (move i) = some (ns, state (i + 1))

-- The moves that are not put off for ever. Of ticks, of signals and of time nothing is asked.
def Move.IsUrged : Move → Prop
  | .tick | .cancel | .pass _ => False
  | _                         => True

namespace Execution

def Fair (e : Execution p start) : Prop :=
  ∀ m, m.IsUrged → (∀ i, ∃ j ≥ i, (e.state j).Can p m) → ∀ i, ∃ j ≥ i, e.move j = m

def InTime (e : Execution p start) : Prop :=
  ∀ i, (e.state i).writer.loop = .starting →
    Representable ((e.state i).writer.now + p.settings.writer.interval)

end Execution

theorem not_broken_of_step (a : Attends p h s) (hs : s.step? p m = some (ns, s'))
    (hb : s.writer.loop ≠ .broken)
    (ht : s.writer.loop = .starting → Representable (s.writer.now + p.settings.writer.interval)) :
    s'.writer.loop ≠ .broken := by
  have r : Writer.Reachable (Writer.inChunks p.settings.writer p.settings.chunkSize) h s.writer :=
    a.reachable
  have ⟨os, g⟩ := moved_of_step hs
  intro hl
  rcases writer_of_moved g with ⟨_, hw⟩ | ⟨e, _, hw⟩
  case inl => exact hb (hw ▸ hl)
  case inr =>
    rcases Writer.broken_of_step r hw hl with ⟨hb', _⟩ | ⟨hs', hn, _⟩
    · exact hb hb'
    · exact hn (ht hs')

theorem loop_of_writing {aim : Writer.Aim} {buffer chunk : List Record} {go}
    (hs : s.step? p m = some (ns, s')) (hl : s.writer.loop = .writing aim buffer chunk go)
    (hm : m ≠ .answer) : s'.writer.loop = s.writer.loop := by
  have ⟨os, g⟩ := moved_of_step hs
  cases g with
  | reader g =>
    rcases (call_of_reading g).left with ⟨_, hw⟩ | ⟨_, _, _, c⟩
    · exact congrArg _ hw
    · exact c.loop
  | turn he hw _ =>
    rw [Writer.step_of_writing hl (isTurn_of_event he)] at hw
    cases hw
  | answer        => exact absurd rfl hm
  | cancel | pass => rfl

theorem reader_of_done {r : Except Fault Report} (hs : s.step? p m = some (ns, s'))
    (hr : s.reader = .done r) : s'.reader = .done r := by
  have ⟨os, g⟩ := moved_of_step hs
  cases g with
  | reader g => cases g <;> simp_all
  | _        => exact hr

theorem awaits_of_answer {aim : Writer.Aim} {buffer chunk : List Record} {go} {n : Nat}
    (hs : s.step? p .answer = some (ns, s')) (hl : s.writer.loop = .writing aim buffer chunk go)
    (hn : ∀ x, Within n (go x)) : s'.writer.loop.Awaits n := by
  have ⟨os, g⟩ := moved_of_step hs
  cases g with
  | turn he         => cases he
  | answer hl' _ hw =>
    cases hl.symm.trans hl'
    exact Writer.awaits_of_answer hw hl (hn _)

namespace Execution

theorem attends (e : Execution p start) (a : Attends p h start) (i : Nat) :
    ∃ h, Attends p h (e.state i) := by
  induction i with
  | zero => rw [e.first]; exact ⟨h, a⟩
  | succ i hi =>
    obtain ⟨h, a⟩ := hi
    obtain ⟨ns, hs⟩ := e.next i
    obtain ⟨os, a⟩ := a.step hs
    exact ⟨_, a⟩

theorem follows (e : Execution p (p.reading items (.holding t))) (hf : fault? items = none) (i : Nat) :
    ∃ h, Follows p items t h (e.state i) := by
  induction i with
  | zero => rw [e.first]; exact ⟨_, .start⟩
  | succ i hi =>
    obtain ⟨h, f⟩ := hi
    obtain ⟨ns, hs⟩ := e.next i
    obtain ⟨os, f⟩ := f.step hf hs
    exact ⟨_, f⟩

theorem not_broken (e : Execution p start) (a : Attends p h start) (hb : start.writer.loop ≠ .broken)
    (ht : e.InTime) (i : Nat) : (e.state i).writer.loop ≠ .broken := by
  induction i with
  | zero => rwa [e.first]
  | succ i hi =>
    obtain ⟨h, a⟩ := e.attends a i
    obtain ⟨ns, hs⟩ := e.next i
    exact not_broken_of_step a hs hi (ht i)

theorem not_interrupted (e : Execution p (p.reading items d)) (hc : p.cancelled = false)
    (hm : ∀ i, e.move i ≠ .cancel) (i : Nat) : (e.state i).interrupted = false := by
  have still (i : Nat) : (e.state i).interrupted = false ∧ (e.state i).cancelled = false := by
    induction i with
    | zero => rw [e.first]; exact ⟨rfl, hc⟩
    | succ i ih =>
      have ⟨hi, hs⟩ := ih
      obtain ⟨_, st⟩ := e.next i
      have ⟨_, g⟩ := moved_of_step st
      have ⟨_, hi', hc'⟩ := interrupted_of_moved g
      refine ⟨Bool.eq_false_iff.mpr fun h => ?_, by simp [hc', hs, hm i]⟩
      have := hi' h
      simp [hi, hs] at this
  exact (still i).left

theorem toDo_antitone (e : Execution p start) (a : Attends p h start) :
    Antitone fun i => (e.state i).toDo := by
  apply antitone_nat_of_succ_le
  intro i
  have ⟨h, a⟩ := e.attends a i
  have ⟨ns, hs⟩ := e.next i
  exact (toDo_of_step a hs).left

theorem done_of_le {r : Except Fault Report} (e : Execution p start) (hr : (e.state i).reader = .done r)
    (hij : i ≤ j) : (e.state j).reader = .done r := by
  induction j, hij using Nat.le_induction with
  | base => exact hr
  | succ j _ hi =>
    have ⟨ns, hs⟩ := e.next j
    exact reader_of_done hs hi

theorem loop_of_no_answer {aim : Writer.Aim} {buffer chunk : List Record} {go} (e : Execution p start)
    (hl : (e.state i).writer.loop = .writing aim buffer chunk go)
    (hij : i ≤ j) (hn : ∀ k, i ≤ k → k < j → e.move k ≠ .answer) :
    (e.state j).writer.loop = .writing aim buffer chunk go := by
  induction j, hij using Nat.le_induction with
  | base => exact hl
  | succ j hij hi =>
    have hl := hi fun k hk hkj => hn k hk (Nat.lt_succ_of_lt hkj)
    have ⟨ns, hs⟩ := e.next j
    exact (loop_of_writing hs hl (hn j hij (Nat.lt_succ_self j))).trans hl

theorem next_answer {aim : Writer.Aim} {buffer chunk : List Record} {go} (e : Execution p start)
    (hf : e.Fair)
    (hl : (e.state i).writer.loop = .writing aim buffer chunk go) :
    ∃ j ≥ i, e.move j = .answer ∧ (e.state j).writer.loop = .writing aim buffer chunk go := by
  classical
  have hx : ∃ j ≥ i, e.move j = .answer := by
    by_contra hn
    have hl (j : Nat) (hij : i ≤ j) : (e.state j).writer.loop = .writing aim buffer chunk go :=
      e.loop_of_no_answer hl hij fun k hk _ ha => hn ⟨k, hk, ha⟩
    have hcan (k : Nat) : ∃ j ≥ k, (e.state j).Can p .answer :=
      ⟨max i k, le_max_right i k, can_answer (hl _ (le_max_left i k))⟩
    exact hn (hf .answer trivial hcan i)
  have ⟨hij, ha⟩ := Nat.find_spec hx
  refine ⟨Nat.find hx, hij, ha, e.loop_of_no_answer hl hij fun k hk hkj ha => ?_⟩
  exact Nat.find_min hx hkj ⟨hk, ha⟩

-- The last answer comes as well: the induction is on how many are left.
theorem next_idle {n : Nat} (e : Execution p start) (hf : e.Fair)
    (hn : (e.state i).writer.loop.Awaits n) : ∃ j ≥ i, ¬(e.state j).writer.loop.Waits := by
  induction n generalizing i with
  | zero =>
    cases hn with
    | none hw => exact ⟨i, Nat.le_refl i, hw⟩
  | succ n ih =>
    cases hl : (e.state i).writer.loop with
    | writing aim buffer chunk go =>
      rw [hl] at hn
      cases hn with
      | none hw   => exact absurd trivial hw
      | answer hn =>
        have ⟨j, hij, hm, hj⟩ := e.next_answer hf hl
        have ⟨ns, hs⟩ := e.next j
        rw [hm] at hs
        have ⟨k, hjk, hk⟩ := ih (awaits_of_answer hs hj hn)
        exact ⟨k, by omega, hk⟩
    | _ => exact ⟨i, Nat.le_refl i, by simp [hl, Writer.Loop.Waits]⟩

theorem next_advance (e : Execution p start) (a : Attends p h start)
    (hk : 0 < p.settings.writer.capacity) (hfair : e.Fair)
    (hd : ∀ j ≥ i, ∀ r, (e.state j).reader ≠ .done r) : ∃ j ≥ i, (e.move j).Advances := by
  by_contra hx
  -- Each of them is possible for some time only, if none of them is made.
  have impossible (m : Move) (ha : m.Advances) : ∃ k, ∀ j ≥ k, ¬(e.state j).Can p m := by
    by_contra hn
    have often (k : Nat) : ∃ j ≥ k, (e.state j).Can p m := by
      by_contra hk
      exact hn ⟨k, fun j hj hcan => hk ⟨j, hj, hcan⟩⟩
    have urged : m.IsUrged := by cases m <;> trivial
    have ⟨j, hij, hm⟩ := hfair m urged often i
    exact hx ⟨j, hij, hm ▸ ha⟩
  have ⟨k, reader⟩ := impossible .reader trivial
  have ⟨b, wake⟩ := impossible .wake trivial
  have ⟨c, receive⟩ := impossible .receive trivial
  have ⟨d, stop⟩ := impossible .stop trivial
  have ⟨h', a'⟩ := e.attends a (i + k + b + c + d)
  have reach : Writer.Reachable (Writer.inChunks p.settings.writer p.settings.chunkSize) h'
    (e.state (i + k + b + c + d)).writer := a'.reachable
  have ⟨n, hn⟩ := Writer.awaits_of_reachable reach
  have ⟨j, hj, idle⟩ := e.next_idle hfair hn
  have ⟨_, a'⟩ := e.attends a j
  have ⟨m, ha, hcan⟩ := can_advance a' hk (hd j (by omega)) idle
  cases m with
  | reader  => exact reader j (by omega) hcan
  | wake    => exact wake j (by omega) hcan
  | receive => exact receive j (by omega) hcan
  | stop    => exact stop j (by omega) hcan
  | _       => exact ha

theorem exists_done (e : Execution p start) (a : Attends p h start)
    (hk : 0 < p.settings.writer.capacity) (hfair : e.Fair) : ∃ i r, (e.state i).reader = .done r := by
  -- The induction is on what is left to do.
  have from_here (n i : Nat) (hn : (e.state i).toDo = n) : ∃ i r, (e.state i).reader = .done r := by
    induction n using Nat.strong_induction_on generalizing i with
    | _ n ih =>
      by_contra hx
      have hd (j : Nat) (_ : j ≥ i) (r) : (e.state j).reader ≠ .done r := fun hr => hx ⟨j, r, hr⟩
      have ⟨j, hij, ha⟩ := e.next_advance a hk hfair hd
      have ⟨_, a'⟩ := e.attends a j
      have ⟨ns, hs⟩ := e.next j
      have hl : (e.state (j + 1)).toDo < (e.state j).toDo := (toDo_of_step a' hs).right ha
      have hle : (e.state j).toDo ≤ (e.state i).toDo := e.toDo_antitone a hij
      exact hx (ih _ (by omega) (j + 1) rfl)
  exact from_here _ 0 rfl

end Execution

def State.usual (p : Plan) (s : State) : Move :=
  (State.order.find? fun m => (s.step? p m).isSome).getD (.pass 0)

theorem can_usual : s.Can p (s.usual p) := by
  rw [State.usual]
  cases hf : State.order.find? fun m => (s.step? p m).isSome with
  | none   => rfl
  | some m => exact List.find?_some (p := fun m => (s.step? p m).isSome) hf

theorem usual_ne_cancel : s.usual p ≠ .cancel := by
  rw [State.usual]
  cases hf : State.order.find? fun m => (s.step? p m).isSome with
  | none   => nofun
  | some m =>
    rintro rfl
    simpa [State.order] using List.mem_of_find?_eq_some hf

def State.after (p : Plan) (start : State) : Nat → State
  | 0     => start
  | i + 1 => ((start.after p i).step? p ((start.after p i).usual p)).get can_usual |>.2

theorem after_of_idle (hn : ∀ m ∈ State.order, ¬(start.after p i).Can p m) (hij : i ≤ j) :
    start.after p j = start.after p i := by
  induction j, hij using Nat.le_induction with
  | base => rfl
  | succ j _ ih =>
    have hu : (start.after p i).usual p = .pass 0 := by
      rw [State.usual, List.find?_eq_none.mpr hn]
      rfl
    have hs : (start.after p i).step? p (.pass 0) = some ([], start.after p i) := rfl
    simp only [State.after, ih, hu, hs, Option.get_some]

namespace Execution

def usual (p : Plan) (start : State) : Execution p start where
  state  := start.after p
  move i := (start.after p i).usual p
  first  := rfl
  next _ := ⟨_, (Option.some_get can_usual).symm⟩

theorem fair_usual (hn : ∀ m ∈ State.order, ¬(start.after p i).Can p m) : (usual p start).Fair := by
  intro m hu often
  have ⟨j, hij, hcan⟩ := often i
  have hm : m ∈ State.order := by cases m <;> simp [State.order, Move.IsUrged] at hu ⊢
  have he : (usual p start).state j = start.after p i := after_of_idle hn hij
  exact absurd (he ▸ hcan) (hn m hm)

theorem inTime_usual (hn : ∀ m ∈ State.order, ¬(start.after p i).Can p m)
    (ht : ∀ k ≤ i, Representable ((start.after p k).writer.now + p.settings.writer.interval)) :
    (usual p start).InTime := by
  intro j _
  rcases Nat.le_total j i with hji | hij
  case inl => exact ht j hji
  case inr =>
    have he : (usual p start).state j = start.after p i := after_of_idle hn hij
    exact he ▸ ht i (Nat.le_refl i)

end Execution

end WriteBehind.Ingest
