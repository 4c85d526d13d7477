import WriteBehind.Proofs.Writer.Chunked
import WriteBehind.Proofs.Writer.Frame

namespace WriteBehind.Writer

open Flush (Receipt)
open Flush.Attempt (Within)

variable {Op Ans : Type} {w : Setup Op Ans} {s s' : State Op Ans} {os : History Op Ans}
variable {aim : Aim} {buffer : List Record} {a : Flush.Attempt Op Ans}

def Aim.toDo : Aim → Nat
  | .tick _ => 2
  | .last   => 1

-- How often the loop can still come to a new place. From an attempt for a tick it comes back.
def Loop.toDo : Loop Op Ans → Nat
  | .absent         => 4
  | .starting       => 3
  | .listening ..   => 2
  | .writing aim .. => aim.toDo
  | .ended          => 0
  | .broken         => 0

-- A save that waits has to enter the queue and to leave it.
def State.toDo (s : State Op Ans) : Nat :=
  2 * s.intake.waiting.length + s.intake.queue.length + s.loop.toDo

theorem toDo_of_proceeds (p : Proceeds aim buffer a s os s') :
    s'.toDo ≤ 2 * s.intake.waiting.length + s.intake.queue.length + aim.toDo := by
  cases p with
  | ask         => exact Nat.le_refl _
  | crash       => simp [State.toDo, Loop.toDo]; omega
  | settle _ ha => exact ha ▸ Nat.le_refl _
  | finish _ ha => simp [State.toDo, State.finish, Loop.toDo]

theorem toDo_of_turn (u : Turn w s os s') : s'.toDo ≤ s.toDo := by
  cases u with
  | wake hl         => simp [State.toDo, hl, Loop.toDo]
  | fail hl         => simp [State.toDo, hl, Loop.toDo]; omega
  | receive hl hq   => simp [State.toDo, hl, hq, Loop.toDo]
  | idle hl         => simp [State.toDo, hl, Loop.toDo]
  | tick hl _ _ _ p =>
    exact (toDo_of_proceeds p).trans (by simp [State.toDo, hl, State.begun, Loop.toDo, Aim.toDo])
  | answer hl p     => exact (toDo_of_proceeds p).trans (by simp [State.toDo, hl, Loop.toDo])
  | drain hl _ _ _ p =>
    have ht := toDo_of_proceeds p
    simp [State.toDo, hl, Loop.toDo, Aim.toDo, State.begun, State.gathered] at ht ⊢
    omega
  | discard hl =>
    simp [State.toDo, hl, Loop.toDo, State.finish, State.gathered]
    omega

theorem toDo_of_wake (hs : s.wake w = some (os, s')) : s'.toDo < s.toDo := by
  simp only [State.wake] at hs
  split at hs
  case h_2 => cases hs
  case h_1 hl =>
    split at hs
    · cases hs; simp [State.toDo, hl, Loop.toDo]
    · cases hs; simp [State.toDo, hl, Loop.toDo]; omega

theorem toDo_of_receive (hs : s.receive = some (os, s')) : s'.toDo < s.toDo := by
  simp only [State.receive] at hs
  split at hs
  case h_2 => cases hs
  case h_1 hl hq => cases hs; simp [State.toDo, hl, hq, Loop.toDo]

theorem toDo_of_wind {next : Nat} (hl : s.loop = .listening buffer next) :
    (s.wind w buffer).2.toDo < s.toDo := by
  simp only [State.wind]
  split
  case isTrue =>
    have ht := toDo_of_proceeds (proceeds .last (buffer ++ s.intake.queue)
      (w.policy.drain (buffer ++ s.intake.queue)) s.gathered.begun)
    simp [State.toDo, hl, Loop.toDo, Aim.toDo, State.begun, State.gathered, State.attempt] at ht ⊢
    omega
  case isFalse =>
    simp [State.toDo, hl, Loop.toDo, State.finish]
    omega

theorem toDo_of_stop (hs : s.stop w = some (os, s')) : s'.toDo < s.toDo := by
  simp only [State.stop] at hs
  split at hs
  case h_2 => cases hs
  case h_1 hl _ => cases hs; exact toDo_of_wind hl

theorem capacity_of_reachable {h : History Op Ans} (r : Reachable w h s) :
    s.intake.capacity = w.settings.capacity := by
  apply r.induct
  case start => rfl
  case keep =>
    intro h s e os s' _ hi hs
    cases change_of_step hs with
    | call c  => exact c.capacity.trans hi
    | start   => exact hi
    | turn u  => exact (kept_of_turn u).capacity.trans hi

section Calls

variable {t : Ticket} {r : Record}

theorem isSome_save (hh : s.isHeld = true) : (s.save t r).isSome := by
  simp only [State.save, hh, Bool.not_true, Bool.false_eq_true, if_false]
  cases s.phase with
  | fresh | closed => rfl
  | running =>
    dsimp only
    split
    case isTrue  => rfl
    case isFalse => split <;> rfl

theorem isSome_resume (hw : s.intake.waiting = [⟨t, r⟩]) (hq : s.intake.queue = [])
    (hk : 0 < s.intake.capacity) : (s.resume t).isSome := by
  have hr : s.waiter? t = some (0, r) := waiter_of_head hw
  have hg : s.intake.Granted 0 := by simpa [Intake.Granted, Intake.room, hq] using hk
  simp only [State.resume, hr, hg, if_true, Option.bind_eq_bind, Option.bind_some]
  split <;> rfl

end Calls

theorem begun_of_turn (u : Turn w s os s') : s'.loop ≠ .absent ∧ s'.loop ≠ .starting := by
  have of_proceeds {aim buffer} {a : Flush.Attempt Op Ans} {s₀ os}
      (p : Proceeds aim buffer a s₀ os s') : s'.loop ≠ .absent ∧ s'.loop ≠ .starting := by
    cases p <;> simp [State.finish]
  cases u with
  | tick _ _ _ _ p  => exact of_proceeds p
  | drain _ _ _ _ p => exact of_proceeds p
  | answer _ p      => exact of_proceeds p
  | _               => simp [State.finish]

def Loop.Waits : Loop Op Ans → Prop
  | .writing .. => True
  | _           => False

-- How many answers it can wait for, one after the other, before it goes on.
inductive Loop.Awaits : Nat → Loop Op Ans → Prop
  | none {n : Nat} {l : Loop Op Ans} :
    ¬l.Waits →
    Awaits n l
  | answer {n : Nat} {aim : Aim} {buffer : List Record} {op : Op} {go : Ans → Flush.Attempt Op Ans} :
    (∀ x, Within n (go x)) →
    Awaits (n + 1) (.writing aim buffer op go)

theorem awaits_of_reachable {settings : Settings} {size : Nat} {h : History (List Record) Receipt}
    {s : State (List Record) Receipt} (r : Reachable (inChunks settings size) h s) :
    ∃ n, s.loop.Awaits n := by
  cases hl : s.loop with
  | writing aim buffer chunk go =>
    obtain ⟨_, _, _, _, c, _⟩ := (Stands.of_reachable r).of_writing hl
    cases aim with
    | tick =>
      obtain ⟨_, hw⟩ := Flush.within_flush size buffer
      obtain ⟨n, hn⟩ := c.within hw rfl
      exact ⟨n + 1, .answer hn⟩
    | last =>
      obtain ⟨n, hn⟩ := c.within (Flush.within_drain size buffer) rfl
      exact ⟨n + 1, .answer hn⟩
  | _ => exact ⟨0, .none id⟩

theorem awaits_of_proceeds {n : Nat} (p : Proceeds aim buffer a s os s') (hw : Within n a) :
    s'.loop.Awaits n := by
  cases p with
  | ask hp =>
    obtain ⟨m, rfl, hg⟩ := hw.pause hp
    exact .answer hg
  | crash | settle => exact .none id
  | finish         => exact .none id

theorem awaits_of_answer {op : Op} {go} {x : Ans} {ns : List Log.Notice} {n : Nat}
    (hs : s.answer ns x = some (os, s')) (hl : s.loop = .writing aim buffer op go)
    (hw : Within n (go x)) : s'.loop.Awaits n := by
  simp only [State.answer, hl] at hs
  cases hs
  exact awaits_of_proceeds (proceeds aim buffer (go x) s) hw

end WriteBehind.Writer
