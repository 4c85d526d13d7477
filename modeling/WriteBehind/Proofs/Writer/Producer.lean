import Mathlib.Data.List.Basic
import WriteBehind.Proofs.Writer.Frame

namespace WriteBehind.Writer

open History (endings endings_saved endings_abandoned)

variable {Op Ans : Type} {w : Setup Op Ans} {h os : History Op Ans} {s s' : State Op Ans}
variable {t t' : Ticket} {r : Record} {rs : List Record} {i : Nat}

def State.inLine (t : Ticket) (s : State Op Ans) : List Record :=
  (s.intake.waiting.filter (·.ticket = t)).map (·.record)

def Event.saves (t : Ticket) : Event Ans → List Record
  | .save t' r => if t' = t then [r] else []
  | _          => []

inductive Produces (w : Setup Op Ans) (t : Ticket) :
    List Record → History Op Ans → State Op Ans → Prop
  | start : Produces w t [] [] w.start
  | step {rs : List Record} {h os : History Op Ans} {s s' : State Op Ans} {e : Event Ans} :
    Produces w t rs h s →
    s.inLine t = [] ∨ e.saves t = [] →
    s.step? w e = some (os, s') →
    Produces w t (rs ++ e.saves t) (h ++ os) s'

theorem Produces.reachable (p : Produces w t rs h s) : Reachable w h s := by
  induction p with
  | start          => exact .refl
  | step _ _ hs hi => exact .step hi hs

theorem waiting_of_waiter (hw : s.waiter? t = some (i, r)) :
    ∃ before after, s.intake.waiting = before ++ ⟨t, r⟩ :: after ∧
      s.intake.waiting.eraseIdx i = before ++ after ∧ ∀ b ∈ before, b.ticket ≠ t := by
  simp only [State.waiter?, Intake.index?, Option.bind_eq_bind, Option.bind_eq_some_iff,
    Option.pure_def, Option.some.injEq, Prod.mk.injEq] at hw
  obtain ⟨i, hi, b, hb, rfl, rfl⟩ := hw
  obtain ⟨hl, ht, hf⟩ := List.findIdx?_eq_some_iff_getElem.mp hi
  obtain rfl : s.intake.waiting[i] = b := Option.some.inj <| (List.getElem?_eq_getElem hl).symm.trans hb
  obtain rfl : s.intake.waiting[i].ticket = t := of_decide_eq_true ht
  refine ⟨_, _, ?_, List.eraseIdx_eq_take_drop_succ _ i, fun b hb => ?_⟩
  · rw [List.getElem_cons_drop, List.take_append_drop]
  · obtain ⟨j, hj, rfl⟩ := List.mem_take_iff_getElem.mp hb
    simpa using hf j (by omega)

theorem inLine_of_waiter (hw : s.waiter? t = some (i, r))
    (hq : s'.intake.waiting = s.intake.waiting.eraseIdx i) (t' : Ticket) :
    s.inLine t' = (if t = t' then [r] else []) ++ s'.inLine t' := by
  obtain ⟨before, after, hb, he, hf⟩ := waiting_of_waiter hw
  simp only [State.inLine, hq, he]
  rw [hb]
  by_cases ht : t = t'
  case neg => simp [ht]
  case pos =>
    have hf : before.filter (·.ticket = t') = [] :=
      List.filter_eq_nil_iff.mpr fun b h => by simpa [← ht] using hf b h
    simp [ht, hf]

section Calls

variable {e : Event Ans}

theorem saves_still (ho : os.endings t = []) (hw : s'.intake.waiting = s.intake.waiting) :
    s.inLine t ++ [] = (os.endings t).map (·.1) ++ s'.inLine t := by
  simp [State.inLine, ho, hw]

theorem saves_at_once {ok : Bool} (ho : os.endings t = if t' = t then [(r, ok)] else [])
    (hw : s'.intake.waiting = s.intake.waiting)
    (hn : s.inLine t = [] ∨ (Event.save t' r : Event Ans).saves t = []) :
    s.inLine t ++ (Event.save t' r : Event Ans).saves t = (os.endings t).map (·.1) ++ s'.inLine t := by
  have hl : s'.inLine t = s.inLine t := by simp only [State.inLine, hw]
  by_cases ht : t' = t
  case pos =>
    have hl' : s.inLine t = [] := hn.resolve_right (by simp [Event.saves, ht])
    simp [Event.saves, ho, ht, hl, hl']
  case neg => simp [Event.saves, ho, ht, hl]

theorem saves_of_waiter {ok : Bool} (hw : s.waiter? t' = some (i, r))
    (ho : os.endings t = if t' = t then [(r, ok)] else [])
    (hq : s'.intake.waiting = s.intake.waiting.eraseIdx i) :
    s.inLine t ++ [] = (os.endings t).map (·.1) ++ s'.inLine t := by
  rw [List.append_nil, inLine_of_waiter hw hq t, ho]
  split <;> rfl

-- The calls that are made join the line, and those that end have left it in front.
theorem saves_of_step (hs : s.step? w e = some (os, s')) (hn : s.inLine t = [] ∨ e.saves t = []) :
    s.inLine t ++ e.saves t = (os.endings t).map (·.1) ++ s'.inLine t := by
  rcases acts_or_turn hs with a | ⟨u, ht⟩
  case inr =>
    have he : e.saves t = [] := by
      rcases ht with ht | ⟨_, _, rfl⟩
      case inr => rfl
      case inl =>
        cases e with
        | save => exact ht.elim
        | _    => rfl
    rw [he]
    exact saves_still ((silent_of_turn u).right t) (kept_of_turn u).waiting
  case inl =>
    cases a with
    | refuse | fail | enter  => exact saves_at_once endings_saved rfl hn
    | resume hw | shutOut hw => exact saves_of_waiter hw endings_saved rfl
    | giveUp hw              => exact saves_of_waiter hw endings_abandoned rfl
    | @wait t'               =>
      by_cases ht : t' = t <;> simp [State.inLine, Event.saves, Intake.wait, ht]
    | _                      => exact saves_still rfl rfl

end Calls

theorem Produces.balance (p : Produces w t rs h s) : (h.endings t).map (·.1) ++ s.inLine t = rs := by
  induction p with
  | start => rfl
  | step _ hn hs hi =>
    rw [History.endings_append, List.map_append, List.append_assoc, ← saves_of_step hs hn,
      ← List.append_assoc, hi]

def State.follow (w : Setup Op Ans) (t : Ticket) (s : State Op Ans) :
    List (Event Ans) → Option (List Record × History Op Ans × State Op Ans)
  | []      => some ([], [], s)
  | e :: es =>
    if s.inLine t = [] ∨ e.saves t = [] then do
      let (os, s) ← s.step? w e
      let (rs, os', s) ← s.follow w t es
      return (e.saves t ++ rs, os ++ os', s)
    else none

theorem Run.follow {s₀ : State Op Ans} {es : List (Event Ans)} (l : Run w s₀ h s)
    (hf : s.follow w t es = some (rs, os, s')) : Run w s₀ (h ++ os) s' := by
  induction es generalizing rs h s os with
  | nil =>
    cases hf
    simpa using l
  | cons e es hi =>
    simp only [State.follow] at hf
    split at hf
    case isFalse => cases hf
    case isTrue =>
      obtain ⟨⟨os₁, s₁⟩, hs, hb⟩ := Option.bind_eq_some_iff.mp hf
      obtain ⟨⟨rs₂, os₂, s₂⟩, hr, he⟩ := Option.bind_eq_some_iff.mp hb
      cases he
      have l' := hi (l.step hs) hr
      simpa using l'

theorem Produces.follow {es : List (Event Ans)} {rs' : List Record} (p : Produces w t rs h s)
    (hf : s.follow w t es = some (rs', os, s')) : Produces w t (rs ++ rs') (h ++ os) s' := by
  induction es generalizing rs h s rs' os with
  | nil =>
    cases hf
    simpa using p
  | cons e es hi =>
    simp only [State.follow] at hf
    split at hf
    case isFalse => cases hf
    case isTrue hn =>
      obtain ⟨⟨os₁, s₁⟩, hs, hb⟩ := Option.bind_eq_some_iff.mp hf
      obtain ⟨⟨rs₂, os₂, s₂⟩, hr, he⟩ := Option.bind_eq_some_iff.mp hb
      cases he
      have p' := hi (p.step hn hs) hr
      simpa using p'

end WriteBehind.Writer
