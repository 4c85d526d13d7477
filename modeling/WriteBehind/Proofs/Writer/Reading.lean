import Mathlib.Data.List.TakeWhile
import WriteBehind.Proofs.Flush.Course
import WriteBehind.Writer.History

namespace WriteBehind.Writer.History

open Log (Notice)
open Flush (Receipt taken)

variable {Op Ans : Type} {h h' : History Op Ans} {o : Occurrence Op Ans} {ns : List Notice}
variable {t : Ticket}

theorem filterMap_logged {β : Type} (f : Occurrence Op Ans → Option β)
    (hf : ∀ n, f (.logged n) = none) (ns : List Notice) : (ns.map .logged).filterMap f = [] := by
  rw [List.filterMap_map]
  exact List.filterMap_eq_nil_iff.mpr fun n _ => hf n

@[simp] theorem accepted_nil : accepted ([] : History Op Ans) = [] := rfl

@[simp] theorem accepted_append : accepted (h ++ h') = accepted h ++ accepted h' :=
  List.filterMap_append

@[simp] theorem accepted_logged : accepted (ns.map .logged : History Op Ans) = [] :=
  filterMap_logged _ (fun _ => rfl) ns

@[simp] theorem accepted_received {rs : List Record} :
    accepted (rs.map .received : History Op Ans) = [] := by
  simp [accepted, List.filterMap_map]

theorem accepted_cons : accepted (o :: h) = accepted [o] ++ accepted h :=
  accepted_append (h := [o])

@[simp] theorem received_nil : received ([] : History Op Ans) = [] := rfl

@[simp] theorem received_append : received (h ++ h') = received h ++ received h' :=
  List.filterMap_append

@[simp] theorem received_logged : received (ns.map .logged : History Op Ans) = [] :=
  filterMap_logged _ (fun _ => rfl) ns

@[simp] theorem received_received {rs : List Record} :
    received (rs.map .received : History Op Ans) = rs := by
  simp [received, List.filterMap_map]

theorem received_cons : received (o :: h) = received [o] ++ received h :=
  received_append (h := [o])

@[simp] theorem attempts_nil : attempts ([] : History Op Ans) = [] := rfl

@[simp] theorem attempts_append : attempts (h ++ h') = attempts h ++ attempts h' :=
  List.filterMap_append

@[simp] theorem attempts_logged : attempts (ns.map .logged : History Op Ans) = [] :=
  filterMap_logged _ (fun _ => rfl) ns

@[simp] theorem attempts_received {rs : List Record} :
    attempts (rs.map .received : History Op Ans) = [] := by
  simp [attempts, List.filterMap_map]

theorem attempts_cons : attempts (o :: h) = attempts [o] ++ attempts h :=
  attempts_append (h := [o])

@[simp] theorem outcomes_nil : outcomes ([] : History Op Ans) = [] := rfl

@[simp] theorem outcomes_append : outcomes (h ++ h') = outcomes h ++ outcomes h' :=
  List.filterMap_append

@[simp] theorem outcomes_logged : outcomes (ns.map .logged : History Op Ans) = [] :=
  filterMap_logged _ (fun _ => rfl) ns

@[simp] theorem outcomes_received {rs : List Record} :
    outcomes (rs.map .received : History Op Ans) = [] := by
  simp [outcomes, List.filterMap_map]

theorem outcomes_cons : outcomes (o :: h) = outcomes [o] ++ outcomes h :=
  outcomes_append (h := [o])

@[simp] theorem answers_nil : answers ([] : History Op Ans) = [] := rfl

@[simp] theorem answers_append : answers (h ++ h') = answers h ++ answers h' :=
  List.filterMap_append

@[simp] theorem answers_logged : answers (ns.map .logged : History Op Ans) = [] :=
  filterMap_logged _ (fun _ => rfl) ns

@[simp] theorem answers_received {rs : List Record} :
    answers (rs.map .received : History Op Ans) = [] := by
  simp [answers, List.filterMap_map]

theorem answers_cons : answers (o :: h) = answers [o] ++ answers h :=
  answers_append (h := [o])

def endings (t : Ticket) (h : History Op Ans) : List (Record × Bool) :=
  h.filterMap fun
    | .saved t' r (.ok _)    => if t' = t then some (r, true) else none
    | .saved t' r (.error _) => if t' = t then some (r, false) else none
    | .abandoned t' r        => if t' = t then some (r, false) else none
    | _                      => none

@[simp] theorem endings_nil : endings t ([] : History Op Ans) = [] := rfl

@[simp] theorem endings_append : endings t (h ++ h') = endings t h ++ endings t h' :=
  List.filterMap_append

@[simp] theorem endings_logged : endings t (ns.map .logged : History Op Ans) = [] :=
  filterMap_logged _ (fun _ => rfl) ns

@[simp] theorem endings_received {rs : List Record} :
    endings t (rs.map .received : History Op Ans) = [] := by
  simp [endings, List.filterMap_map]

theorem endings_saved {t' : Ticket} {r : Record} {x : Except Fault Unit} :
    endings t ([.saved t' r x] : History Op Ans) = if t' = t then [(r, x.isOk)] else [] := by
  cases x <;> by_cases ht : t' = t <;> simp [endings, ht, Except.isOk, Except.toBool]

theorem endings_abandoned {t' : Ticket} {r : Record} :
    endings t ([.abandoned t' r] : History Op Ans) = if t' = t then [(r, false)] else [] := by
  by_cases ht : t' = t <;> simp [endings, ht]

theorem endings_cons : endings t (o :: h) = endings t [o] ++ endings t h :=
  endings_append (h := [o])

theorem accepted_of_ticket (t : Ticket) (h : History Op Ans) :
    (h.accepted.filter (·.1 = t)).map (·.2) = ((endings t h).filter (·.2)).map (·.1) := by
  induction h with
  | nil => rfl
  | cons o h hi =>
    rw [accepted_cons, endings_cons, List.filter_append, List.filter_append, List.map_append,
      List.map_append, hi]
    congr 1
    cases o with
    | saved t' r x =>
      rw [endings_saved]
      cases x <;> by_cases ht : t' = t <;> simp [accepted, ht, Except.isOk, Except.toBool]
    | abandoned t' r =>
      rw [endings_abandoned]
      by_cases ht : t' = t <;> simp [accepted, ht]
    | _ => rfl

structure Quiet (h : History Op Ans) : Prop where
  accepted : h.accepted = []
  received : h.received = []
  attempts : h.attempts = []
  answers  : h.answers = []
  endings  : ∀ t, h.endings t = []

theorem Quiet.append (q : Quiet h) (q' : Quiet h') : Quiet (h ++ h') where
  accepted := by simp [q.accepted, q'.accepted]
  received := by simp [q.received, q'.received]
  attempts := by simp [q.attempts, q'.attempts]
  answers  := by simp [q.answers, q'.answers]
  endings  := fun t => by simp [q.endings t, q'.endings t]

theorem Quiet.logged (ns : List Notice) : Quiet (ns.map .logged : History Op Ans) :=
  ⟨accepted_logged, received_logged, attempts_logged, answers_logged, fun _ => endings_logged⟩

theorem acknowledged_eq (h : History (List Record) Receipt) : h.acknowledged = taken h.answers := rfl

-- The part of a history before its last attempt, that attempt, and the part after it began.
structure LastAttempt (h pre : History Op Ans) (aim : Aim) (rs : List Record) (post : History Op Ans) :
    Prop where
  eq   : h = pre ++ .begun aim rs :: post
  none : post.attempts = []

namespace LastAttempt

variable {pre post pre' post' : History Op Ans} {aim aim' : Aim} {rs rs' : List Record}

theorem append (l : LastAttempt h pre aim rs post) (hn : h'.attempts = []) :
    LastAttempt (h ++ h') pre aim rs (post ++ h') where
  eq   := by rw [l.eq]; simp
  none := by simp [l.none, hn]

theorem attempts_eq (l : LastAttempt h pre aim rs post) :
    h.attempts = pre.attempts ++ [(aim, rs)] := by
  rw [l.eq, attempts_append, attempts_cons, l.none]
  rfl

theorem answers_eq (l : LastAttempt h pre aim rs post) : h.answers = pre.answers ++ post.answers := by
  rw [l.eq, answers_append, answers_cons]
  rfl

theorem received_eq (l : LastAttempt h pre aim rs post) :
    h.received = pre.received ++ post.received := by
  rw [l.eq, received_append, received_cons]
  rfl

theorem sinceAttempt_eq (l : LastAttempt h pre aim rs post) : h.sinceAttempt = post := by
  rw [sinceAttempt, l.eq, List.reverse_append, List.reverse_cons, List.append_assoc,
    List.takeWhile_append_of_pos, List.singleton_append, List.takeWhile_cons_of_neg (by simp),
    List.append_nil, List.reverse_reverse]
  intro o ho
  have hn := List.filterMap_eq_nil_iff.mp l.none o (List.mem_reverse.mp ho)
  cases o <;> simp_all

theorem unique (l : LastAttempt h pre aim rs post) (l' : LastAttempt h pre' aim' rs' post') :
    pre = pre' ∧ aim = aim' ∧ rs = rs' ∧ post = post' := by
  have he := l.eq.symm.trans l'.eq
  have attempts_ne {as bs : History Op Ans} {aim rs} : (as ++ .begun aim rs :: bs).attempts ≠ [] := by
    simp [attempts]
  rcases List.append_eq_append_iff.mp he with ⟨as, hp, hq⟩ | ⟨as, hp, hq⟩
  case inl =>
    cases as with
    | nil =>
      cases hq
      exact ⟨by simpa using hp.symm, rfl, rfl, rfl⟩
    | cons a as =>
      obtain ⟨-, rfl⟩ := List.cons.inj hq
      exact absurd l.none attempts_ne
  case inr =>
    cases as with
    | nil =>
      cases hq
      exact ⟨by simpa using hp, rfl, rfl, rfl⟩
    | cons a as =>
      obtain ⟨-, rfl⟩ := List.cons.inj hq
      exact absurd l'.none attempts_ne

end LastAttempt

def beforeLast (h : History Op Ans) : History Op Ans :=
  h.takeWhile fun o => !(o matches .begun .last _)

def OnTicks (h : History Op Ans) : Prop := ∀ a ∈ h.attempts, a.1 ≠ .last

theorem OnTicks.not_begun (ho : OnTicks h) {rs : List Record} : .begun .last rs ∉ h :=
  fun hm => ho (.last, rs) (List.mem_filterMap.mpr ⟨_, hm, rfl⟩) rfl

theorem OnTicks.beforeLast_eq (ho : OnTicks h) : h.beforeLast = h := by
  rw [beforeLast, List.takeWhile_eq_self_iff]
  intro o hm
  split
  · exact absurd hm ho.not_begun
  · rfl

theorem LastAttempt.beforeLast_eq {pre post : History Op Ans} {rs : List Record}
    (l : LastAttempt h pre .last rs post) (ho : OnTicks pre) : h.beforeLast = pre := by
  rw [beforeLast, l.eq, List.takeWhile_append_of_pos, List.takeWhile_cons_of_neg (by simp),
    List.append_nil]
  intro o hm
  split
  · exact absurd hm ho.not_begun
  · rfl

end WriteBehind.Writer.History
