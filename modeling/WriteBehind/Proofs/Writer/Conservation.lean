import Mathlib.Data.List.Flatten
import WriteBehind.Proofs.Writer.Chunked
import WriteBehind.Proofs.Writer.Producer

namespace WriteBehind.Writer

open Flush (Receipt taken)

variable {settings : Settings} {size : Nat} {t : Ticket} {rs : List Record}
variable {h : History (List Record) Receipt} {s : State (List Record) Receipt}

def History.saved (h : History (List Record) Receipt) : List Record := h.accepted.map (·.2)

-- The saves whose records the storage has taken: as many of the first as there are such records.
def History.written (h : History (List Record) Receipt) : List (Ticket × Record) :=
  h.accepted.take h.acknowledged.flatten.length

def inProgress (h : History (List Record) Receipt) (s : State (List Record) Receipt) :
    List (List Record) :=
  match s.loop with
  | .writing .. => h.sinceAttempt.acknowledged
  | _           => []

def unwritten (h : History (List Record) Receipt) (s : State (List Record) Receipt) : List Record :=
  s.loop.buffer.drop (inProgress h s).flatten.length

def Loop.IsOver {Op Ans : Type} : Loop Op Ans → Prop
  | .ended | .broken => True
  | _                => False

theorem Loop.IsOver.isDone {Op Ans : Type} {l : Loop Op Ans} (hl : l.IsOver) : l.IsDone := by
  cases l <;> simp_all [IsOver, IsDone]

theorem Loop.IsOver.buffer_eq_nil {Op Ans : Type} {l : Loop Op Ans} (hl : l.IsOver) :
    l.buffer = [] := by
  cases l <;> simp_all [IsOver, buffer]

theorem Loop.IsOver.not_turn {Op Ans : Type} {w : Setup Op Ans} {os : History Op Ans} {s s' : State Op Ans}
    (ho : s.loop.IsOver) : ¬Turn w s os s' := by
  intro u
  cases u <;> simp_all [Loop.IsOver]

theorem isOver_of_join {Op Ans : Type} {os : History Op Ans} {s s' : State Op Ans}
    (hs : s.join = some (os, s')) : s'.loop.IsOver := by
  rw [(call_of_join hs).loop]
  rcases (loop_of_join hs).left with hl | hl <;> simp [hl, Loop.IsOver]

-- Each accepted record is in one place.
structure Conserved (settings : Settings) (h : History (List Record) Receipt)
    (s : State (List Record) Receipt) : Prop where
  buffered : (inProgress h s).flatten ++ unwritten h s = s.loop.buffer
  places   : ¬s.loop.IsOver →
    h.acknowledged.flatten ++ unwritten h s ++ s.intake.queue = h.saved
  once     : h.acknowledged.flatten <+: h.saved
  offered  : ∀ q ∈ h.answers, q.1 ⊆ h.saved
  nowhere  : ∀ r ∉ h.saved, r ∉ h.acknowledged.flatten ∧ r ∉ s.loop.buffer ∧ r ∉ s.intake.queue
  unbroken : Representable (s.now + settings.interval) → s.loop ≠ .broken

-- The calls of one producer, with these records, end in order. What the storage has taken of them is
-- the first of those that have succeeded.
structure InOrder (t : Ticket) (rs : List Record) (h : History (List Record) Receipt)
    (s : State (List Record) Receipt) : Prop where
  calls    : (h.endings t).map (·.1) ++ s.inLine t = rs
  accepted : (h.accepted.filter (·.1 = t)).map (·.2) = ((h.endings t).filter (·.2)).map (·.1)
  written  : h.written.map (·.2) = h.acknowledged.flatten
  first    : (h.written.filter (·.1 = t)).map (·.2) <+: ((h.endings t).filter (·.2)).map (·.1)

theorem inProgress_sublist (h : History (List Record) Receipt) (s : State (List Record) Receipt) :
    (inProgress h s).Sublist h.acknowledged := by
  have hs : h.sinceAttempt <:+ h := by
    rw [← List.reverse_prefix, History.sinceAttempt, List.reverse_reverse]
    exact List.takeWhile_prefix _
  rw [inProgress]
  split
  · exact (hs.sublist.filterMap _).filterMap _
  · exact List.nil_sublist _

theorem Stands.placed (st : Stands (inChunks settings size) h s) :
    (inProgress h s).flatten ++ unwritten h s = s.loop.buffer ∧
      (¬s.loop.IsOver → h.acknowledged.flatten ++ unwritten h s = h.received) := by
  have idle (hl : inProgress h s = []) : unwritten h s = s.loop.buffer := by
    rw [unwritten, hl]
    rfl
  cases st with
  | idle hl _ hx hr _ =>
    have hp : inProgress h s = [] := by rcases hl with hl | hl <;> rw [inProgress, hl]
    have hb : s.loop.buffer = [] := by rcases hl with hl | hl <;> rw [hl] <;> rfl
    have ha : h.acknowledged = [] := by rw [History.acknowledged_eq, hx]; rfl
    rw [idle hp, hp, hb, ha, hr]
    exact ⟨rfl, fun _ => rfl⟩
  | listening hl b _ =>
    have hp : inProgress h s = [] := by rw [inProgress, hl]
    rw [idle hp, hp, hl]
    exact ⟨rfl, fun _ => b.whole⟩
  | @writing aim buffer op go pre post hl u _ c _ =>
    have ⟨done, hq, hd⟩ := attempt_ask c
    have hpost : post.acknowledged = done := by
      rw [History.acknowledged_eq, hq, Flush.taken_allTaken]
    have hp : inProgress h s = done := by
      rw [inProgress, hl]
      exact u.last.sinceAttempt_eq.symm ▸ hpost
    have hu : unwritten h s = buffer.drop done.flatten.length := by
      rw [unwritten, hp, hl]
      rfl
    have hb : done.flatten ++ buffer.drop done.flatten.length = buffer := by
      have hd : done.flatten <+: buffer := by
        rw [List.flatten_append] at hd
        exact (List.prefix_append _ _).trans hd
      rw [← List.prefix_iff_eq_append.mp hd]
      simp
    refine ⟨by rw [hp, hu, hl]; exact hb, fun _ => ?_⟩
    calc h.acknowledged.flatten ++ unwritten h s
      _ = pre.acknowledged.flatten ++ (done.flatten ++ buffer.drop done.flatten.length) := by
        rw [acknowledged_of_last u.last, hpost, hu, List.flatten_append, List.append_assoc]
      _ = h.received := by rw [hb, u.whole]
  | drained hl | discarded hl | failed hl | crashed hl =>
    have hp : inProgress h s = [] := by rw [inProgress, hl]
    rw [idle hp, hp, hl]
    exact ⟨rfl, fun hn => absurd trivial hn⟩

theorem Stands.prefix_taken (st : Stands (inChunks settings size) h s) :
    h.acknowledged.flatten <+: h.received ∧ ∀ q ∈ h.answers, q.1 ⊆ h.received := by
  have none (hx : h.answers = []) :
      h.acknowledged.flatten <+: h.received ∧ ∀ q ∈ h.answers, q.1 ⊆ h.received := by
    rw [History.acknowledged_eq, hx]
    simp
  cases st with
  | idle _ _ hx => exact none hx
  | failed _ _ hx => exact none hx
  | listening _ b => exact ⟨⟨_, b.whole⟩, b.offers⟩
  | discarded _ b => exact ⟨⟨_, b.whole⟩, b.offers⟩
  | writing hl u hlast c hd =>
    have st : Stands (inChunks settings size) h s := .writing hl u hlast c hd
    exact ⟨⟨_, st.placed.right (by simp [hl, Loop.IsOver])⟩, u.offers c⟩
  | @drained pre post rs o _ u _ _ c _ =>
    have c : Flush.Attempt.Course ((inChunks settings size).attempt .last rs) _ _ := c
    refine ⟨⟨o.left rs, ?_⟩, u.offers c⟩
    calc h.acknowledged.flatten ++ o.left rs
      _ = pre.acknowledged.flatten ++ (post.acknowledged.flatten ++ o.left rs) := by
        rw [acknowledged_of_last u.last, List.flatten_append, List.append_assoc]
      _ = h.received := by
        rw [History.acknowledged_eq post, attempt_done c, u.whole]
  | crashed _ _ c => exact absurd c attempt_not_crash

-- A step breaks the loop only where it starts and the clock cannot represent when the first tick is due.
theorem broken_of_step {e : Event Receipt} (r : Reachable (inChunks settings size) h s)
    (hs : s.step? (inChunks settings size) e = some (os, s')) (hl : s'.loop = .broken) :
    s.loop = .broken ∧ s.now ≤ s'.now ∨
      s.loop = .starting ∧ ¬Representable (s.now + settings.interval) ∧ s'.now = s.now :=
  inChunks_isCalm.broken_of_step r hs hl

theorem unrepresentable_of_broken (r : Reachable (inChunks settings size) h s)
    (hl : s.loop = .broken) : ¬Representable (s.now + settings.interval) :=
  inChunks_isCalm.unrepresentable r hl

theorem received_append_queue (r : Reachable (inChunks settings size) h s) (hl : s.loop ≠ .broken) :
    h.received ++ s.intake.queue = h.saved :=
  ((Flow.of_reachable r).carried hl).queued

-- Whatever happens in whatever order, each accepted record is in one place, and the records of a
-- producer keep its order.
theorem records_conserved (r : Reachable (inChunks settings size) h s) :
    Conserved settings h s ∧
      ∀ t rs, Produces (inChunks settings size) t rs h s → InOrder t rs h s := by
  have st := Stands.of_reachable r
  have ⟨hp, hs⟩ := st.placed
  have places (hn : ¬s.loop.IsOver) :
      h.acknowledged.flatten ++ unwritten h s ++ s.intake.queue = h.saved := by
    rw [hs hn, received_append_queue r (fun hl => hn (by simp [hl, Loop.IsOver]))]
  have ⟨once, offered⟩ : h.acknowledged.flatten <+: h.saved ∧ ∀ q ∈ h.answers, q.1 ⊆ h.saved := by
    have ⟨ht, ho⟩ := st.prefix_taken
    by_cases hl : s.loop = .broken
    case pos =>
      have ⟨_, hx, _⟩ := st.of_broken hl
      rw [History.acknowledged_eq, hx]
      simp
    case neg =>
      have hr : h.received <+: h.saved := ⟨_, received_append_queue r hl⟩
      exact ⟨ht.trans hr, fun q hq => List.Subset.trans (ho q hq) hr.subset⟩
  refine ⟨⟨hp, places, once, offered, fun x hx => ?_, ?_⟩, fun t rs p => ?_⟩
  case refine_1 =>
    refine ⟨fun h => hx (once.subset h), ?_⟩
    have hb : s.loop.buffer ++ s.intake.queue ⊆ h.saved := by
      by_cases hn : s.loop.IsOver
      case pos =>
        have hq : s.intake.queue = [] := (Flow.of_reachable r).queue_eq_nil hn.isDone
        rw [hq, hn.buffer_eq_nil]
        exact List.nil_subset _
      case neg =>
        have ha := (inProgress_sublist h s).flatten
        rw [← places hn, ← hp]
        exact ((ha.append_right _).append_right _).subset
    exact ⟨fun h => hx (hb (List.mem_append_left _ h)), fun h => hx (hb (List.mem_append_right _ h))⟩
  case refine_2 => exact fun hr hl => unrepresentable_of_broken r hl hr
  case refine_3 =>
    have hw : h.written.map (·.2) = h.acknowledged.flatten := by
      rw [History.written, List.map_take]
      exact (List.prefix_iff_eq_take.mp once).symm
    refine ⟨p.balance, History.accepted_of_ticket t h, hw, ?_⟩
    rw [← History.accepted_of_ticket t h]
    exact ((List.take_prefix _ _).filter _).map _

-- Two producers with one place in the queue: a save waits, another is given up, and the storage has taken
-- the first of two chunks when a third record comes.
def crowded : List (Event Receipt) :=
  [.start 0, .wake, .save 1 (.uniform 1), .save 2 (.uniform 2), .receive, .save 1 (.uniform 3), .resume 2,
    .giveUp 1, .receive, .pass 1000000000, .tick, .save 1 (.uniform 4), .answer [] (.ok ())]

theorem records_conserved_of_crowded :
    ∃ rs h s, Produces (inChunks { capacity := 1 } 1) 1 rs h s ∧
      rs = [.uniform 1, .uniform 3, .uniform 4] ∧
      (h.acknowledged, unwritten h s, s.intake.queue)
        = ([[.uniform 1]], [.uniform 2], [.uniform 4]) ∧
      Conserved { capacity := 1 } h s ∧ InOrder 1 rs h s := by
  let w := inChunks { capacity := 1 } 1
  have hm : (w.start.follow w 1 crowded).map
      (fun x => (x.1, x.2.1.acknowledged, unwritten x.2.1 x.2.2, x.2.2.intake.queue))
      = some ([.uniform 1, .uniform 3, .uniform 4], [[.uniform 1]], [.uniform 2], [.uniform 4]) := by
    decide +kernel
  have ⟨⟨rs, h, s⟩, hf, he⟩ := Option.map_eq_some_iff.mp hm
  have p : Produces w 1 rs h s := .follow .start hf
  have ⟨hr, hp⟩ := Prod.mk.inj he
  have hc := records_conserved p.reachable
  exact ⟨rs, h, s, p, hr, hp, hc.left, hc.right 1 rs p⟩

end WriteBehind.Writer
