import Mathlib.Data.List.Infix
import WriteBehind.Proofs.Writer.Alignment
import WriteBehind.Proofs.Writer.Counting

namespace WriteBehind.Writer

open Flush (NoneRefused Receipt allTaken taken)
open History (LastAttempt OnTicks)

variable {settings : Settings} {size : Nat} {rs buffer : List Record}
variable {h pre post : History (List Record) Receipt} {s : State (List Record) Receipt}

def History.remaining (h : History (List Record) Receipt) : List Record :=
  h.saved.drop h.beforeLast.acknowledged.flatten.length

-- What comes of the attempt at the end: all that remains is written, or its windows before the refused
-- one.
structure Drained (size : Nat) (h post : History (List Record) Receipt)
    (s : State (List Record) Receipt) : Prop where
  whole   : NoneRefused post.answers → h.acknowledged.flatten = h.saved ∧ s.stats.discarded = 0
  refused : ∀ xs chunk e ys, post.answers = xs ++ (chunk, .error e) :: ys →
    h.acknowledged
        = h.beforeLast.acknowledged ++ (Chunk.windows size h.remaining).take xs.length ∧
      s.stats.discarded = (h.remaining.drop (xs.length * size)).length

structure Accounted (settings : Settings) (size : Nat) (h : History (List Record) Receipt)
    (s : State (List Record) Receipt) : Prop where
  queue     : s.intake.queue = []
  received  : s.stats.received = h.saved.length
  balance   : h.acknowledged.flatten.length + s.stats.discarded = h.saved.length
  remaining : h.beforeLast.acknowledged.flatten ++ h.remaining = h.saved
  -- The one attempt that is not made for a tick comes when nothing more is accepted.
  drained   : settings.drainOnClose = true → h.remaining ≠ [] →
    ∃ pre post, LastAttempt h pre .last h.remaining post ∧ OnTicks pre ∧ post.accepted = [] ∧
      Drained size h post s
  discarded : (settings.drainOnClose = true → h.remaining = []) →
    OnTicks h ∧ h.acknowledged = h.beforeLast.acknowledged ∧
      s.stats.discarded = h.remaining.length

theorem remaining_of_append (he : h.beforeLast.acknowledged.flatten ++ rs = h.saved) :
    h.remaining = rs := by
  rw [History.remaining, ← he, List.drop_left]

theorem drained_of_last {o : Flush.Outcome} (hs : 0 < size)
    (u : Underway (inChunks settings size) h pre .last rs post)
    (c : Flush.Attempt.Course ((Flush.chunked size).drain rs) post.answers (.done o))
    (hS : h.received = h.saved) (hr : h.remaining = rs)
    (hd : s.stats.discarded = (o.left rs).length) : Drained size h post s := by
  have hb : h.beforeLast = pre := u.last.beforeLast_eq u.held.onTicks
  have ha : h.acknowledged = pre.acknowledged ++ taken post.answers := acknowledged_of_last u.last
  rcases Flush.drain_done hs c with ⟨hq, hl⟩ | ⟨done, chunk, later, e, hw, hq, hl⟩
  case inl =>
    have hn : NoneRefused post.answers := hq ▸ Flush.noneRefused_allTaken
    refine ⟨fun _ => ⟨?_, ?_⟩, fun xs chunk e ys he => ?_⟩
    · rw [ha, hq, Flush.taken_allTaken, List.flatten_append, Chunk.flatten_windows hs, u.whole, hS]
    · rw [hd, hl]
      rfl
    · have hx := hn (chunk, .error e) (he ▸ List.mem_append_right _ (List.mem_cons_self ..))
      cases hx
  case inr =>
    refine ⟨fun hn => absurd (hq ▸ hn) Flush.not_noneRefused_error, fun xs chunk' e' ys he => ?_⟩
    have hx : xs = allTaken done := Flush.eq_of_refused (hq.symm.trans he)
    have ht : (Chunk.windows size rs).take done.length = done := by rw [hw, List.take_left]
    have hf : rs = done.flatten ++ (chunk :: later).flatten := by
      rw [← List.flatten_append, ← hw, Chunk.flatten_windows hs]
    have hl' : done.flatten = rs.take (done.length * size) := by
      rw [← Chunk.flatten_take_windows hs, ht]
    constructor
    · rw [ha, hb, hr, hx, Flush.length_allTaken, ht, hq]
      simp
    · rw [hd, hl, hr, hx, Flush.length_allTaken]
      have hlen := congrArg List.length hf
      rw [hl', List.length_append, List.length_take] at hlen
      rw [List.length_drop]
      omega

theorem received_of_ended (r : Reachable (inChunks settings size) h s) (hl : s.loop = .ended) :
    s.intake.queue = [] ∧ h.received = h.saved := by
  have hq : s.intake.queue = [] := (Flow.of_reachable r).queue_eq_nil (by simp [hl, Loop.IsDone])
  have hr := received_append_queue r (by simp [hl])
  rw [hq, List.append_nil] at hr
  exact ⟨hq, hr⟩

theorem balance_of_ended (r : Reachable (inChunks settings size) h s) (hl : s.loop = .ended) :
    h.acknowledged.flatten.length + s.stats.discarded = h.saved.length := by
  have ⟨_, hS⟩ := received_of_ended r hl
  cases Stands.of_reachable r with
  | @drained pre post rs o _ u _ _ c hd =>
    have c : Flush.Attempt.Course ((inChunks settings size).attempt .last rs) post.answers (.done o) := c
    have hb : h.acknowledged.flatten ++ o.left rs = h.saved := by
      rw [acknowledged_of_last u.last, List.flatten_append, List.append_assoc,
        History.acknowledged_eq post, attempt_done c, u.whole, hS]
    rw [hd, ← hb, List.length_append]
  | discarded _ b _ hd => rw [hd, ← hS, ← b.whole, List.length_append]
  | _ => simp_all

theorem written_of_isOver (r : Reachable (inChunks settings size) h s) (hl : s.loop.IsOver) :
    s.stats.written = h.acknowledged.flatten.length := by
  cases hs : s.loop with
  | ended =>
    have hc := counted_of_reachable inChunks_isCalm inChunks_leavesNoMore r
    have hv := ((Flow.of_reachable r).carried (by simp [hs])).counted
    obtain ⟨-, hr⟩ := received_of_ended r hs
    have hb := balance_of_ended r hs
    simp only [Counted, hs, Loop.buffer, List.length_nil, hv, hr] at hc
    omega
  | broken =>
    obtain ⟨-, hx, -⟩ := (Stands.of_reachable r).of_broken hs
    rw [written_of_broken inChunks_isCalm inChunks_leavesNoMore r hs, History.acknowledged_eq, hx]
    rfl
  | _ => simp [hs, Loop.IsOver] at hl

-- What a writer that drains has acknowledged at the end are all windows of the accepted records, or
-- those before one that was refused.
theorem windows_of_ended (hs : 0 < size) (hd : settings.drainOnClose = true)
    (r : Reachable (inChunks settings size) h s) (hl : s.loop = .ended) :
    ∃ later, Chunk.windows size h.saved = h.acknowledged ++ later ∧
      ∀ chunk ∈ later.head?, ∃ xs e, h.answers = xs ++ [(chunk, .error e)] ∧
        taken xs = h.acknowledged := by
  have ⟨_, hS⟩ := received_of_ended r hl
  cases Stands.of_reachable r with
  | @drained pre post rs o _ u _ _ c _ =>
    have hw : Chunk.windows size h.saved = pre.acknowledged ++ Chunk.windows size rs := by
      rw [← hS, ← u.whole]
      exact Chunk.windows_flatten_append hs u.held.inTurn.taken_full.left
    have ha : h.acknowledged = pre.acknowledged ++ taken post.answers := acknowledged_of_last u.last
    rcases Flush.drain_done hs c with ⟨hq, _⟩ | ⟨done, chunk, later, e, hd, hq, _⟩
    case inl => exact ⟨[], by rw [hw, ha, hq, Flush.taken_allTaken, List.append_nil], by simp⟩
    case inr =>
      have ha : h.acknowledged = pre.acknowledged ++ done := by rw [ha, hq]; simp
      refine ⟨chunk :: later, by rw [hw, hd, ha, List.append_assoc], fun chunk' hc => ?_⟩
      cases hc
      refine ⟨pre.answers ++ allTaken done, e, ?_, ?_⟩
      · rw [u.last.answers_eq, hq, List.append_assoc]
      · rw [Flush.taken_append, Flush.taken_allTaken, ha]
        rfl
  | @discarded buffer _ b hn _ =>
    have hw := b.whole
    rw [hn hd, List.append_nil, hS] at hw
    have hc : Chunk.windows size (h.acknowledged.flatten ++ []) = h.acknowledged ++ Chunk.windows size [] :=
      Chunk.windows_flatten_append hs b.inTurn.taken_full.left
    rw [List.append_nil, Chunk.windows_nil, List.append_nil] at hc
    exact ⟨[], by rw [← hw, List.append_nil]; exact hc, by simp⟩
  | _ => simp_all

-- When the loop has ended, every accepted record is written, or counted as discarded.
theorem records_accounted (hs : 0 < size) (r : Reachable (inChunks settings size) h s)
    (hl : s.loop = .ended) : Accounted settings size h s := by
  have ⟨hq, hS⟩ := received_of_ended r hl
  have hc : s.stats.received = h.saved.length :=
    hS ▸ ((Flow.of_reachable r).carried (by simp [hl])).counted
  have hb := balance_of_ended r hl
  cases Stands.of_reachable r with
  | @drained pre post rs o _ u hdrain hacc c hd =>
    have hpre : h.beforeLast = pre := u.last.beforeLast_eq u.held.onTicks
    have hw : h.beforeLast.acknowledged.flatten ++ rs = h.saved := by rw [hpre, u.whole, hS]
    have hr : h.remaining = rs := remaining_of_append hw
    refine ⟨hq, hc, hb, hr.symm ▸ hw, fun _ _ => ?_, fun hn => ?_⟩
    · exact ⟨pre, post, hr.symm ▸ u.last, u.held.onTicks, hacc, drained_of_last hs u c hS hr hd⟩
    · exact absurd (hr.symm.trans (hn hdrain)) u.filled
  | @discarded buffer _ b hn hd =>
    have hpre : h.beforeLast = h := b.onTicks.beforeLast_eq
    have hw : h.beforeLast.acknowledged.flatten ++ buffer = h.saved := by rw [hpre, b.whole, hS]
    have hr : h.remaining = buffer := remaining_of_append hw
    refine ⟨hq, hc, hb, hr.symm ▸ hw, fun ht hf => ?_, fun _ => ?_⟩
    · exact absurd (hr.trans (hn ht)) hf
    · exact ⟨b.onTicks, by rw [hpre], by rw [hd, hr]⟩
  | _ => simp_all

-- A writer that is closed with two records in the buffer and one in the queue, and a storage that takes
-- the first two only.
def cutShort : List (Event Receipt) :=
  [.start 0, .wake, .save 1 (.uniform 1), .save 1 (.uniform 2), .save 1 (.uniform 3), .receive, .receive,
    .close 2, .stop, .answer [] (.ok ()), .answer [] (.error (.sql .timedOut))]

theorem records_accounted_of_cutShort :
    ∃ h s, Reachable (inChunks { drainOnClose := true } 2) h s ∧ s.loop = .ended ∧
      (h.remaining, h.acknowledged, s.stats.discarded)
        = ([.uniform 1, .uniform 2, .uniform 3], [[.uniform 1, .uniform 2]], 1) ∧
      Accounted { drainOnClose := true } 2 h s := by
  let w := inChunks { drainOnClose := true } 2
  have hm : (w.start.follow w 1 cutShort).map
      (fun x => (x.2.2.loop matches .ended, x.2.1.remaining, x.2.1.acknowledged, x.2.2.stats.discarded))
      = some (true, [.uniform 1, .uniform 2, .uniform 3], [[.uniform 1, .uniform 2]], 1) := by
    decide +kernel
  have ⟨⟨_, h, s⟩, hf, he⟩ := Option.map_eq_some_iff.mp hm
  have r : Reachable w h s := (Produces.start.follow hf).reachable
  have ⟨hl, hd⟩ := Prod.mk.inj he
  have hl : s.loop = .ended := by
    split at hl
    · assumption
    · cases hl
  exact ⟨h, s, r, hl, hd, records_accounted (by decide) r hl⟩

end WriteBehind.Writer
