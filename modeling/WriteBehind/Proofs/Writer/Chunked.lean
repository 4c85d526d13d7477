import Mathlib.Data.List.Basic
import WriteBehind.Proofs.Writer.Standing

namespace WriteBehind.Writer

open Flush (Outcome Receipt allTaken taken)
open Flush.Attempt (Course Pause)
open History (LastAttempt)

def inChunks (settings : Settings) (size : Nat) : Setup (List Record) Receipt where
  settings := settings
  policy   := Flush.chunked size

variable {settings : Settings} {size : Nat} {aim : Aim} {rs buffer chunk : List Record}
variable {qs : List (List Record × Receipt)} {p : Pause (List Record) Receipt} {o : Outcome}
variable {h pre post : History (List Record) Receipt} {s : State (List Record) Receipt}

theorem attempt_ask {go} (c : Course ((inChunks settings size).attempt aim rs) qs (.ask chunk go)) :
    ∃ done, qs = allTaken done ∧ (done ++ [chunk]).flatten <+: rs := by
  cases aim with
  | tick =>
    have ⟨done, hq, _, hp⟩ := Flush.flush_ask c
    exact ⟨done, hq, hp⟩
  | last =>
    have ⟨done, later, hq, hs, hw⟩ := Flush.drain_ask c
    refine ⟨done, hq, later.flatten, ?_⟩
    have he := Chunk.flatten_windows hs rs
    rw [hw] at he
    simpa using he

theorem attempt_done (c : Course ((inChunks settings size).attempt aim rs) qs (.done o)) :
    (taken qs).flatten ++ o.left rs = rs := by
  cases aim with
  | tick => exact (Flush.flush_done c).right
  | last => exact Flush.drain_whole c

theorem attempt_not_crash (c : Course ((inChunks settings size).attempt aim rs) qs .crash) : False := by
  cases aim with
  | tick => exact Flush.flush_not_crash c
  | last => exact Flush.drain_not_crash c

theorem inChunks_isCalm : (inChunks settings size).IsCalm :=
  fun _ _ _ c => attempt_not_crash c

theorem attempt_offers (c : Course ((inChunks settings size).attempt aim rs) qs p) :
    ∀ q ∈ qs, q.1 ⊆ rs := by
  intro q hq
  have ⟨_, _, he⟩ := List.append_of_mem hq
  have ⟨_, c⟩ := (he ▸ c).at_question
  have ⟨done, _, hp⟩ := attempt_ask c
  have hs : q.1 ⊆ (done ++ [q.1]).flatten := by simp
  exact List.Subset.trans hs hp.subset

theorem acknowledged_of_last {rs : List Record} (l : LastAttempt h pre aim rs post) :
    h.acknowledged = pre.acknowledged ++ post.acknowledged := by
  rw [History.acknowledged_eq, l.answers_eq, Flush.taken_append]
  rfl

theorem Held.whole (b : Held (inChunks settings size) h buffer) :
    h.acknowledged.flatten ++ buffer = h.received := by
  induction b with
  | fresh _ hx => rw [History.acknowledged_eq, hx]; rfl
  | @left h pre post rs next o _ _ l c hi =>
    have c : Course ((inChunks settings size).attempt (.tick next) rs) post.answers (.done o) := c
    have hw : post.acknowledged.flatten ++ o.left rs = rs := attempt_done c
    calc h.acknowledged.flatten ++ (o.left rs ++ post.received)
      _ = pre.acknowledged.flatten ++ (post.acknowledged.flatten ++ o.left rs) ++ post.received := by
        rw [acknowledged_of_last l, List.flatten_append]
        simp only [List.append_assoc]
      _ = h.received := by rw [hw, hi, l.received_eq]

theorem Held.offers (b : Held (inChunks settings size) h buffer) :
    ∀ q ∈ h.answers, q.1 ⊆ h.received := by
  induction b with
  | fresh _ hx => simp [hx]
  | @left h pre post rs next o b _ l c hi =>
    have c : Course ((inChunks settings size).attempt (.tick next) rs) post.answers (.done o) := c
    intro q hq
    rw [l.answers_eq, List.mem_append] at hq
    have hp : pre.received ⊆ h.received := l.received_eq ▸ List.subset_append_left _ _
    cases hq with
    | inl hq => exact List.Subset.trans (hi q hq) hp
    | inr hq =>
      have hr : rs ⊆ pre.received := b.whole ▸ List.subset_append_right _ _
      exact List.Subset.trans (attempt_offers c q hq) (List.Subset.trans hr hp)

theorem Underway.whole (u : Underway (inChunks settings size) h pre aim rs post) :
    pre.acknowledged.flatten ++ rs = h.received := by
  rw [u.held.whole, u.last.received_eq, u.received, List.append_nil]

theorem Underway.offers (u : Underway (inChunks settings size) h pre aim rs post)
    (c : Course ((inChunks settings size).attempt aim rs) post.answers p) :
    ∀ q ∈ h.answers, q.1 ⊆ h.received := by
  intro q hq
  rw [u.last.answers_eq, List.mem_append] at hq
  cases hq with
  | inl hq =>
    have hp : pre.received ⊆ h.received := u.last.received_eq ▸ List.subset_append_left _ _
    exact List.Subset.trans (u.held.offers q hq) hp
  | inr hq =>
    have hr : rs ⊆ h.received := u.whole ▸ List.subset_append_right _ _
    exact List.Subset.trans (attempt_offers c q hq) hr

-- A writer that writes in chunks breaks only before it has begun.
theorem Stands.of_broken (st : Stands (inChunks settings size) h s) (hl : s.loop = .broken) :
    h.attempts = [] ∧ h.answers = [] ∧ h.received = [] :=
  inChunks_isCalm.of_broken st hl

end WriteBehind.Writer
