import WriteBehind.Proofs.Writer.Chunked

namespace WriteBehind.Writer

open Flush (Attempt Outcome)
open Flush.Attempt (Course)

variable {Op Ans : Type} {w : Setup Op Ans} {aim : Aim} {buffer : List Record}
variable {h os : History Op Ans} {s s' : State Op Ans}

-- Whether no attempt leaves more records than it is made on, whatever the storage answers.
def Setup.LeavesNoMore (w : Setup Op Ans) : Prop :=
  ∀ aim rs qs (o : Outcome), Course (w.attempt aim rs) qs (.done o) → (o.left rs).length ≤ rs.length

theorem inChunks_leavesNoMore {settings : Settings} {size : Nat} :
    (inChunks settings size).LeavesNoMore := by
  intro aim rs qs o c
  have hw := congrArg List.length (attempt_done c)
  rw [List.length_append] at hw
  omega

def Counted (s : State Op Ans) : Prop :=
  s.stats.written + s.loop.buffer.length + s.stats.discarded = s.stats.received

theorem counted_of_proceeds {a : Attempt Op Ans} {qs : List (Op × Ans)} (hb : w.IsCalm)
    (hn : w.LeavesNoMore) (p : Proceeds aim buffer a s os s')
    (c : Course (w.attempt aim buffer) qs a.pause.2)
    (hc : s.stats.written + buffer.length + s.stats.discarded = s.stats.received) : Counted s' := by
  cases p with
  | ask          => exact hc
  | crash hp     => exact absurd (hp ▸ c) (hb _ _ _)
  | settle hp _ | finish hp _ =>
    have hle := hn _ _ _ _ (hp ▸ c)
    simp [Counted, State.finish, Loop.buffer]
    omega

theorem counted_of_turn (hb : w.IsCalm) (hn : w.LeavesNoMore) (hc : Counted s) (st : Stands w h s)
    (u : Turn w s os s') : Counted s' := by
  cases u with
  | wake hl | fail hl | idle hl => simpa [Counted, hl, Loop.buffer] using hc
  | receive hl hq               =>
    simp only [Counted, hl, Loop.buffer, List.length_append, List.length_singleton] at hc ⊢
    omega
  | tick hl _ _ _ p             =>
    refine counted_of_proceeds hb hn p (.start rfl) ?_
    simpa [Counted, hl, Loop.buffer, State.begun] using hc
  | answer hl p                 =>
    obtain ⟨pre, post, _, _, c, _⟩ := st.of_writing hl
    refine counted_of_proceeds hb hn p (.answer c rfl) ?_
    simpa [Counted, hl, Loop.buffer] using hc
  | drain hl _ _ _ p            =>
    refine counted_of_proceeds hb hn p (.start rfl) ?_
    simp only [Counted, hl, Loop.buffer, State.begun, State.gathered, List.length_append] at hc ⊢
    omega
  | discard hl                  =>
    simp only [Counted, hl, Loop.buffer, State.finish, State.gathered, List.length_append,
      List.length_nil] at hc ⊢
    omega

theorem counted_of_reachable (hb : w.IsCalm) (hn : w.LeavesNoMore) (r : Reachable w h s) :
    Counted s := by
  apply r.induct
  case start => rfl
  case keep =>
    intro h s e os s' r hi hs
    cases change_of_step hs with
    | call c   => rwa [Counted, c.loop, c.stats]
    | start hp => simpa [Counted, (Flow.of_reachable r).fresh hp, Loop.buffer] using hi
    | turn u   => exact counted_of_turn hb hn hi (.of_reachable r) u

-- A loop breaks before it has received anything.
theorem written_of_broken (hb : w.IsCalm) (hn : w.LeavesNoMore) (r : Reachable w h s)
    (hl : s.loop = .broken) : s.stats.written = 0 := by
  revert hl
  apply r.induct
  case start => exact fun _ => rfl
  case keep =>
    intro h s e os s' r hi hs hl
    have ⟨ha, hx, _⟩ := hb.of_broken (Stands.of_reachable (.step r hs)) hl
    cases change_of_step hs with
    | call c => exact c.stats ▸ hi (c.loop ▸ hl)
    | start  => cases hl
    | turn u =>
      cases u with
      | fail hs' _ =>
        have hc := counted_of_reachable hb hn r
        have hv := ((Flow.of_reachable r).carried (by simp [hs'])).counted
        have ⟨_, _, hr, _⟩ := (Stands.of_reachable r).of_starting (.inr hs')
        simp only [Counted, hv, hr, List.length_nil] at hc
        change s.stats.written = 0
        omega
      | answer       => simp [History.answers] at hx
      | tick | drain => simp [History.attempts] at ha
      | _            => cases hl

end WriteBehind.Writer
