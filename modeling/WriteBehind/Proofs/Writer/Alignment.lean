import Mathlib.Data.List.Infix
import WriteBehind.Proofs.Writer.Conservation

namespace WriteBehind.Writer

open Chunk (AllFull)
open Flush (NoneRefused Receipt taken)
open Flush.Attempt (Course Pause)
open History (LastAttempt OnTicks)

variable {settings settings' : Settings} {size k : Nat} {rs buffer chunk : List Record}
variable {S S' : List Record} {chunks : List (List Record)} {aim : Aim}
variable {qs qs' : List (List Record × Receipt)} {p : Pause (List Record) Receipt}
variable {h h' pre post : History (List Record) Receipt} {s s' : State (List Record) Receipt}

structure IsWindow (size : Nat) (S : List Record) (k : Nat) (chunk : List Record) : Prop where
  within : (k + 1) * size ≤ S.length
  eq     : chunk = (S.drop (k * size)).take size

def InTurn (size : Nat) (S : List Record) (qs : List (List Record × Receipt)) : Prop :=
  ∀ xs q ys, qs = xs ++ q :: ys →
    AllFull size (taken xs ++ [q.1]) ∧ (taken xs ++ [q.1]).flatten <+: S

theorem isWindow_of_full (hf : AllFull size (chunks ++ [chunk]))
    (hp : (chunks ++ [chunk]).flatten <+: S) : IsWindow size S chunks.length chunk := by
  have ⟨hf, hc⟩ := Chunk.AllFull.append_iff.mp hf
  have hc : chunk.length = size := hc chunk (List.mem_singleton_self _)
  have hl : chunks.length * size = chunks.flatten.length := by rw [hf.length_flatten, Nat.mul_comm]
  obtain ⟨rest, rfl⟩ := hp
  have he : (chunks ++ [chunk]).flatten ++ rest = chunks.flatten ++ (chunk ++ rest) := by simp
  refine ⟨?_, ?_⟩
  · rw [he, Nat.succ_mul, hl]
    simp [hc]
  · rw [he, hl, List.drop_left, ← hc, List.take_left]

theorem isWindow_of_mem (hf : AllFull size chunks) (hp : chunks.flatten <+: S)
    (hk : chunks[k]? = some chunk) : IsWindow size S k chunk := by
  have ⟨hl, hc⟩ := List.getElem?_eq_some_iff.mp hk
  have ht : chunks.take k ++ [chunk] <+: chunks := by
    rw [← hc, ← List.take_succ_eq_append_getElem hl]
    exact List.take_prefix _ _
  have hw := isWindow_of_full (fun c hm => hf c (ht.subset hm)) (ht.flatten.trans hp)
  rwa [List.length_take_of_le (Nat.le_of_lt hl)] at hw

theorem InTurn.mono (ho : InTurn size S qs) (hp : S <+: S') : InTurn size S' qs :=
  fun xs q ys he => (ho xs q ys he).imp_right (·.trans hp)

theorem InTurn.nil : InTurn size S [] := by simp [InTurn]

theorem InTurn.taken_full (ho : InTurn size S qs) :
    AllFull size (taken qs) ∧ (taken qs).flatten <+: S := by
  induction qs using List.reverseRecOn with
  | nil => exact ⟨Chunk.AllFull.nil, List.nil_prefix⟩
  | append_singleton qs q hi =>
    rw [Flush.taken_append]
    match q with
    | (chunk, .ok ()) => exact ho qs _ [] rfl
    | (chunk, .error e) =>
      rw [Flush.taken_error, List.append_nil]
      exact hi fun xs q ys he => ho xs q (ys ++ [(chunk, .error e)]) (by simp [he])

theorem InTurn.append (ho : InTurn size S qs) (he : (taken qs).flatten ++ rs = S)
    (ho' : InTurn size rs qs') : InTurn size S (qs ++ qs') := by
  have next {chunks : List (List Record)} (hf : AllFull size chunks) (hp : chunks.flatten <+: rs) :
      AllFull size (taken qs ++ chunks) ∧ (taken qs ++ chunks).flatten <+: S := by
    rw [List.flatten_append, ← he]
    exact ⟨Chunk.AllFull.append_iff.mpr ⟨ho.taken_full.left, hf⟩,
      (List.prefix_append_right_inj _).mpr hp⟩
  intro xs q ys hx
  rcases List.append_eq_append_iff.mp hx with ⟨zs, rfl, hz⟩ | ⟨zs, hz, hy⟩
  case inl =>
    have ⟨hf, hp⟩ := ho' zs q ys hz
    rw [Flush.taken_append, List.append_assoc]
    exact next hf hp
  case inr =>
    cases zs with
    | nil =>
      have ⟨hf, hp⟩ := ho' [] q ys (by simpa using hy.symm)
      rw [List.append_nil] at hz
      exact hz ▸ next hf hp
    | cons z zs =>
      obtain ⟨rfl, -⟩ := List.cons.inj hy
      exact ho xs q zs hz

theorem inTurn_of_flush (c : Course ((Flush.chunked size).flush rs) qs p) : InTurn size rs qs := by
  intro xs q ys he
  have ⟨_, c⟩ := (he ▸ c).at_question
  have ⟨done, hq, hf, hp⟩ := Flush.flush_ask c
  rw [hq, Flush.taken_allTaken]
  exact ⟨hf, hp⟩

theorem onTicks_of_last {next : Nat} (ho : OnTicks pre) (l : LastAttempt h pre (.tick next) rs post) :
    OnTicks h := by
  intro a hm
  rw [l.attempts_eq, List.mem_append, List.mem_singleton] at hm
  rcases hm with hm | rfl
  · exact ho a hm
  · simp

theorem Held.onTicks {w : Setup (List Record) Receipt} (b : Held w h buffer) : OnTicks h := by
  induction b with
  | fresh ha        => simp [OnTicks, ha]
  | left _ _ l _ hi => exact onTicks_of_last hi l

theorem inTurn_of_last {next : Nat} (ho : InTurn size pre.received pre.answers)
    (hw : pre.acknowledged.flatten ++ rs = pre.received) (l : LastAttempt h pre (.tick next) rs post)
    (c : Course ((Flush.chunked size).flush rs) post.answers p) :
    InTurn size h.received h.answers := by
  have ho' : InTurn size pre.received (pre.answers ++ post.answers) := ho.append hw (inTurn_of_flush c)
  rw [l.answers_eq, l.received_eq]
  exact ho'.mono (List.prefix_append _ _)

theorem Held.inTurn (b : Held (inChunks settings size) h buffer) :
    InTurn size h.received h.answers := by
  induction b with
  | fresh _ hx    => exact hx ▸ .nil
  | left b _ l c hi => exact inTurn_of_last hi b.whole l c

-- Ticks offer the windows of what is received in turn.
theorem Stands.inTurn (st : Stands (inChunks settings size) h s) :
    InTurn size h.received h.beforeLast.answers := by
  have none (ha : h.attempts = []) (hx : h.answers = []) :
      InTurn size h.received h.beforeLast.answers := by
    have ho : OnTicks h := by simp [OnTicks, ha]
    rw [ho.beforeLast_eq, hx]
    exact .nil
  have last {pre post rs} (u : Underway (inChunks settings size) h pre .last rs post) :
      InTurn size h.received h.beforeLast.answers := by
    rw [u.last.beforeLast_eq u.held.onTicks]
    exact u.held.inTurn.mono ⟨_, u.last.received_eq.symm⟩
  cases st with
  | idle _ ha hx     => exact none ha hx
  | failed _ ha hx   => exact none ha hx
  | listening _ b    => exact b.onTicks.beforeLast_eq.symm ▸ b.inTurn
  | discarded _ b    => exact b.onTicks.beforeLast_eq.symm ▸ b.inTurn
  | drained _ u      => exact last u
  | crashed _ _ c    => exact absurd c attempt_not_crash
  | @writing aim _ _ _ _ _ _ u _ c =>
    cases aim with
    | last => exact last u
    | tick =>
      rw [(onTicks_of_last u.held.onTicks u.last).beforeLast_eq]
      exact inTurn_of_last u.held.inTurn u.held.whole u.last c

-- The chunks that ticks have written are the first full windows of the accepted records, and ticks ask
-- for the one after them. An attempt that no refusal has ended leaves less than a window.
structure Aligned (size : Nat) (h : History (List Record) Receipt)
    (s : State (List Record) Receipt) : Prop where
  written : ∀ k chunk, h.beforeLast.acknowledged[k]? = some chunk → IsWindow size h.saved k chunk
  asked   : ∀ xs chunk x ys, h.beforeLast.answers = xs ++ (chunk, x) :: ys →
    IsWindow size h.saved (taken xs).length chunk
  asking  : ∀ next buffer chunk go, s.loop = .writing (.tick next) buffer chunk go →
    IsWindow size h.saved h.acknowledged.length chunk
  settled : ∀ pre next rs post buffer due,
    LastAttempt h pre (.tick next) rs post → NoneRefused post.answers →
    s.loop = .listening buffer due →
      ∃ rest, buffer = rest ++ post.received ∧ rest.length < size ∧
        h.acknowledged.flatten.length = size * (pre.received.length / size)

theorem inTurn_of_reachable (r : Reachable (inChunks settings size) h s) :
    InTurn size h.saved h.beforeLast.answers := by
  have st := Stands.of_reachable r
  by_cases hl : s.loop = .broken
  case neg => exact st.inTurn.mono ⟨_, received_append_queue r hl⟩
  case pos =>
    have ⟨ha, hx, _⟩ := st.of_broken hl
    have ho : OnTicks h := by simp [OnTicks, ha]
    rw [ho.beforeLast_eq, hx]
    exact .nil

theorem asking_of_reachable {next : Nat} {go} (r : Reachable (inChunks settings size) h s)
    (hl : s.loop = .writing (.tick next) buffer chunk go) :
    IsWindow size h.saved h.acknowledged.length chunk := by
  have ⟨pre, post, u, _, c, _⟩ := (Stands.of_reachable r).of_writing hl
  have ⟨done, hq, hf, hp⟩ := Flush.flush_ask c
  have ha : h.acknowledged = pre.acknowledged ++ done := by
    rw [acknowledged_of_last u.last, History.acknowledged_eq post, hq, Flush.taken_allTaken]
  have hs : h.received <+: h.saved := ⟨_, received_append_queue r (by simp [hl])⟩
  apply isWindow_of_full
  · rw [ha, List.append_assoc]
    exact Chunk.AllFull.append_iff.mpr ⟨u.held.inTurn.taken_full.left, hf⟩
  · rw [ha, List.append_assoc, List.flatten_append]
    exact ((List.prefix_append_right_inj _).mpr hp).trans (u.whole ▸ hs)

theorem settled_of_reachable {next due : Nat} (hs : 0 < size)
    (r : Reachable (inChunks settings size) h s) (l : LastAttempt h pre (.tick next) rs post)
    (hn : NoneRefused post.answers) (hl : s.loop = .listening buffer due) :
    ∃ rest, buffer = rest ++ post.received ∧ rest.length < size ∧
      h.acknowledged.flatten.length = size * (pre.received.length / size) := by
  have ⟨b, _⟩ := (Stands.of_reachable r).of_listening hl
  have hf : AllFull size h.acknowledged := b.inTurn.taken_full.left
  have hw := b.whole
  cases b with
  | fresh ha => simp [l.attempts_eq] at ha
  | @left _ pre' post' _ _ o b _ l' c =>
    obtain ⟨rfl, -, rfl, rfl⟩ := l.unique l'
    have hr : (o.left rs).length < size := Flush.flush_left hs hn c
    have he : h.acknowledged.flatten ++ o.left rs = pre.received := by
      rw [l.received_eq, ← List.append_assoc] at hw
      exact List.append_cancel_right hw
    refine ⟨_, rfl, hr, ?_⟩
    rw [← he, List.length_append, hf.length_flatten, Nat.mul_add_div hs, Nat.div_eq_of_lt hr,
      Nat.add_zero]

-- Chunks are cut where the accepted records say. Two runs that accept the same records, or one of them
-- more, write the same chunks on ticks, as far as they come.
theorem ticks_aligned (hs : 0 < size) (r : Reachable (inChunks settings size) h s) :
    Aligned size h s ∧
      ∀ settings' h' s', Reachable (inChunks settings' size) h' s' → h.saved <+: h'.saved →
        h.beforeLast.acknowledged <+: h'.beforeLast.acknowledged ∨
        h'.beforeLast.acknowledged <+: h.beforeLast.acknowledged := by
  have ho := inTurn_of_reachable r
  have ⟨hf, hp⟩ := ho.taken_full
  refine ⟨⟨?_, ?_, ?_, ?_⟩, ?_⟩
  case refine_1 => exact fun k chunk hk => isWindow_of_mem hf hp hk
  case refine_2 =>
    intro xs chunk x ys he
    have ⟨hf, hp⟩ := ho xs _ ys he
    exact isWindow_of_full hf hp
  case refine_3 => exact fun _ _ _ _ hl => asking_of_reachable r hl
  case refine_4 => exact fun _ _ _ _ _ _ l hn hl => settled_of_reachable hs r l hn hl
  case refine_5 =>
    intro settings' h' s' r' hS
    have ⟨hf', hp'⟩ := (inTurn_of_reachable r').taken_full
    exact Chunk.prefix_or_prefix hs hf hf' (hp.trans hS) hp'

-- Five records, with a tick on three of them that is refused, and the next under way.
def interrupted : List (Event Receipt) :=
  [.start 0, .wake, .save 1 (.uniform 1), .save 1 (.uniform 2), .save 1 (.uniform 3), .receive, .receive,
    .receive, .pass 1000000000, .tick, .answer [] (.error (.sql .timedOut)), .save 1 (.uniform 4),
    .save 1 (.uniform 5), .receive, .receive, .pass 1000000000, .tick, .answer [] (.ok ())]

def unhindered : List (Event Receipt) :=
  [.start 0, .wake, .save 1 (.uniform 1), .save 1 (.uniform 2), .save 1 (.uniform 3), .save 1 (.uniform 4),
    .save 1 (.uniform 5), .receive, .receive, .receive, .receive, .receive, .pass 1, .tick,
    .answer [] (.ok ()), .answer [] (.ok ())]

theorem ticks_aligned_of_interrupted :
    ∃ h s h' s', Reachable (inChunks {} 2) h s ∧ Reachable (inChunks { interval := 1 } 2) h' s' ∧
      h.saved = h'.saved ∧
      (h.beforeLast.acknowledged, h'.beforeLast.acknowledged)
        = ([[.uniform 1, .uniform 2]], [[.uniform 1, .uniform 2], [.uniform 3, .uniform 4]]) ∧
      Aligned 2 h s ∧ Aligned 2 h' s' ∧
      (h.beforeLast.acknowledged <+: h'.beforeLast.acknowledged ∨
        h'.beforeLast.acknowledged <+: h.beforeLast.acknowledged) := by
  let w  := inChunks {} 2
  let w' := inChunks { interval := 1 } 2
  let rs : List Record := [.uniform 1, .uniform 2, .uniform 3, .uniform 4, .uniform 5]
  have hm : (w.start.follow w 1 interrupted).map
      (fun x => (x.2.1.saved, x.2.1.beforeLast.acknowledged))
      = some (rs, [[.uniform 1, .uniform 2]]) := by decide +kernel
  have hm' : (w'.start.follow w' 1 unhindered).map
      (fun x => (x.2.1.saved, x.2.1.beforeLast.acknowledged))
      = some (rs, [[.uniform 1, .uniform 2], [.uniform 3, .uniform 4]]) := by decide +kernel
  have ⟨⟨_, h, s⟩, hf, he⟩ := Option.map_eq_some_iff.mp hm
  have ⟨⟨_, h', s'⟩, hf', he'⟩ := Option.map_eq_some_iff.mp hm'
  have r : Reachable w h s := (Produces.start.follow hf).reachable
  have r' : Reachable w' h' s' := (Produces.start.follow hf').reachable
  have ⟨hS, ha⟩ := Prod.mk.inj he
  have ⟨hS', ha'⟩ := Prod.mk.inj he'
  have hc := ticks_aligned (by decide) r
  have hS : h.saved = h'.saved := hS.trans hS'.symm
  exact ⟨h, s, h', s', r, r', hS, by rw [← ha, ← ha'], hc.left, (ticks_aligned (by decide) r').left,
    hc.right _ h' s' r' (hS ▸ List.prefix_rfl)⟩

end WriteBehind.Writer
