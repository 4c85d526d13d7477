import Mathlib.Data.List.Induction
import WriteBehind.Flush.Chunked
import WriteBehind.Proofs.Chunk.Windows

namespace WriteBehind.Flush

namespace Attempt

variable {Op Ans : Type}

inductive Course (a : Attempt Op Ans) : List (Op × Ans) → Pause Op Ans → Prop
  | start {p} : a.pause.2 = p → Course a [] p
  | answer {qs op go x p} :
    Course a qs (.ask op go) → (go x).pause.2 = p → Course a (qs ++ [(op, x)]) p

theorem Course.at_question {a : Attempt Op Ans} {qs qs' : List (Op × Ans)} {op : Op} {x : Ans}
    {p : Pause Op Ans} (c : Course a (qs ++ (op, x) :: qs') p) : ∃ go, Course a qs (.ask op go) := by
  induction qs' using List.reverseRecOn generalizing p with
  | nil =>
    generalize he : qs ++ [(op, x)] = qs₁ at c
    cases c with
    | start => simp at he
    | answer c _ =>
      obtain ⟨rfl, hq⟩ := List.append_inj' he rfl
      cases hq
      exact ⟨_, c⟩
  | append_singleton qs' q hi =>
    generalize he : qs ++ (op, x) :: (qs' ++ [q]) = qs₁ at c
    cases c with
    | start => simp at he
    | answer c _ =>
      rw [← List.cons_append, ← List.append_assoc] at he
      exact hi ((List.append_inj' he rfl).left ▸ c)

-- Whether an attempt asks so many questions at most, whatever the answers.
inductive Within : Nat → Attempt Op Ans → Prop
  | done {n : Nat} {o} : Within n (.done o)
  | crash {n : Nat} : Within n .crash
  | log {n : Nat} {notice rest} : Within n rest → Within n (.log notice rest)
  | ask {n : Nat} {op next} : (∀ x, Within n (next x)) → Within (n + 1) (.ask op next)

theorem Within.pause {a : Attempt Op Ans} {n : Nat} {op : Op} {go} (h : Within n a)
    (hp : a.pause.2 = .ask op go) : ∃ m, n = m + 1 ∧ ∀ x, Within m (go x) := by
  induction h with
  | done | crash => cases hp
  | log _ hi => exact hi hp
  | ask hn =>
    cases hp
    exact ⟨_, rfl, hn⟩

theorem Within.mono {a : Attempt Op Ans} {n m : Nat} (h : Within n a) (hn : n ≤ m) : Within m a := by
  induction h generalizing m with
  | done      => exact .done
  | crash     => exact .crash
  | log _ hi  => exact .log (hi hn)
  | ask _ hi  =>
    obtain ⟨m, rfl⟩ : ∃ k, m = k + 1 := ⟨m - 1, by omega⟩
    exact .ask fun x => hi x (by omega)

theorem Course.within {a : Attempt Op Ans} {qs : List (Op × Ans)} {n : Nat} {p : Pause Op Ans}
    (c : Course a qs p) (h : Within n a) {op : Op} {go} (hp : p = .ask op go) :
    ∃ m, ∀ x, Within m (go x) := by
  induction c generalizing op go with
  | start hs =>
    have ⟨m, _, hm⟩ := h.pause (hs.trans hp)
    exact ⟨m, hm⟩
  | @answer _ _ _ x _ _ hs hi =>
    have ⟨m, hm⟩ := hi rfl
    have ⟨m', _, hm'⟩ := (hm x).pause (hs.trans hp)
    exact ⟨m', hm'⟩

end Attempt

open Attempt (Course Pause Within)

def taken (qs : List (List Record × Receipt)) : List (List Record) :=
  qs.filterMap fun
    | (chunk, .ok _) => some chunk
    | (_, .error _) => none

def NoneRefused (qs : List (List Record × Receipt)) : Prop := ∀ q ∈ qs, q.2 = .ok ()

def allTaken (chunks : List (List Record)) : List (List Record × Receipt) :=
  chunks.map fun chunk => (chunk, .ok ())

section Taken

variable {chunk : List Record} {chunks rest : List (List Record)} {e : Storage.Fault}
variable {qs qs' : List (List Record × Receipt)}

@[simp] theorem taken_nil : taken [] = [] := rfl

@[simp] theorem taken_append : taken (qs ++ qs') = taken qs ++ taken qs' := List.filterMap_append

@[simp] theorem taken_ok : taken [(chunk, .ok ())] = [chunk] := rfl

@[simp] theorem taken_error : taken [(chunk, .error e)] = [] := rfl

@[simp] theorem taken_allTaken : taken (allTaken chunks) = chunks := by
  induction chunks with
  | nil => rfl
  | cons chunk chunks hi => exact congrArg (chunk :: ·) hi

@[simp] theorem allTaken_map_fst : (allTaken chunks).map (·.1) = chunks := by
  simp [allTaken, Function.comp_def]

@[simp] theorem allTaken_append : allTaken (chunks ++ rest) = allTaken chunks ++ allTaken rest :=
  List.map_append

@[simp] theorem length_allTaken : (allTaken chunks).length = chunks.length := List.length_map _

theorem noneRefused_allTaken : NoneRefused (allTaken chunks) := by simp [NoneRefused, allTaken]

theorem not_noneRefused_error : ¬NoneRefused (qs ++ [(chunk, .error e)]) := by
  intro h
  simpa using h (chunk, .error e) (by simp)

theorem eq_of_refused {chunk' : List Record} {e' : Storage.Fault}
    (he : allTaken chunks ++ [(chunk, .error e)] = qs ++ (chunk', .error e') :: qs') :
    qs = allTaken chunks := by
  induction chunks generalizing qs with
  | nil =>
    cases qs with
    | nil      => rfl
    | cons _ _ => simp [allTaken] at he
  | cons _ _ hi =>
    cases qs with
    | nil       => simp [allTaken] at he
    | cons q qs =>
      have ⟨hq, ht⟩ := List.cons.inj he
      exact congr (congrArg _ hq.symm) (hi ht)

end Taken

variable {size index : Nat} {rest rs : List Record} {chunks : List (List Record)}
variable {qs : List (List Record × Receipt)} {p : Pause (List Record) Receipt} {o : Outcome}

def offer (rest : List Record) (index : Nat) : List (List Record) → ChunkAttempt
  | [] => .done (.ok rest)
  | chunk :: chunks => .ask chunk fun
    | .ok ()   => .log (.wroteChunk index chunk.length) (offer rest (index + 1) chunks)
    | .error e => .done (.error (.sink index (chunk ++ chunks.flatten ++ rest) e))

inductive Written (rest : List Record) (index : Nat) (chunks : List (List Record)) :
    List (List Record × Receipt) → Pause (List Record) Receipt → Prop
  | before {done chunk later go} :
    chunks = done ++ chunk :: later →
    .ask chunk go = offer rest (index + done.length) (chunk :: later) →
    Written rest index chunks (allTaken done) (.ask chunk go)
  | all : Written rest index chunks (allTaken chunks) (.done (.ok rest))
  | refused {done chunk later e} :
    chunks = done ++ chunk :: later →
    Written rest index chunks (allTaken done ++ [(chunk, .error e)])
      (.done (.error (.sink (index + done.length) (chunk ++ later.flatten ++ rest) e)))

theorem Written.of_offer {done later : List (List Record)} (h : chunks = done ++ later) :
    Written rest index chunks (allTaken done)
      (offer rest (index + done.length) later).pause.2 := by
  cases later with
  | nil => exact h ▸ (List.append_nil done).symm ▸ .all
  | cons chunk later => exact .before h rfl

theorem written_of_course (c : Course (offer rest index chunks) qs p) :
    Written rest index chunks qs p := by
  induction c with
  | start h =>
    have hw := @Written.of_offer index rest chunks [] chunks rfl
    exact h ▸ hw
  | @answer _ chunk _ x _ _ hp hi =>
    cases hi with
    | @before done _ later _ he hg =>
      obtain ⟨-, rfl⟩ := Attempt.ask.inj hg
      subst hp
      cases x with
      | ok u =>
        have hl : index + (done ++ [chunk]).length = index + done.length + 1 := by simp; omega
        have hw := @Written.of_offer index rest chunks (done ++ [chunk]) later (by simpa using he)
        rw [hl, allTaken_append] at hw
        exact hw
      | error e => exact .refused he

theorem within_offer (rest : List Record) (index : Nat) (chunks : List (List Record)) :
    Within chunks.length (offer rest index chunks) := by
  induction chunks generalizing index with
  | nil => exact .done
  | cons chunk chunks hi =>
    refine .ask fun x => ?_
    cases x with
    | ok _    => exact .log (hi (index + 1))
    | error _ => exact .done

theorem Written.whole (h : Written rest index chunks qs (.done o)) :
    (taken qs).flatten ++ o.left rs = chunks.flatten ++ rest := by
  cases h with
  | all => simp [Outcome.left]
  | refused he => simp [Outcome.left, he]

theorem flush_of_small (h : size = 0 ∨ rs.length < size) :
    ∃ e, (chunked size).flush rs = .done (.error (.chunking e)) := by
  by_cases hz : size = 0
  case pos => exact ⟨.zeroSize, by simp [chunked, Chunk.split, hz]⟩
  case neg =>
    have hl := h.resolve_left hz
    exact ⟨.tooSmall rs.length size, by simp [chunked, Chunk.split, hz, hl]⟩

theorem drop_succ_mul {xs : List Record} :
    xs.drop ((index + 1) * size) = (xs.drop (index * size)).drop size := by
  rw [List.drop_drop, Nat.succ_mul]

-- A flush offers the full chunks, and gets to the short one only when they are taken. What is cut out of the
-- records at the place of a refusal is this chunk and all after it.
theorem writeChunks_eq_offer {full : List (List Record)} (hf : Chunk.AllFull size full)
    (hr : rest.length < size) (hd : rs.drop (index * size) = full.flatten ++ rest) :
    writeChunks size rs true [] index (full ++ Chunk.windows size rest) = offer rest index full := by
  induction full generalizing index with
  | nil =>
    by_cases hn : rest = []
    case pos =>
      rw [hn, Chunk.windows_nil]
      rfl
    case neg =>
      rw [List.nil_append, Chunk.windows_of_short hn hr, writeChunks, if_pos ⟨rfl, Nat.ne_of_lt hr⟩]
      rfl
  | cons chunk full hi =>
    have ⟨hc, hf⟩ := Chunk.AllFull.cons_iff.mp hf
    have hd' : rs.drop ((index + 1) * size) = full.flatten ++ rest := by
      rw [drop_succ_mul, hd, List.flatten_cons, List.append_assoc, ← hc, List.drop_left]
    have hl : [] ++ rs.drop (index * size) = (chunk :: full).flatten ++ rest := hd
    rw [List.cons_append, writeChunks, if_neg fun h => h.right hc, offer]
    refine congrArg (Attempt.ask chunk) (funext fun x => ?_)
    cases x with
    | ok _    => exact congrArg (Attempt.log _) (hi hf hd')
    | error e => exact congrArg (fun left => Attempt.done (.error (.sink index left e))) hl

theorem writeChunks_eq_offer_nil (hs : 0 < size) (hc : chunks = Chunk.windows size (rs.drop (index * size))) :
    writeChunks size rs false [] index chunks = offer [] index chunks := by
  induction chunks generalizing index with
  | nil => rfl
  | cons chunk chunks hi =>
    have hn : rs.drop (index * size) ≠ [] := by
      rintro hn
      rw [hn, Chunk.windows_nil] at hc
      cases hc
    have hd : rs.drop (index * size) = chunk ++ chunks.flatten := by
      rw [← List.flatten_cons, hc, Chunk.flatten_windows hs]
    have hc' : chunks = Chunk.windows size (rs.drop ((index + 1) * size)) := by
      rw [drop_succ_mul]
      exact (List.cons.inj (hc.trans (Chunk.windows_of_ne_nil hs hn))).right
    have hl : [] ++ rs.drop (index * size) = (chunk :: chunks).flatten ++ [] := by
      rw [List.nil_append, List.append_nil, hd, List.flatten_cons]
    rw [writeChunks, if_neg (by simp), offer]
    refine congrArg (Attempt.ask chunk) (funext fun x => ?_)
    cases x with
    | ok _    => exact congrArg (Attempt.log _) (hi hc')
    | error e => exact congrArg (fun left => Attempt.done (.error (.sink index left e))) hl

theorem flush_of_full {full : List (List Record)} (hf : Chunk.AllFull size full)
    (hr : rest.length < size) (hn : full ≠ []) :
    (chunked size).flush (full.flatten ++ rest) = offer rest 0 full := by
  have hz : size ≠ 0 := by omega
  have hl : ¬(full.flatten ++ rest).length < size := by
    have := Nat.le_mul_of_pos_right size (List.length_pos_iff.mpr hn)
    rw [List.length_append, hf.length_flatten]
    omega
  have hw : Chunk.windows size (full.flatten ++ rest) = full ++ Chunk.windows size rest :=
    Chunk.windows_flatten_append (Nat.pos_of_ne_zero hz) hf
  simp only [chunked, Chunk.split, if_neg hz, if_neg hl, hw]
  exact writeChunks_eq_offer hf hr (by rw [Nat.zero_mul, List.drop_zero])

theorem drain_eq (hs : 0 < size) :
    (chunked size).drain rs = offer [] 0 (Chunk.windows size rs) := by
  simp only [chunked, if_neg (Nat.ne_of_gt hs)]
  exact writeChunks_eq_offer_nil hs (by rw [Nat.zero_mul, List.drop_zero])

theorem course_of_done {Op Ans : Type} {qs : List (Op × Ans)} {p : Pause Op Ans}
    (c : Course (.done o) qs p) : qs = [] ∧ p = .done o := by
  induction c with
  | start h => exact ⟨rfl, h.symm⟩
  | answer _ _ hi => simp at hi

theorem flush_cases (c : Course ((chunked size).flush rs) qs p) :
    ((size = 0 ∨ rs.length < size) ∧ qs = [] ∧ ∃ e, p = .done (.error (.chunking e))) ∨
    ∃ full rest, Chunk.AllFull size full ∧ rest.length < size ∧ rs = full.flatten ++ rest ∧
      Written rest 0 full qs p := by
  by_cases hz : size = 0 ∨ rs.length < size
  case pos =>
    obtain ⟨e, he⟩ := flush_of_small hz
    obtain ⟨hq, hp⟩ := course_of_done (he ▸ c)
    exact .inl ⟨hz, hq, e, hp⟩
  case neg =>
    have hs : 0 < size := by omega
    obtain ⟨full, rest, hf, hr, rfl⟩ := Chunk.exists_full hs rs
    have hn : full ≠ [] := by
      rintro rfl
      exact hz (.inr (by simpa using hr))
    rw [flush_of_full hf hr hn] at c
    exact .inr ⟨full, rest, hf, hr, rfl, written_of_course c⟩

theorem drain_cases (c : Course ((chunked size).drain rs) qs p) :
    (size = 0 ∧ qs = [] ∧ p = .done (.error (.chunking .zeroSize))) ∨
    (0 < size ∧ Written [] 0 (Chunk.windows size rs) qs p) := by
  by_cases hs : size = 0
  case pos =>
    have hd : (chunked size).drain rs = .done (.error (.chunking .zeroSize)) := by simp [chunked, hs]
    obtain ⟨hq, hp⟩ := course_of_done (hd ▸ c)
    exact .inl ⟨hs, hq, hp⟩
  case neg =>
    rw [drain_eq (by omega)] at c
    exact .inr ⟨by omega, written_of_course c⟩

theorem flush_ask {chunk : List Record} {go} (c : Course ((chunked size).flush rs) qs (.ask chunk go)) :
    ∃ done, qs = allTaken done ∧ Chunk.AllFull size (done ++ [chunk]) ∧
      (done ++ [chunk]).flatten <+: rs := by
  rcases flush_cases c with ⟨_, _, e, he⟩ | ⟨full, rest, hf, -, rfl, hw⟩
  case inl => cases he
  case inr =>
    cases hw with
    | @before done _ later _ he hg =>
      have he : full = done ++ [chunk] ++ later := by simp [he]
      refine ⟨done, rfl, (Chunk.AllFull.append_iff.mp (he ▸ hf)).left, ?_⟩
      exact ⟨later.flatten ++ rest, by simp [he]⟩

theorem flush_done (c : Course ((chunked size).flush rs) qs (.done o)) :
    Chunk.AllFull size (taken qs) ∧ (taken qs).flatten ++ o.left rs = rs := by
  rcases flush_cases c with ⟨-, rfl, e, he⟩ | ⟨full, rest, hf, -, rfl, hw⟩
  case inl =>
    cases he
    exact ⟨Chunk.AllFull.nil, rfl⟩
  case inr =>
    refine ⟨?_, hw.whole⟩
    cases hw with
    | all => simpa using hf
    | refused he =>
      simp only [taken_append, taken_allTaken, taken_error, List.append_nil]
      exact (Chunk.AllFull.append_iff.mp (he ▸ hf)).left

theorem flush_left (hs : 0 < size) (hq : NoneRefused qs)
    (c : Course ((chunked size).flush rs) qs (.done o)) : (o.left rs).length < size := by
  rcases flush_cases c with ⟨hz, -, e, he⟩ | ⟨full, rest, -, hr, -, hw⟩
  case inl =>
    cases he
    exact hz.resolve_left (by omega)
  case inr =>
    cases hw with
    | all => exact hr
    | refused => exact absurd hq not_noneRefused_error

theorem flush_not_crash (c : Course ((chunked size).flush rs) qs .crash) : False := by
  rcases flush_cases c with ⟨_, _, e, he⟩ | ⟨full, rest, -, -, -, hw⟩
  case inl => cases he
  case inr => cases hw

theorem drain_ask {chunk : List Record} {go} (c : Course ((chunked size).drain rs) qs (.ask chunk go)) :
    ∃ done later, qs = allTaken done ∧ 0 < size ∧ Chunk.windows size rs = done ++ chunk :: later := by
  rcases drain_cases c with ⟨-, -, he⟩ | ⟨hs, hw⟩
  case inl => cases he
  case inr =>
    cases hw with
    | before he => exact ⟨_, _, rfl, hs, he⟩

theorem drain_done (hs : 0 < size) (c : Course ((chunked size).drain rs) qs (.done o)) :
    (qs = allTaken (Chunk.windows size rs) ∧ o.left rs = []) ∨
    ∃ done chunk later e, Chunk.windows size rs = done ++ chunk :: later ∧
      qs = allTaken done ++ [(chunk, .error e)] ∧ o.left rs = (chunk :: later).flatten := by
  rcases drain_cases c with ⟨hz, -, -⟩ | ⟨-, hw⟩
  case inl => omega
  case inr =>
    cases hw with
    | all => exact .inl ⟨rfl, rfl⟩
    | refused he => exact .inr ⟨_, _, _, _, he, rfl, by simp [Outcome.left]⟩

theorem drain_whole (c : Course ((chunked size).drain rs) qs (.done o)) :
    (taken qs).flatten ++ o.left rs = rs := by
  rcases drain_cases c with ⟨-, rfl, he⟩ | ⟨hs, hw⟩
  case inl =>
    cases he
    rfl
  case inr =>
    have he : (taken qs).flatten ++ o.left rs = _ := hw.whole
    simpa [Chunk.flatten_windows hs] using he

theorem drain_not_crash (c : Course ((chunked size).drain rs) qs .crash) : False := by
  rcases drain_cases c with ⟨-, -, he⟩ | ⟨-, hw⟩
  case inl => cases he
  case inr => cases hw

theorem within_flush (size : Nat) (rs : List Record) : ∃ n, Within n ((chunked size).flush rs) := by
  by_cases hz : size = 0 ∨ rs.length < size
  case pos =>
    have ⟨e, he⟩ := flush_of_small hz
    exact ⟨0, he ▸ .done⟩
  case neg =>
    have hs : 0 < size := by omega
    obtain ⟨full, rest, hf, hr, rfl⟩ := Chunk.exists_full hs rs
    have hn : full ≠ [] := by
      rintro rfl
      exact hz (.inr (by simpa using hr))
    exact ⟨_, flush_of_full hf hr hn ▸ within_offer rest 0 full⟩

theorem within_drain (size : Nat) (rs : List Record) : Within rs.length ((chunked size).drain rs) := by
  by_cases hs : size = 0
  case pos => simp only [chunked, if_pos hs]; exact .done
  case neg =>
    rw [drain_eq (Nat.pos_of_ne_zero hs)]
    exact (within_offer [] 0 _).mono Chunk.length_windows_le

end WriteBehind.Flush
