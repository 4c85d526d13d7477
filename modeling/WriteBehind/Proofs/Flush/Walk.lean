import WriteBehind.Proofs.Flush.Course

namespace WriteBehind.Flush

open Chunk (slices)
open Log (Notice)

namespace Attempt

variable {Op Ans σ : Type}

def asked (es : List (Event Op Ans)) : List (Op × Ans) :=
  es.filterMap fun
    | .answered op x => some (op, x)
    | .logged _      => none

def told (answer : Op → σ → List Notice × Ans × σ) : List Op → σ → List Ans × σ
  | [], s        => ([], s)
  | op :: ops, s =>
    let (_, x, s) := answer op s
    let (xs, s)   := told answer ops s
    (x :: xs, s)

def Pause.ofEnd : Option Outcome → Pause Op Ans
  | some o => .done o
  | none   => .crash

variable {a : Attempt Op Ans}
variable {es es' : List (Event Op Ans)} {qs : List (Op × Ans)} {op : Op} {x : Ans} {p : Pause Op Ans}

@[simp] theorem asked_append : asked (es ++ es') = asked es ++ asked es' := List.filterMap_append

@[simp] theorem asked_logged {n : Notice} : asked (.logged n :: es) = asked es := rfl

@[simp] theorem asked_answered : asked (.answered op x :: es) = (op, x) :: asked es := rfl

@[simp] theorem asked_notices {ns : List Notice} :
    asked (ns.map .logged : List (Event Op Ans)) = [] := by
  simp [asked, List.filterMap_map]

theorem Course.log {n : Notice} (c : Course a qs p) : Course (.log n a) qs p := by
  induction c with
  | start h       => exact .start h
  | answer _ h hi => exact .answer hi h

theorem Course.cons {next : Ans → Attempt Op Ans} (c : Course (next x) qs p) :
    Course (.ask op next) ((op, x) :: qs) p := by
  induction c with
  | start h =>
    have c : Course (.ask op next) [] (.ask op next) := .start rfl
    exact c.answer h
  | answer _ h hi => exact .answer hi h

theorem course_of_run (a : Attempt Op Ans) (answer : Op → σ → List Notice × Ans × σ) (s : σ) :
    Course a (asked (a.run answer s).1) (.ofEnd (a.run answer s).2.1) := by
  induction a generalizing s with
  | done | crash   => exact .start rfl
  | log n rest hi  => exact (hi s).log
  | ask op next hi =>
    have c : Course (.ask op next) ((op, (answer op s).2.1) :: _) _ := (hi _ (answer op s).2.2).cons
    simpa [run] using c

theorem told_of_run (a : Attempt Op Ans) (answer : Op → σ → List Notice × Ans × σ) (s : σ) :
    told answer ((asked (a.run answer s).1).map (·.1)) s
      = ((asked (a.run answer s).1).map (·.2), (a.run answer s).2.2) := by
  induction a generalizing s with
  | done | crash   => rfl
  | log n rest hi  => exact hi s
  | ask op next hi => simp [run, told, hi]

end Attempt

open Attempt (Course Pause asked told)

variable {size count : Nat} {rs rest : List Record} {chunks : List (List Record)}
variable {qs : List (List Record × Receipt)} {o : Outcome}

-- How a walk over so many windows of the records goes: all of them are taken and the rest is left, or one
-- is refused, and everything is left from there on.
inductive Walks (size : Nat) (rs : List Record) (count : Nat) (rest : List Record) :
    List (List Record × Receipt) → Outcome → Prop
  | all : Walks size rs count rest (allTaken (slices size rs count)) (.ok rest)
  | refused {i e} :
    i < count →
    Walks size rs count rest
      (allTaken (slices size rs i) ++ [((rs.drop (i * size)).take size, .error e)])
      (.error (.sink i (rs.drop (i * size)) e))

inductive Flushes (size : Nat) (rs : List Record) : List (List Record × Receipt) → Outcome → Prop
  | zeroSize :
    size = 0 →
    Flushes size rs [] (.error (.chunking .zeroSize))
  | tooSmall :
    0 < size →
    rs.length < size →
    Flushes size rs [] (.error (.chunking (.tooSmall rs.length size)))
  | walk {qs : List (List Record × Receipt)} {o : Outcome} :
    0 < size →
    size ≤ rs.length →
    Walks size rs (rs.length / size) (rs.drop (rs.length / size * size)) qs o →
    Flushes size rs qs o

inductive Drains (size : Nat) (rs : List Record) : List (List Record × Receipt) → Outcome → Prop
  | zeroSize :
    size = 0 →
    Drains size rs [] (.error (.chunking .zeroSize))
  | walk {qs : List (List Record × Receipt)} {o : Outcome} :
    0 < size →
    Walks size rs (rs.length ⌈/⌉ size) [] qs o →
    Drains size rs qs o

structure Runs {σ : Type} (a : ChunkAttempt) (answer : List Record → σ → List Notice × Receipt × σ)
    (s : σ) (qs : List (List Record × Receipt)) (o : Outcome) (s' : σ) : Prop where
  run  : ∃ es, a.run answer s = (es, some o, s') ∧ asked es = qs
  told : told answer (qs.map (·.1)) s = (qs.map (·.2), s')

-- Nothing of the records is lost or doubled, and no question lies beyond their end, so that its place does
-- not overflow.
structure Keeps (size : Nat) (rs : List Record) (qs : List (List Record × Receipt)) (o : Outcome) :
    Prop where
  whole  : (taken qs).flatten ++ o.left rs = rs
  within : ∀ i < qs.length, i * size < rs.length
  words  : rs.length < USize.size → ∀ i < qs.length, (USize.ofNat i * USize.ofNat size).toNat = i * size

theorem slices_of_append {done later : List (List Record)} {chunk : List Record}
    (hc : slices size rs count = done ++ chunk :: later)
    (hr : (slices size rs count).flatten ++ rest = rs) :
    done.length < count ∧ done = slices size rs done.length ∧
      chunk = (rs.drop (done.length * size)).take size ∧
      chunk ++ later.flatten ++ rest = rs.drop (done.length * size) := by
  have hl : done.length < count := by
    have h := congrArg List.length hc
    rw [Chunk.length_slices, List.length_append, List.length_cons] at h
    omega
  have hd : done = slices size rs done.length := by
    rw [← Chunk.take_slices (Nat.le_of_lt hl), hc, List.take_left]
  refine ⟨hl, hd, ?_, ?_⟩
  · have h : (slices size rs count)[done.length]? = _ := Chunk.getElem?_slices hl
    rw [hc, List.getElem?_append_right (Nat.le_refl _), Nat.sub_self, List.getElem?_cons_zero] at h
    exact Option.some.inj h
  · have ht : done.flatten = rs.take (done.length * size) := by
      rw [← Chunk.flatten_slices, ← hd]
    have hw : rs.take (done.length * size) ++ (chunk ++ later.flatten ++ rest)
        = rs.take (done.length * size) ++ rs.drop (done.length * size) := by
      rw [List.take_append_drop, ← ht]
      conv => rhs; rw [← hr, hc]
      simp
    exact List.append_cancel_left hw

theorem walks_of_written (hc : chunks = slices size rs count) (hr : chunks.flatten ++ rest = rs)
    (hw : Written rest 0 chunks qs (.done o)) : Walks size rs count rest qs o := by
  subst hc
  cases hw with
  | all => exact .all
  | @refused done chunk later e he =>
    obtain ⟨hl, hd, hk, hx⟩ := slices_of_append he hr
    have hw : Walks size rs count rest (allTaken (slices size rs done.length) ++ [(_, .error e)]) _ :=
      .refused hl
    rw [← hd, ← hk, ← hx] at hw
    rwa [Nat.zero_add]

theorem Walks.length_le (hw : Walks size rs count rest qs o) : qs.length ≤ count := by
  cases hw with
  | all        => simp
  | refused hl => simpa using Nat.succ_le_of_lt hl

theorem Walks.whole (hr : rest = rs.drop (count * size)) (hw : Walks size rs count rest qs o) :
    (taken qs).flatten ++ o.left rs = rs := by
  cases hw with
  | all =>
    rw [taken_allTaken, Chunk.flatten_slices, hr]
    exact List.take_append_drop _ _
  | refused =>
    rw [taken_append, taken_allTaken, taken_error, List.append_nil, Chunk.flatten_slices]
    exact List.take_append_drop _ _

theorem toNat_place {i n : Nat} (hi : i * size < n) (hn : n < USize.size) :
    (USize.ofNat i * USize.ofNat size).toNat = i * size := by
  rw [← USize.ofNat_mul, USize.toNat_ofNat_of_lt' (Nat.lt_trans hi hn)]

theorem Keeps.of_chunking {e : Chunk.Fault} : Keeps size rs [] (.error (.chunking e)) :=
  ⟨rfl, nofun, fun _ => nofun⟩

theorem Walks.keeps (hr : rest = rs.drop (count * size)) (hc : ∀ i < count, i * size < rs.length)
    (hw : Walks size rs count rest qs o) : Keeps size rs qs o where
  whole         := hw.whole hr
  within i hi   := hc i (Nat.lt_of_lt_of_le hi hw.length_le)
  words hn i hi := toNat_place (hc i (Nat.lt_of_lt_of_le hi hw.length_le)) hn

theorem flushes_of_course (c : Course ((chunked size).flush rs) qs (.done o)) :
    Flushes size rs qs o := by
  by_cases hz : size = 0
  case pos =>
    have hf : (chunked size).flush rs = .done (.error (.chunking .zeroSize)) := by
      simp [chunked, Chunk.split, hz]
    obtain ⟨rfl, hp⟩ := course_of_done (hf ▸ c)
    cases hp
    exact .zeroSize hz
  case neg =>
    have hs : 0 < size := Nat.pos_of_ne_zero hz
    by_cases hl : rs.length < size
    case pos =>
      have hf : (chunked size).flush rs = .done (.error (.chunking (.tooSmall rs.length size))) := by
        simp [chunked, Chunk.split, hz, hl]
      obtain ⟨rfl, hp⟩ := course_of_done (hf ▸ c)
      cases hp
      exact .tooSmall hs hl
    case neg =>
      rcases flush_cases c with ⟨h, -, -⟩ | ⟨full, rest, hf, hr, he, hw⟩
      case inl => exact absurd h (by omega)
      case inr =>
        obtain ⟨hc, hd⟩ := Chunk.eq_slices_of_full hs hf hr he
        exact .walk hs (by omega) (hd ▸ walks_of_written hc he.symm hw)

theorem drains_of_course (c : Course ((chunked size).drain rs) qs (.done o)) :
    Drains size rs qs o := by
  rcases drain_cases c with ⟨hz, rfl, hp⟩ | ⟨hs, hw⟩
  case inl =>
    cases hp
    exact .zeroSize hz
  case inr =>
    refine .walk hs (walks_of_written (Chunk.windows_eq_slices hs rs) ?_ hw)
    rw [List.append_nil, Chunk.flatten_windows hs]

theorem Flushes.keeps (hf : Flushes size rs qs o) : Keeps size rs qs o := by
  cases hf with
  | zeroSize | tooSmall => exact .of_chunking
  | walk hs _ hw        =>
    refine hw.keeps rfl fun i hi => ?_
    calc i * size
      _ < rs.length / size * size := Nat.mul_lt_mul_of_pos_right hi hs
      _ ≤ rs.length               := Nat.div_mul_le_self _ _

theorem Drains.keeps (hd : Drains size rs qs o) : Keeps size rs qs o := by
  cases hd with
  | zeroSize   => exact .of_chunking
  | walk hs hw =>
    refine hw.keeps ?_ fun i hi => (Chunk.lt_ceilDiv hs).mp hi
    have hl : rs.length ≤ size * (rs.length ⌈/⌉ size) := (ceilDiv_le_iff_le_mul hs).mp (Nat.le_refl _)
    rw [List.drop_of_length_le (Nat.mul_comm _ _ ▸ hl)]

theorem exists_runs {σ : Type} (a : ChunkAttempt) (hc : ∀ qs, ¬Course a qs .crash)
    (answer : List Record → σ → List Notice × Receipt × σ) (s : σ) :
    ∃ qs o s', Runs a answer s qs o s' ∧ Course a qs (.done o) := by
  have c := Attempt.course_of_run a answer s
  cases ho : (a.run answer s).2.1 with
  | none =>
    rw [ho] at c
    exact absurd c (hc _)
  | some o =>
    rw [ho] at c
    refine ⟨_, o, _, ⟨⟨(a.run answer s).1, ?_, rfl⟩, Attempt.told_of_run a answer s⟩, c⟩
    rw [← ho]

-- Whatever the records, the size and the storage, a flush walks over the full windows, and a drain over all
-- of them.
theorem attempts_walk {σ : Type} (size : Nat) (rs : List Record)
    (answer : List Record → σ → List Notice × Receipt × σ) (s : σ) :
    (∃ qs o s', Runs ((chunked size).flush rs) answer s qs o s' ∧ Flushes size rs qs o ∧
      Keeps size rs qs o) ∧
    ∃ qs o s', Runs ((chunked size).drain rs) answer s qs o s' ∧ Drains size rs qs o ∧
      Keeps size rs qs o := by
  constructor
  · have ⟨qs, o, s', r, c⟩ := exists_runs ((chunked size).flush rs) (fun _ => flush_not_crash) answer s
    have f : Flushes size rs qs o := flushes_of_course c
    exact ⟨qs, o, s', r, f, f.keeps⟩
  · have ⟨qs, o, s', r, c⟩ := exists_runs ((chunked size).drain rs) (fun _ => drain_not_crash) answer s
    have d : Drains size rs qs o := drains_of_course c
    exact ⟨qs, o, s', r, d, d.keeps⟩

end WriteBehind.Flush
