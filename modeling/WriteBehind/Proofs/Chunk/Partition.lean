import WriteBehind.Proofs.Chunk.Windows

namespace WriteBehind.Chunk

variable {α : Type} {size : Nat} {xs : List α} {chunk : List α} {chunks : List (List α)} {i : Nat}

structure Partition (size : Nat) (xs : List α) (chunks : List (List α)) : Prop where
  flatten : chunks.flatten = xs
  count   : chunks.length = xs.length ⌈/⌉ size
  full    : AllFull size chunks.dropLast
  last    : ∀ chunk ∈ chunks.getLast?, 0 < chunk.length ∧ chunk.length ≤ size
  place   : ∀ i, chunks[i / size]?.bind (·[i % size]?) = xs[i]?

theorem length_windows (hs : 0 < size) (xs : List α) :
    (windows size xs).length = xs.length ⌈/⌉ size := by
  rw [windows_eq_slices hs, length_slices]

theorem length_of_getElem?_windows (hs : 0 < size) (hc : (windows size xs)[i]? = some chunk)
    (hi : i + 1 < (windows size xs).length) : chunk.length = size := by
  rw [length_windows hs, lt_ceilDiv hs, Nat.succ_mul] at hi
  rw [getElem?_windows hs, if_pos (by omega)] at hc
  cases hc
  rw [List.length_take, List.length_drop]
  omega

theorem allFull_dropLast_windows (hs : 0 < size) (xs : List α) :
    AllFull size (windows size xs).dropLast := by
  intro chunk hc
  obtain ⟨i, hi, rfl⟩ := List.getElem_of_mem hc
  rw [List.length_dropLast] at hi
  rw [List.getElem_dropLast]
  exact length_of_getElem?_windows hs (List.getElem?_eq_getElem (by omega)) (by omega)

-- The quotient of a place is the number of its window, and the remainder the place in the window.
theorem getElem?_bind_windows (hs : 0 < size) (xs : List α) (i : Nat) :
    (windows size xs)[i / size]?.bind (·[i % size]?) = xs[i]? := by
  have hi : i / size * size + i % size = i := Nat.div_add_mod' i size
  rw [getElem?_windows hs]
  split
  case isTrue  =>
    rw [Option.bind_some, List.getElem?_take_of_lt (Nat.mod_lt i hs), List.getElem?_drop, hi]
  case isFalse =>
    rw [Option.bind_none, List.getElem?_eq_none]
    omega

theorem partition_windows (hs : 0 < size) (xs : List α) : Partition size xs (windows size xs) where
  flatten := flatten_windows hs xs
  count   := length_windows hs xs
  full    := allFull_dropLast_windows hs xs
  place   := getElem?_bind_windows hs xs
  last chunk hc := by
    have ⟨hn, hl⟩ := bounded_of_mem_windows (List.mem_of_getLast? hc)
    exact ⟨List.length_pos_iff.mpr hn, hl⟩

theorem windows_of_le (hl : 0 < xs.length) (hs : xs.length ≤ size) : windows size xs = [xs] := by
  rcases Nat.lt_or_eq_of_le hs with hs | rfl
  case inl => exact windows_of_short (List.length_pos_iff.mp hl) hs
  case inr =>
    have hw : windows xs.length (xs ++ []) = xs :: windows xs.length [] := windows_append hl rfl
    rwa [List.append_nil, windows_nil] at hw

theorem Partition.eq_windows (p : Partition size xs chunks) (hs : 0 < size) :
    chunks = windows size xs := by
  rcases List.eq_nil_or_concat chunks with rfl | ⟨full, last, rfl⟩
  case inl => rw [← p.flatten, List.flatten_nil, windows_nil]
  case inr =>
    have hf := p.full
    have ⟨hl, hs'⟩ := p.last last (by simp)
    rw [List.concat_eq_append, List.dropLast_concat] at hf
    rw [← p.flatten, List.concat_eq_append, List.flatten_append, List.flatten_singleton,
      windows_flatten_append hs hf, windows_of_le hl hs']

theorem split_eq_error_iff {e : Fault} : split size xs = .error e ↔
    size = 0 ∧ e = .zeroSize ∨ 0 < size ∧ xs.length < size ∧ e = .tooSmall xs.length size := by
  rw [split]
  split
  case isTrue hz  => simp [hz, eq_comm]
  case isFalse hz =>
    split
    case isTrue hl  => simp [hz, hl, Nat.pos_of_ne_zero hz, eq_comm]
    case isFalse hl => simp [hz, hl]

theorem split_eq_ok_iff :
    split size xs = .ok chunks ↔ 0 < size ∧ size ≤ xs.length ∧ windows size xs = chunks := by
  rw [split]
  split
  case isTrue hz  => simp [hz]
  case isFalse hz =>
    split
    case isTrue hl  => simp [Nat.not_le.mpr hl]
    case isFalse hl => simp [Nat.pos_of_ne_zero hz, Nat.not_lt.mp hl]

-- A list that fills at least one chunk is cut into its one partition, and no other list is cut at all.
theorem split_partitions (size : Nat) (xs : List α) :
    ((∃ chunks, split size xs = .ok chunks) ↔ 0 < size ∧ size ≤ xs.length) ∧
    (∀ chunks, split size xs = .ok chunks ↔
      0 < size ∧ size ≤ xs.length ∧ Partition size xs chunks) ∧
    ∀ e, split size xs = .error e ↔
      size = 0 ∧ e = .zeroSize ∨ 0 < size ∧ xs.length < size ∧ e = .tooSmall xs.length size := by
  refine ⟨?succeeds, fun chunks => ?_, fun e => split_eq_error_iff⟩
  case succeeds => simp only [split_eq_ok_iff, exists_and_left, exists_eq', and_true]
  rw [split_eq_ok_iff]
  refine and_congr_right fun hs => and_congr_right fun _ => ⟨?_, fun p => (p.eq_windows hs).symm⟩
  rintro rfl
  exact partition_windows hs xs

end WriteBehind.Chunk
