import Mathlib.Algebra.Order.Floor.Div
import Mathlib.Data.List.Basic
import WriteBehind.Chunk

namespace WriteBehind.Chunk

variable {α : Type} {size : Nat} {xs : List α} {chunks chunks' : List (List α)}

def AllFull (size : Nat) (chunks : List (List α)) : Prop := ∀ chunk ∈ chunks, chunk.length = size

namespace AllFull

theorem nil : AllFull size ([] : List (List α)) := by simp [AllFull]

theorem append_iff : AllFull size (chunks ++ chunks') ↔ AllFull size chunks ∧ AllFull size chunks' := by
  simp [AllFull, or_imp, forall_and]

theorem cons_iff {chunk : List α} :
    AllFull size (chunk :: chunks) ↔ chunk.length = size ∧ AllFull size chunks := by
  simp [AllFull]

theorem length_flatten (h : AllFull size chunks) : chunks.flatten.length = size * chunks.length := by
  induction chunks with
  | nil => rfl
  | cons chunk chunks hi =>
    have ⟨hc, h⟩ := cons_iff.mp h
    rw [List.flatten_cons, List.length_append, hc, hi h, List.length_cons, Nat.mul_succ, Nat.add_comm]

end AllFull

theorem windows_append (hs : 0 < size) {chunk : List α} (hc : chunk.length = size) :
    windows size (chunk ++ xs) = chunk :: windows size xs := by
  have hn : chunk ++ xs ≠ [] := by
    intro h
    simp [(List.append_eq_nil_iff.mp h).left] at hc
    omega
  rw [windows_of_ne_nil hs hn, ← hc, List.take_left', List.drop_left'] <;> rfl

theorem windows_flatten_append (hs : 0 < size) (h : AllFull size chunks) :
    windows size (chunks.flatten ++ xs) = chunks ++ windows size xs := by
  induction chunks with
  | nil => rfl
  | cons chunk chunks hi =>
    have ⟨hc, h⟩ := AllFull.cons_iff.mp h
    rw [List.flatten_cons, List.append_assoc, windows_append hs hc, hi h, List.cons_append]

theorem windows_of_short (hn : xs ≠ []) (hl : xs.length < size) : windows size xs = [xs] := by
  rw [windows_of_ne_nil (by omega) hn, List.take_of_length_le (by omega),
    List.drop_of_length_le (by omega), windows_nil]

theorem length_windows_le : (windows size xs).length ≤ xs.length := by
  fun_induction windows size xs with
  | case1         => exact Nat.zero_le _
  | case2 xs h ih =>
    have hx : xs ≠ [] := fun hx => h (.inr hx)
    have hl := List.length_pos_iff.mpr hx
    simp only [List.length_cons, List.length_drop] at ih ⊢
    omega

theorem bounded_of_mem_windows {chunk : List α} (h : chunk ∈ windows size xs) :
    chunk ≠ [] ∧ chunk.length ≤ size := by
  fun_induction windows size xs with
  | case1 => cases h
  | case2 xs hn hi =>
    obtain ⟨hs, hx⟩ := not_or.mp hn
    cases List.mem_cons.mp h with
    | inl hc => simp [hc, List.take_eq_nil_iff, hs, hx]
    | inr hc => exact hi hc

theorem exists_full (hs : 0 < size) (xs : List α) :
    ∃ full rest, AllFull size full ∧ rest.length < size ∧ xs = full.flatten ++ rest := by
  fun_induction windows size xs with
  | case1 xs h =>
    have hn : xs = [] := h.resolve_left (by omega)
    exact ⟨[], [], AllFull.nil, hs, by simp [hn]⟩
  | case2 xs h hi =>
    by_cases hl : xs.length < size
    case pos => exact ⟨[], xs, AllFull.nil, hl, rfl⟩
    case neg =>
      obtain ⟨full, rest, hf, hr, he⟩ := hi
      have ht : (xs.take size).length = size := by simp; omega
      refine ⟨xs.take size :: full, rest, AllFull.cons_iff.mpr ⟨ht, hf⟩, hr, ?_⟩
      rw [List.flatten_cons, List.append_assoc, ← he, List.take_append_drop]

theorem prefix_windows (hs : 0 < size) (h : AllFull size chunks) (hp : chunks.flatten <+: xs) :
    chunks <+: windows size xs := by
  obtain ⟨rest, rfl⟩ := hp
  exact ⟨_, (windows_flatten_append hs h).symm⟩

theorem prefix_or_prefix (hs : 0 < size) (h : AllFull size chunks) (h' : AllFull size chunks')
    (hp : chunks.flatten <+: xs) (hp' : chunks'.flatten <+: xs) :
    chunks <+: chunks' ∨ chunks' <+: chunks :=
  List.prefix_or_prefix_of_prefix (prefix_windows hs h hp) (prefix_windows hs h' hp')

theorem getElem?_windows (hs : 0 < size) (xs : List α) (i : Nat) :
    (windows size xs)[i]? =
      if i * size < xs.length then some ((xs.drop (i * size)).take size) else none := by
  induction i generalizing xs with
  | zero =>
    by_cases hn : xs = []
    case pos => simp [hn, windows_nil]
    case neg => simp [windows_of_ne_nil hs hn, List.length_pos_iff.mpr hn]
  | succ i hi =>
    by_cases hn : xs = []
    case pos => simp [hn, windows_nil]
    case neg =>
      rw [windows_of_ne_nil hs hn, List.getElem?_cons_succ, hi, List.drop_drop, List.length_drop,
        Nat.succ_mul, Nat.add_comm size]
      split <;> split <;> first | rfl | omega

theorem flatten_take_windows (hs : 0 < size) (xs : List α) (n : Nat) :
    ((windows size xs).take n).flatten = xs.take (n * size) := by
  induction n generalizing xs with
  | zero => simp
  | succ n hi =>
    by_cases hn : xs = []
    case pos => simp [hn, windows_nil]
    case neg =>
      rw [windows_of_ne_nil hs hn, List.take_succ_cons, List.flatten_cons, hi, Nat.succ_mul,
        Nat.add_comm, List.take_add]

def slices (size : Nat) (xs : List α) (count : Nat) : List (List α) :=
  (List.range count).map fun i => (xs.drop (i * size)).take size

variable {count i : Nat}

@[simp] theorem length_slices : (slices size xs count).length = count := by simp [slices]

theorem getElem?_slices (h : i < count) :
    (slices size xs count)[i]? = some ((xs.drop (i * size)).take size) := by
  rw [slices, List.getElem?_map, List.getElem?_range h, Option.map_some]

theorem take_slices (h : i ≤ count) : (slices size xs count).take i = slices size xs i := by
  rw [slices, ← List.map_take, List.take_range, Nat.min_eq_left h, slices]

theorem flatten_slices : (slices size xs count).flatten = xs.take (count * size) := by
  induction count with
  | zero => rw [Nat.zero_mul]; rfl
  | succ n hi =>
    rw [slices, List.range_succ, List.map_append, List.flatten_append, ← slices, hi, List.map_singleton,
      List.flatten_singleton, Nat.add_mul, Nat.one_mul, List.take_add]

-- The windows begin where the list has not ended yet, so that their number is rounded up.
theorem lt_ceilDiv (hs : 0 < size) : i < xs.length ⌈/⌉ size ↔ i * size < xs.length := by
  rw [← Nat.not_le, ceilDiv_le_iff_le_mul hs, Nat.not_le, Nat.mul_comm]

theorem windows_eq_slices (hs : 0 < size) (xs : List α) :
    windows size xs = slices size xs (xs.length ⌈/⌉ size) := by
  apply List.ext_getElem?
  intro i
  rw [getElem?_windows hs]
  split
  next hi => exact (getElem?_slices ((lt_ceilDiv hs).mpr hi)).symm
  next hi =>
    rw [List.getElem?_eq_none]
    rw [length_slices, ← Nat.not_lt]
    exact mt (lt_ceilDiv hs).mp hi

theorem eq_slices_of_full (hs : 0 < size) {rest : List α} (hf : AllFull size chunks)
    (hr : rest.length < size) (he : xs = chunks.flatten ++ rest) :
    chunks = slices size xs (xs.length / size) ∧ rest = xs.drop (xs.length / size * size) := by
  have hl : xs.length = size * chunks.length + rest.length := by
    rw [he, List.length_append, hf.length_flatten]
  have hn : xs.length / size = chunks.length := by
    rw [hl, Nat.mul_add_div hs, Nat.div_eq_of_lt hr, Nat.add_zero]
  have hw : windows size xs = chunks ++ windows size rest := he ▸ windows_flatten_append hs hf
  have hc : chunks.length ≤ xs.length ⌈/⌉ size := by
    have hp : chunks <+: slices size xs (xs.length ⌈/⌉ size) := by
      rw [← windows_eq_slices hs, hw]
      exact List.prefix_append _ _
    exact hp.length_le.trans_eq length_slices
  rw [hn]
  constructor
  · rw [← take_slices hc, ← windows_eq_slices hs, hw, List.take_left]
  · rw [he, Nat.mul_comm, ← hf.length_flatten, List.drop_left]

end WriteBehind.Chunk
