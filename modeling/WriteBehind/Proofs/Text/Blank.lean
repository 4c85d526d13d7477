import WriteBehind.Text.Blank

namespace WriteBehind.Text

variable {a s b : List Char} {c : Char}

theorem dropWhile_isBlank (ha : ∀ c ∈ a, isBlank c = true) : a.dropWhile isBlank = [] := by
  have h : (a ++ []).dropWhile isBlank = [] := List.dropWhile_append_of_pos ha
  rwa [List.append_nil] at h

theorem trimStart_append (ha : ∀ c ∈ a, isBlank c = true) : trimStart (a ++ s) = trimStart s :=
  List.dropWhile_append_of_pos ha

theorem trimEnd_append (hb : ∀ c ∈ b, isBlank c = true) : trimEnd (s ++ b) = trimEnd s := by
  have hr : ∀ c ∈ b.reverse, isBlank c = true := fun c hc => hb c (List.mem_reverse.mp hc)
  rw [trimEnd, trimEnd, List.reverse_append, List.dropWhile_append_of_pos hr]

theorem trim_append (ha : ∀ c ∈ a, isBlank c = true) (hb : ∀ c ∈ b, isBlank c = true) :
    trim (a ++ s ++ b) = trim s := by
  rw [trim, trim, List.append_assoc, trimStart_append ha, trimStart, trimStart, List.dropWhile_append]
  split
  case isTrue he  => rw [dropWhile_isBlank hb, List.isEmpty_iff.mp he]
  case isFalse hn => exact trimEnd_append hb

theorem exists_trim (s : List Char) : ∃ a b, (∀ c ∈ a, isBlank c = true) ∧
    (∀ c ∈ b, isBlank c = true) ∧ s = a ++ trim s ++ b := by
  have ht (t : List Char) : ∀ c ∈ t.takeWhile isBlank, isBlank c = true :=
    List.all_eq_true.mp List.all_takeWhile
  refine ⟨s.takeWhile isBlank, ((trimStart s).reverse.takeWhile isBlank).reverse, ht s,
    fun c hc => ht _ c (List.mem_reverse.mp hc), ?_⟩
  rw [trim, trimEnd, List.append_assoc, ← List.reverse_append, List.takeWhile_append_dropWhile,
    List.reverse_reverse, trimStart, List.takeWhile_append_dropWhile]

theorem trim_of_ends (h : isBlank c = false) {d : Char} (hd : isBlank d = false) :
    trim (c :: s ++ [d]) = c :: s ++ [d] := by
  have hs : trimStart (c :: s ++ [d]) = c :: s ++ [d] :=
    List.dropWhile_cons_of_neg (by simp [h])
  have he : (c :: s ++ [d]).reverse = d :: (c :: s).reverse := List.reverse_concat
  rw [trim, hs, trimEnd, he, List.dropWhile_cons_of_neg (by simp [hd]), ← he, List.reverse_reverse]

end WriteBehind.Text
