import Mathlib.Algebra.Group.Nat.Defs
import Mathlib.Data.List.TakeWhile
import WriteBehind.Time.Strict

namespace WriteBehind.Time

variable {k n : Nat} {s : List Char}

theorem padded_succ (hk : 0 < k) : padded (k + 1) n = padded k (n / 10) ++ [(n % 10).digitChar] := by
  by_cases hn : n < 10
  case pos =>
    obtain ⟨k, rfl⟩ := Nat.exists_eq_add_of_lt hk
    simp only [padded, Nat.div_eq_of_lt hn, Nat.mod_eq_of_lt hn, Nat.toDigits_zero,
      Nat.toDigits_of_lt_base hn, List.length_singleton, Nat.add_sub_cancel, Nat.zero_add]
    rw [List.replicate_succ']
  case neg =>
    simp only [padded, Nat.toDigits_of_base_le (Nat.lt_of_sub_eq_succ rfl : 1 < 10) (Nat.not_lt.mp hn),
      List.length_append, List.length_singleton, Nat.add_sub_add_right, List.append_assoc]

theorem padded_one (hn : n < 10) : padded 1 n = [n.digitChar] := by
  rw [padded, Nat.toDigits_of_lt_base hn]
  rfl

theorem padded_two (hn : n < 100) : padded 2 n = [(n / 10).digitChar, (n % 10).digitChar] := by
  rw [padded_succ Nat.one_pos, padded_one (by omega)]
  rfl

theorem padded_four : padded 4 n = padded 2 (n / 100) ++ padded 2 (n % 100) := by
  have hh : n / 10 / 10 = n / 100 := Nat.div_div_eq_div_mul n 10 10
  have ht : n / 10 % 10 = n % 100 / 10 := by omega
  have hu : n % 10 = n % 100 % 10 := by omega
  have hn : n % 100 < 100 := Nat.mod_lt n (by decide)
  rw [padded_succ (Nat.succ_pos 2), padded_succ (Nat.succ_pos 1), hh, ht, hu, padded_two hn,
    List.append_assoc]
  rfl

theorem isDigit_of_mem_padded {c : Char} (hc : c ∈ padded k n) : c.isDigit = true := by
  cases List.mem_append.mp hc with
  | inl hz => exact (List.mem_replicate.mp hz).right ▸ rfl
  | inr hd => exact Nat.isDigit_of_mem_toDigits (by decide) (by decide) hd

theorem le_length_padded : k ≤ (padded k n).length := by
  rw [padded, List.length_append, List.length_replicate]
  omega

theorem length_padded (hk : 0 < k) (hn : n < 10 ^ k) : (padded k n).length = k := by
  have hl : (Nat.toDigits 10 n).length ≤ k := (Nat.length_toDigits_le_iff (by decide) hk).mpr hn
  rw [padded, List.length_append, List.length_replicate]
  exact Nat.sub_add_cancel hl

theorem ofDigitChars_padded : Nat.ofDigitChars 10 (padded k n) 0 = n := by
  rw [padded, Nat.ofDigitChars_append, Nat.ofDigitChars_replicate_zero, Nat.mul_zero,
    Nat.ofDigitChars_ten_toDigits]

theorem digit?_digitChar (hn : n < 10) : digit? n.digitChar = some n := by
  rw [digit?, if_pos (by rw [Nat.isDigit_digitChar, decide_eq_true hn])]
  exact congrArg some (Nat.toNat_digitChar_sub_48_of_lt_ten hn)

theorem Strict.digit_digitChar (hn : n < 10) : digit (n.digitChar :: s) = .ok (n, s) := by
  rw [digit, digit?_digitChar hn]

theorem Strict.twoDigits_padded (hn : n < 100) : twoDigits (padded 2 n ++ s) = .ok (n, s) := by
  have ht : n / 10 < 10 := by omega
  have hu : n % 10 < 10 := Nat.mod_lt n (by decide)
  rw [padded_two hn, List.cons_append, List.cons_append, List.nil_append, twoDigits,
    digit_digitChar ht]
  change (digit ((n % 10).digitChar :: s) >>= fun p => pure (10 * (n / 10) + p.1, p.2)) = _
  rw [digit_digitChar hu]
  exact congrArg (fun n => Except.ok (n, s)) (Nat.div_add_mod n 10)

theorem number_append {most : Nat} {c : Char} {cs : List Char} (hd : ∀ d ∈ c :: cs, d.isDigit = true)
    (hl : (c :: cs).length = most ∨ (c :: cs).length ≤ most ∧ ∀ d ∈ s.head?, d.isDigit = false)
    (hn : Nat.ofDigitChars 10 (c :: cs) 0 < 0x8000000000000000) :
    number most (c :: cs ++ s) = .ok (Nat.ofDigitChars 10 (c :: cs) 0, s) := by
  have ht : ((c :: cs ++ s).take most).takeWhile Char.isDigit = c :: cs := by
    rcases hl with rfl | ⟨hl, hs⟩
    case inl => rw [List.take_left, List.takeWhile_eq_self_iff.mpr hd]
    case inr =>
      rw [List.take_append, List.take_of_length_le hl, List.takeWhile_append_of_pos hd]
      cases s with
      | nil      => simp
      | cons d s =>
        have hd : d.isDigit = false := hs d rfl
        cases most - (c :: cs).length <;> simp [hd]
  rw [List.cons_append] at ht ⊢
  simp only [number, ht, hd c List.mem_cons_self, hn, Bool.not_true, Bool.false_eq_true, if_true,
    if_false, List.length_cons, List.drop_succ_cons, List.drop_left]

theorem number_padded {most : Nat} (hk : 0 < k)
    (hl : (padded k n).length = most ∨
      (padded k n).length ≤ most ∧ ∀ d ∈ s.head?, d.isDigit = false)
    (hn : n < 0x8000000000000000) : number most (padded k n ++ s) = .ok (n, s) := by
  have hv : Nat.ofDigitChars 10 (padded k n) 0 = n := ofDigitChars_padded
  cases hp : padded k n with
  | nil =>
    have hk' : k ≤ (padded k n).length := le_length_padded
    rw [hp, List.length_nil] at hk'
    omega
  | cons c cs =>
    rw [hp] at hl hv
    have hd : ∀ d ∈ c :: cs, d.isDigit = true := fun d hd => isDigit_of_mem_padded (hp ▸ hd)
    rw [number_append hd hl (hv ▸ hn), hv]

theorem fraction_padded (hk : 0 < k) (hk' : k ≤ 9) (hn : n < 10 ^ k) :
    fraction (padded k n ++ 'Z' :: s) = .ok (n * 10 ^ (9 - k), 'Z' :: s) := by
  have hl : (padded k n).length = k := length_padded hk hn
  have hs : (padded k n ++ 'Z' :: s).length - ('Z' :: s).length = k := by
    rw [List.length_append, Nat.add_sub_cancel, hl]
  have hb : n < 0x8000000000000000 :=
    Nat.lt_of_lt_of_le hn (Nat.le_trans (Nat.pow_le_pow_right (by decide) hk') (by decide))
  rw [fraction, number_padded hk (.inr ⟨Nat.le_trans (Nat.le_of_eq hl) hk', by simp⟩) hb]
  simp only [bind, Except.bind, pure, Except.pure, hs]
  rfl

-- The fraction of a second is read as it was written, whatever its number of digits.
theorem fraction?_fractionText (hn : n < 1000000000) :
    fraction? (fractionText n ++ 'Z' :: s) = .ok (n, 'Z' :: s) := by
  rw [fractionText]
  split
  case isTrue h0 => exact h0 ▸ rfl
  case isFalse =>
    split
    case isTrue h3 =>
      have hv : n / 1000000 * 10 ^ (9 - 3) = n := by omega
      rw [List.cons_append, fraction?, fraction_padded (by decide) (by decide) (by omega), hv]
    case isFalse =>
      split
      case isTrue h6 =>
        have hv : n / 1000 * 10 ^ (9 - 6) = n := by omega
        rw [List.cons_append, fraction?, fraction_padded (by decide) (by decide) (by omega), hv]
      case isFalse =>
        rw [List.cons_append, fraction?, fraction_padded (by decide) (by decide) hn]
        exact congrArg (fun n => Except.ok (n, 'Z' :: s)) (Nat.mul_one n)

end WriteBehind.Time
