import WriteBehind.Time.Calendar

namespace WriteBehind.Time.Date

-- A year is told by its place in the cycles of 400, 100 and 4 years.
section Cycles

variable {a b c d : Int}

theorem daysBeforeYear_cycle (hb : 0 ≤ b ∧ b ≤ 3) (hc : 0 ≤ c ∧ c ≤ 24) (hd : 0 ≤ d ∧ d ≤ 3) :
    daysBeforeYear (400 * a + 100 * b + 4 * c + d + 1)
      = 146097 * a + 36524 * b + 1461 * c + 365 * d := by
  simp only [daysBeforeYear]
  omega

theorem isLeapYear_cycle (hc : 0 ≤ c ∧ c ≤ 24) (hd : d = 3) (hn : c = 24 → b = 3) :
    isLeapYear (400 * a + 100 * b + 4 * c + d + 1) = true := by
  simp only [isLeapYear, Bool.and_eq_true, Bool.or_eq_true, decide_eq_true_eq]
  omega

end Cycles

def yearLength (year : Int) : Nat := if isLeapYear year then 366 else 365

theorem daysBeforeYear_yearOf (n : Int) :
    daysBeforeYear (yearOf n) ≤ n ∧ n < daysBeforeYear (yearOf n) + yearLength (yearOf n) := by
  simp only [yearOf]
  generalize ha : n / 146097 = a
  generalize hr : n % 146097 = r
  generalize hb : min (r / 36524) 3 = b
  generalize hq : r - 36524 * b = q
  generalize hc : q / 1461 = c
  generalize hp : q % 1461 = p
  generalize hd : min (p / 365) 3 = d
  have hn : n = 146097 * a + 36524 * b + 1461 * c + p := by omega
  have hb' : 0 ≤ b ∧ b ≤ 3 := by omega
  have hc' : 0 ≤ c ∧ c ≤ 24 := by omega
  have hd' : 0 ≤ d ∧ d ≤ 3 := by omega
  rw [daysBeforeYear_cycle hb' hc' hd']
  refine ⟨by omega, ?_⟩
  have hl : 365 ≤ yearLength (400 * a + 100 * b + 4 * c + d + 1) := by
    rw [yearLength]
    split <;> omega
  by_cases he : p = 1460
  case neg => omega
  case pos =>
    have hy : yearLength (400 * a + 100 * b + 4 * c + d + 1) = 366 := by
      rw [yearLength, isLeapYear_cycle hc' (by omega) (by omega)]
      rfl
    omega

theorem daysBeforeYear_add_yearLength_le {y y' : Int} (hy : y < y') :
    daysBeforeYear y + yearLength y ≤ daysBeforeYear y' := by
  simp only [daysBeforeYear, yearLength, isLeapYear, Bool.and_eq_true, Bool.or_eq_true,
    decide_eq_true_eq]
  split <;> omega

theorem le_yearOf {y n : Int} (hn : daysBeforeYear y ≤ n) : y ≤ yearOf n := by
  refine Int.not_lt.mp fun hy => ?_
  have hl := (daysBeforeYear_yearOf n).right
  have hs := daysBeforeYear_add_yearLength_le hy
  omega

theorem yearOf_lt {y n : Int} (hn : n < daysBeforeYear y) : yearOf n < y := by
  refine Int.not_le.mp fun hy => ?_
  have hl := (daysBeforeYear_yearOf n).left
  rcases Int.lt_or_eq_of_le hy with hy | rfl
  case inl =>
    have hs := daysBeforeYear_add_yearLength_le hy
    omega
  case inr => omega

theorem sum_monthLengths (year : Int) : (monthLengths year).foldr (· + ·) 0 = yearLength year := by
  rw [monthLengths, yearLength]
  split <;> rfl

theorem monthLengths_le (year : Int) : ∀ n ∈ monthLengths year, n ≤ 31 := by
  rw [monthLengths]
  split <;> decide

theorem monthAndDay_eq (month : Nat) {rest : Nat} {lengths : List Nat}
    (hr : rest < lengths.foldr (· + ·) 0) :
    ∃ i k, monthAndDay month lengths rest = (month + i, k + 1) ∧
      (lengths.take i).foldr (· + ·) 0 + k = rest ∧ k < lengths.getD i 0 := by
  induction lengths generalizing month rest with
  | nil => simp at hr
  | cons length lengths hi =>
    rw [monthAndDay]
    split
    case isTrue hl => exact ⟨0, rest, rfl, by simp, hl⟩
    case isFalse hl =>
      have hr' : rest - length < lengths.foldr (· + ·) 0 := by
        rw [List.foldr_cons] at hr
        omega
      have ⟨i, k, he, hs, hk⟩ := hi (month + 1) hr'
      refine ⟨i + 1, k, by rw [he, Nat.add_right_comm]; rfl, ?_, hk⟩
      rw [List.take_succ_cons, List.foldr_cons]
      omega

theorem toDays_ofDays (days : Int) : (ofDays days).Exists ∧ (ofDays days).toDays = days := by
  have ⟨hl, hu⟩ := daysBeforeYear_yearOf (days + epoch)
  have hr : (days + epoch - daysBeforeYear (yearOf (days + epoch))).toNat
      < (monthLengths (yearOf (days + epoch))).foldr (· + ·) 0 := by
    rw [sum_monthLengths]
    omega
  have ⟨i, k, he, hs, hk⟩ := monthAndDay_eq 1 hr
  have ho : ofDays days = ⟨yearOf (days + epoch), 1 + i, k + 1⟩ := by
    simp only [ofDays, he]
  rw [ho]
  constructor
  · refine ⟨Nat.le_add_left 1 k, Nat.le_add_right 1 i, ?_⟩
    rw [Nat.add_sub_cancel_left]
    exact hk
  · simp only [toDays, daysBeforeMonth, Nat.add_sub_cancel_left]
    omega

-- No month is later than the twelfth, and no day of one later than the 31st.
theorem Exists.le {d : Date} (h : d.Exists) : d.month ≤ 12 ∧ d.day ≤ 31 := by
  have ⟨hd, _, hl⟩ := h
  rw [List.getD_eq_getElem?_getD] at hl
  cases hi : (monthLengths d.year)[d.month - 1]? with
  | none =>
    rw [hi, Option.getD_none] at hl
    omega
  | some n =>
    rw [hi, Option.getD_some] at hl
    have hm : d.month - 1 < (monthLengths d.year).length := (List.getElem?_eq_some_iff.mp hi).choose
    have hn : (monthLengths d.year).length = 12 := rfl
    exact ⟨by omega, Nat.le_trans hl (monthLengths_le _ _ (List.mem_of_getElem? hi))⟩

end WriteBehind.Time.Date
