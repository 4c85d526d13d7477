import WriteBehind.Proofs.Except
import WriteBehind.Proofs.Time.Text
import WriteBehind.Time.Relaxed

namespace WriteBehind.Time

open Text (trimStart)

variable {t : Instant} {s rest ds : List Char} {n most : Nat}

theorem toNat_digit {c : Char} (hc : c.isDigit = true) : 48 ≤ c.toNat ∧ c.toNat ≤ 57 := by
  simp only [Char.isDigit, Bool.and_eq_true, decide_eq_true_eq, UInt32.le_iff_toNat_le] at hc
  exact hc

theorem not_isBlank_of_isDigit {c : Char} (hc : c.isDigit = true) : Text.isBlank c = false := by
  have ⟨hl, hu⟩ := toNat_digit hc
  simp only [Text.isBlank, Bool.or_eq_false_iff, Bool.and_eq_false_iff, decide_eq_false_iff_not,
    beq_eq_false_iff_ne]
  omega

theorem exists_padded {k : Nat} (hk : 0 < k) : ∃ c cs, padded k n = c :: cs ∧ c.isDigit = true := by
  cases hp : padded k n with
  | nil =>
    have hl : k ≤ (padded k n).length := le_length_padded
    rw [hp, List.length_nil] at hl
    omega
  | cons c cs => exact ⟨c, cs, rfl, isDigit_of_mem_padded (hp ▸ List.mem_cons_self)⟩

theorem padded_append_ne {k : Nat} {d : Char} {ds : List Char} (hk : 0 < k) (hd : d.isDigit = false) :
    padded k n ++ s ≠ d :: ds := by
  obtain ⟨c, cs, hp, hc⟩ := exists_padded (n := n) hk
  rw [hp]
  rintro h
  cases h
  simp [hc] at hd

theorem trimStart_padded {k : Nat} (hk : 0 < k) : trimStart (padded k n ++ s) = padded k n ++ s := by
  obtain ⟨c, cs, hp, hc⟩ := exists_padded (n := n) hk
  rw [hp, List.cons_append, trimStart, List.dropWhile_cons_of_neg]
  simp [not_isBlank_of_isDigit hc]

theorem ofDigitChars_lt (hd : ∀ d ∈ ds, d.isDigit = true) :
    Nat.ofDigitChars 10 ds n < (n + 1) * 10 ^ ds.length := by
  induction ds generalizing n with
  | nil => simp
  | cons d ds ih =>
    have ⟨hc, hds⟩ := List.forall_mem_cons.mp hd
    have ⟨h0, h9⟩ := toNat_digit hc
    have hv : d.toNat - '0'.toNat ≤ 9 := Nat.sub_le_of_le_add h9
    rw [Nat.ofDigitChars_cons]
    calc _ < (10 * n + (d.toNat - '0'.toNat) + 1) * 10 ^ ds.length := ih hds
      _ ≤ ((n + 1) * 10) * 10 ^ ds.length := Nat.mul_le_mul_right _ (by omega)
      _ = (n + 1) * 10 ^ (d :: ds).length := by rw [List.length_cons, Nat.pow_succ', Nat.mul_assoc]

theorem number_eq_ok (h : number most s = .ok (n, rest)) : ∃ ds, s = ds ++ rest ∧ ds.length ≤ most ∧
    (∀ d ∈ ds, d.isDigit = true) ∧ n = Nat.ofDigitChars 10 ds 0 := by
  unfold number at h
  split at h
  case h_1 => cases h
  case h_2 c s =>
    split at h
    case isTrue => cases h
    case isFalse =>
      dsimp only at h
      split at h
      case isFalse => cases h
      case isTrue =>
        cases h
        refine ⟨((c :: s).take most).takeWhile Char.isDigit, ?_, ?_, fun d => List.mem_takeWhile_imp, rfl⟩
        · have hp : ((c :: s).take most).takeWhile Char.isDigit <+: c :: s :=
            (List.takeWhile_prefix _).trans (List.take_prefix ..)
          exact (List.prefix_iff_eq_append.mp hp).symm
        · exact (List.takeWhile_prefix _).length_le.trans (List.length_take_le ..)

theorem fraction?_lt (h : fraction? s = .ok (n, rest)) : n < 1000000000 := by
  unfold fraction? at h
  split at h
  case h_2 => cases h; decide
  case h_1 s =>
    obtain ⟨⟨m, u⟩, hm, h⟩ := bind_eq_ok h
    obtain ⟨ds, rfl, hl, hd, rfl⟩ := number_eq_ok hm
    cases h
    have hs : (ds ++ u).length - u.length = ds.length := by rw [List.length_append, Nat.add_sub_cancel]
    have hv : Nat.ofDigitChars 10 ds 0 < 10 ^ ds.length := by simpa using ofDigitChars_lt (n := 0) hd
    rw [hs]
    calc _ < 10 ^ ds.length * 10 ^ (9 - ds.length) := Nat.mul_lt_mul_of_pos_right hv (Nat.pow_pos (by decide))
      _ = 1000000000 := by rw [← Nat.pow_add, Nat.add_sub_cancel' hl]

theorem offset_minutes {separator : List Char → Except Fault (List Char)} {o : Int}
    (h : offset separator s = .ok (o, rest)) : o % 60 = 0 := by
  unfold offset at h
  split at h
  case h_1 => cases h
  case h_2 c s =>
    split at h
    case isTrue => cases h; rfl
    case isFalse =>
      split at h
      case isFalse => cases h
      case isTrue =>
        obtain ⟨⟨hours, _⟩, _, h⟩ := bind_eq_ok h
        obtain ⟨_, _, h⟩ := bind_eq_ok h
        obtain ⟨⟨minutes, _⟩, _, h⟩ := bind_eq_ok h
        cases h
        split <;> omega

theorem isOnClock_of_instant? {day o : Int} {time : TimeOfDay} (h : instant? day time o = some t)
    (ho : o % 60 = 0) (hn : time.nanos < 1000000000) : t.IsOnClock := by
  obtain ⟨hs', hn'⟩ := Instant.mk?_eq_some.mp h
  intro hl
  by_cases he : time.second = 60
  case pos =>
    rw [if_pos he] at hs'
    omega
  case neg =>
    rw [if_neg he] at hn'
    omega

namespace Relaxed

theorem zone_minutes {o : Int} (h : zone s = .ok (o, rest)) : o % 60 = 0 := by
  unfold zone at h
  split at h
  case h_1 =>
    split at h
    case isTrue  => cases h; rfl
    case isFalse => exact offset_minutes h
  case h_2 => exact offset_minutes h

-- What is read is on the clock: its offset is a number of minutes.
theorem isOnClock_of_read (h : read s = .ok t) : t.IsOnClock := by
  obtain ⟨⟨year, _⟩, _, h⟩ := bind_eq_ok h
  obtain ⟨_, _, h⟩ := bind_eq_ok h
  obtain ⟨⟨month, _⟩, _, h⟩ := bind_eq_ok h
  obtain ⟨_, _, h⟩ := bind_eq_ok h
  obtain ⟨⟨day, _⟩, _, h⟩ := bind_eq_ok h
  obtain ⟨_, _, h⟩ := bind_eq_ok h
  obtain ⟨⟨hour, _⟩, _, h⟩ := bind_eq_ok h
  obtain ⟨_, _, h⟩ := bind_eq_ok h
  obtain ⟨⟨minute, _⟩, _, h⟩ := bind_eq_ok h
  obtain ⟨_, _, h⟩ := bind_eq_ok h
  obtain ⟨⟨second, _⟩, hs, h⟩ := bind_eq_ok h
  obtain ⟨⟨nanos, _⟩, hn, h⟩ := bind_eq_ok h
  obtain ⟨⟨o, _⟩, ho, h⟩ := bind_eq_ok h
  dsimp only at h
  split at h
  case isFalse => cases h
  case isTrue =>
    split at h
    case h_2 => cases h
    case h_1 =>
      split at h
      case isFalse => cases h
      case isTrue =>
        split at h
        case h_2 => cases h
        case h_1 hi =>
          cases h
          exact isOnClock_of_instant? hi (zone_minutes ho) (fraction?_lt hn)

theorem field_padded {least most : Nat} (hl : least ≤ n) (hm : n ≤ most) (hn : n < 100) :
    field 2 least most (padded 2 n ++ s) = .ok (n, s) := by
  have hp : (padded 2 n).length = 2 := length_padded (Nat.succ_pos 1) hn
  rw [field, trimStart_padded (Nat.succ_pos 1), number_padded (Nat.succ_pos 1) (.inl hp) (by omega)]
  simp only [bind, Except.bind, if_pos (And.intro hl hm)]
  rfl

theorem signed_yearText {y : Int} (hn : y.natAbs < 0x8000000000000000) :
    signed (yearText y ++ '-' :: s) = .ok (y, '-' :: s) := by
  have hm : (padded 4 y.natAbs).length ≤ (padded 4 y.natAbs ++ '-' :: s).length := by simp
  have hs : ∀ d ∈ ('-' :: s).head?, d.isDigit = false := by simp
  have number := number_padded (Nat.succ_pos 3) (.inr ⟨hm, hs⟩) hn
  rw [yearText]
  split
  case isTrue hp =>
    have hl : (padded 4 y.toNat).length = 4 := length_padded (Nat.succ_pos 3) (by omega)
    have hv : ((y.toNat : Nat) : Int) = y := Int.toNat_of_nonneg hp.left
    rw [signed, trimStart_padded (Nat.succ_pos 3)]
    split
    case h_1 h => exact absurd h (padded_append_ne (Nat.succ_pos 3) rfl)
    case h_2 h => exact absurd h (padded_append_ne (Nat.succ_pos 3) rfl)
    case h_3   =>
      simp only [number_padded (Nat.succ_pos 3) (.inl hl) (by omega), Except.map, hv]
  case isFalse =>
    split
    case isTrue hy =>
      have ht : trimStart ('-' :: (padded 4 y.natAbs ++ '-' :: s)) =
        '-' :: (padded 4 y.natAbs ++ '-' :: s) := rfl
      have hv : -((y.natAbs : Nat) : Int) = y := by omega
      rw [List.cons_append, signed, ht]
      simp only [number, Except.map, hv]
    case isFalse hy =>
      have ht : trimStart ('+' :: (padded 4 y.natAbs ++ '-' :: s)) =
        '+' :: (padded 4 y.natAbs ++ '-' :: s) := rfl
      have hv : ((y.natAbs : Nat) : Int) = y := Int.natAbs_of_nonneg (Int.not_lt.mp hy)
      rw [List.cons_append, signed, ht]
      simp only [number, Except.map, hv]

theorem year_yearText {y : Int} (hf : firstYear ≤ y) (hl : y ≤ lastYear) :
    year (yearText y ++ '-' :: s) = .ok (y, '-' :: s) := by
  simp only [firstYear, lastYear] at hf hl
  have hb : -0x80000000 ≤ y ∧ y < 0x80000000 := by omega
  rw [year, signed_yearText (by omega)]
  simp only [bind, Except.bind, if_pos hb]
  rfl

theorem separator_cons {c : Char} (hc : Text.isBlank c = false) : separator c (c :: s) = .ok s := by
  have ht : trimStart (c :: s) = c :: s := List.dropWhile_cons_of_neg (by simp [hc])
  rw [separator, ht]
  exact if_pos rfl

theorem bind_ok {ε α β : Type} {x : Except ε α} {a : α} {f : α → Except ε β} (h : x = .ok a) :
    x >>= f = f a := by
  rw [h]
  rfl

-- A text is read by reading its parts, each from where the one before it ends. The reader is opened one
-- step at a time: a `simp` through all of them makes the kernel compute with the numbers of `instant?`.
theorem read_of_parts {s s₀ s₁ s₂ s₃ s₄ s₅ s₆ s₇ s₈ s₉ s₁₀ s₁₁ : List Char} {y : Int}
    {month day hour minute second nanos : Nat} {n offset : Int}
    (hy : year s = .ok (y, s₀)) (hn : separator '-' s₀ = .ok s₁)
    (hm : field 2 1 12 s₁ = .ok (month, s₂)) (ho : separator '-' s₂ = .ok s₃)
    (hd : field 2 1 31 s₃ = .ok (day, s₄)) (ht : divider s₄ = .ok s₅)
    (hh : field 2 0 23 s₅ = .ok (hour, s₆)) (hi : separator ':' s₆ = .ok s₇)
    (hj : field 2 0 59 s₇ = .ok (minute, s₈)) (hk : separator ':' s₈ = .ok s₉)
    (hs : field 2 0 60 s₉ = .ok (second, s₁₀)) (hf : fraction? s₁₀ = .ok (nanos, s₁₁))
    (hz : zone (trimStart s₁₁) = .ok (offset, [])) (hD : day? ⟨y, month, day⟩ = some n)
    (hO : offset.natAbs < 86400) (hI : instant? n ⟨hour, minute, second, nanos⟩ offset = some t) :
    read s = .ok t := by
  refine (bind_ok hy).trans ((bind_ok hn).trans ((bind_ok hm).trans ((bind_ok ho).trans
    ((bind_ok hd).trans ((bind_ok ht).trans ((bind_ok hh).trans ((bind_ok hi).trans
    ((bind_ok hj).trans ((bind_ok hk).trans ((bind_ok hs).trans ((bind_ok hf).trans
    ((bind_ok hz).trans ((if_pos rfl).trans ?_)))))))))))))
  rw [hD]
  refine (if_pos hO).trans ?_
  rw [hI]
  rfl

theorem text_eq : t.text = yearText t.date.year ++ '-'
    :: (padded 2 t.date.month ++ '-' :: (padded 2 t.date.day ++ 'T'
    :: (padded 2 t.timeOfDay.hour ++ ':' :: (padded 2 t.timeOfDay.minute ++ ':'
    :: (padded 2 t.timeOfDay.second ++ (fractionText t.timeOfDay.nanos ++ ['Z'])))))) := by
  simp only [Instant.text, Instant.localText, Date.text, Instant.timeOfDay, List.append_assoc,
    List.cons_append]

theorem read_text_of_isOnClock (hc : t.IsOnClock) : read t.text = .ok t := by
  have ⟨hf, hl⟩ := t.year_date
  have ⟨⟨h1, hm, _⟩, _⟩ := Date.toDays_ofDays (t.seconds / 86400)
  have ⟨hM, hD⟩ := (Date.toDays_ofDays (t.seconds / 86400)).left.le
  have ⟨hh, hi, hs, hn⟩ := t.valid_timeOfDay
  rw [text_eq]
  exact read_of_parts (year_yearText hf hl) (separator_cons (by decide))
    (field_padded hm hM (Nat.lt_of_le_of_lt hM (by decide))) (separator_cons (by decide))
    (field_padded h1 hD (Nat.lt_of_le_of_lt hD (by decide))) rfl
    (field_padded (Nat.zero_le _) (by omega) (by omega)) (separator_cons (by decide))
    (field_padded (Nat.zero_le _) (by omega) (by omega)) (separator_cons (by decide))
    (field_padded (Nat.zero_le _) (by omega) (by omega)) (fraction?_fractionText hn) rfl
    day?_date (by decide) (instant?_timeOfDay hc)

-- Of what is written, the reader gives back what the clock shows.
theorem read_text (t : Instant) : read t.text = .ok t.shown := by
  rw [← t.text_shown]
  exact read_text_of_isOnClock t.isOnClock_shown

end Relaxed
end WriteBehind.Time
