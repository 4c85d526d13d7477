import WriteBehind.Proofs.Time.Calendar
import WriteBehind.Proofs.Time.Digits

namespace WriteBehind.Time

variable {t : Instant} {s : List Char}

-- Whether a clock shows the instant. On a clock only the last second of a minute lasts longer than the
-- others.
def Instant.IsOnClock (t : Instant) : Prop := 1000000000 ≤ t.nanos → t.seconds % 60 = 59

instance : Decidable t.IsOnClock := by unfold Instant.IsOnClock; infer_instance

namespace Instant

theorem succ_le_last (h : ¬t.IsOnClock) : t.seconds + 1 ≤ lastSecond := by
  have hl := t.le_last
  have hm : lastSecond % 60 = 59 := by decide
  have hs := (Classical.not_imp.mp h).right
  omega

-- What a clock shows of an instant. Where a second lasts longer that does not end its minute, the clock is
-- in the next one.
def shown (t : Instant) : Instant :=
  if h : t.IsOnClock then t
  else ⟨t.seconds + 1, t.nanos - 1000000000, Nat.lt_of_le_of_lt (Nat.sub_le ..) t.nanos_lt,
    Int.le_add_one t.first_le, succ_le_last h⟩

theorem shown_of_isOnClock (h : t.IsOnClock) : t.shown = t := dif_pos h

theorem isOnClock_shown (t : Instant) : t.shown.IsOnClock := by
  by_cases h : t.IsOnClock
  case pos => rwa [shown_of_isOnClock h]
  case neg =>
    have hn := t.nanos_lt
    rw [shown, dif_neg h]
    intro hl
    dsimp only at hl
    omega

theorem parts_shown (t : Instant) : t.shown.seconds / 86400 = t.seconds / 86400 ∧
    t.shown.secondOfDay / 60 = t.secondOfDay / 60 ∧
    t.shown.secondOfDay % 60 + t.shown.nanos / 1000000000
      = t.secondOfDay % 60 + t.nanos / 1000000000 ∧
    t.shown.nanos % 1000000000 = t.nanos % 1000000000 := by
  by_cases h : t.IsOnClock
  case pos => simp [shown_of_isOnClock h]
  case neg =>
    have hn := t.nanos_lt
    have ⟨hl, hs⟩ := Classical.not_imp.mp h
    rw [shown, dif_neg h]
    simp only [secondOfDay]
    omega

theorem date_shown (t : Instant) : t.shown.date = t.date := by
  rw [date, date, t.parts_shown.left]

theorem text_shown (t : Instant) : t.shown.text = t.text := by
  have ⟨_, hm, hs, hn⟩ := t.parts_shown
  have hh : t.shown.secondOfDay / 3600 = t.secondOfDay / 3600 := by omega
  simp only [text, localText, t.date_shown, hm, hs, hn, hh]

end Instant

def Instant.HasPlainYear (t : Instant) : Prop := 0 ≤ t.date.year ∧ t.date.year ≤ 9999

instance (t : Instant) : Decidable t.HasPlainYear := by unfold Instant.HasPlainYear; infer_instance

theorem Instant.hasPlainYear_shown (t : Instant) : t.shown.HasPlainYear ↔ t.HasPlainYear := by
  rw [HasPlainYear, HasPlainYear, t.date_shown]

def Instant.timeOfDay (t : Instant) : TimeOfDay where
  hour   := t.secondOfDay / 3600
  minute := t.secondOfDay / 60 % 60
  second := t.secondOfDay % 60 + t.nanos / 1000000000
  nanos  := t.nanos % 1000000000

theorem Instant.secondOfDay_lt : t.secondOfDay < 86400 := by
  rw [secondOfDay]
  omega

theorem Instant.valid_timeOfDay : t.timeOfDay.Valid := by
  have := t.secondOfDay_lt
  have := t.nanos_lt
  simp only [TimeOfDay.Valid, timeOfDay]
  omega

theorem instant?_timeOfDay (hl : t.IsOnClock) :
    instant? (t.seconds / 86400) t.timeOfDay 0 = some t := by
  rw [Instant.IsOnClock] at hl
  have hn := t.nanos_lt
  have hs : (t.secondOfDay : Int) = t.seconds % 86400 := by
    rw [Instant.secondOfDay]
    omega
  rw [instant?, Instant.mk?_eq_some]
  by_cases h : 1000000000 ≤ t.nanos
  case pos =>
    have hm : t.timeOfDay.second = 60 := by
      simp only [Instant.timeOfDay]
      omega
    rw [if_pos hm]
    simp only [Instant.timeOfDay]
    omega
  case neg =>
    have hm : t.timeOfDay.second ≠ 60 := by
      simp only [Instant.timeOfDay]
      omega
    rw [if_neg hm]
    simp only [Instant.timeOfDay]
    omega

theorem Instant.year_date : firstYear ≤ t.date.year ∧ t.date.year ≤ lastYear := by
  have hf : firstSecond = (Date.daysBeforeYear firstYear - Date.epoch) * 86400 := rfl
  have hl : lastSecond = (Date.daysBeforeYear (lastYear + 1) - Date.epoch) * 86400 - 1 := rfl
  have hs := t.first_le
  have he := t.le_last
  constructor
  · exact Date.le_yearOf (by omega)
  · exact Int.le_of_lt_add_one (Date.yearOf_lt (by omega))

theorem day?_date : day? t.date = some (t.seconds / 86400) := by
  have ⟨he, hd⟩ := Date.toDays_ofDays (t.seconds / 86400)
  rw [day?, if_pos ⟨he, t.year_date⟩]
  exact congrArg some hd

theorem le_length_yearText {year : Int} : 4 ≤ (yearText year).length := by
  rw [yearText]
  split
  case isTrue  => exact le_length_padded
  case isFalse => exact Nat.le_succ_of_le le_length_padded

theorem not_width_text_lt : ¬Text.width t.text < 19 := by
  have hl : t.text.length ≤ Text.width t.text := Text.length_le_width
  have hy : 4 ≤ (yearText t.date.year).length := le_length_yearText
  have hp (n : Nat) : 2 ≤ (padded 2 n).length := le_length_padded
  have hm := hp t.date.month
  have hd := hp t.date.day
  have hh := hp (t.secondOfDay / 3600)
  have hi := hp (t.secondOfDay / 60 % 60)
  have hs := hp (t.secondOfDay % 60 + t.nanos / 1000000000)
  simp only [Instant.text, Instant.localText, Date.text, List.length_append, List.length_cons] at hl
  simp only [Instant.text, Instant.localText, Date.text]
  omega

theorem Instant.text_eq (hy : t.HasPlainYear) :
    t.text = padded 2 (t.date.year.toNat / 100) ++ (padded 2 (t.date.year.toNat % 100) ++ '-'
      :: (padded 2 t.date.month ++ '-' :: (padded 2 t.date.day ++ 'T'
      :: (padded 2 t.timeOfDay.hour ++ ':' :: (padded 2 t.timeOfDay.minute ++ ':'
      :: (padded 2 t.timeOfDay.second ++ (fractionText t.timeOfDay.nanos ++ ['Z']))))))) := by
  simp only [text, localText, Date.text, yearText, HasPlainYear] at hy ⊢
  rw [if_pos hy, padded_four]
  simp only [List.append_assoc, List.cons_append, timeOfDay]

namespace Strict

-- A text is read by reading its parts, each from where the one before it ends. The parts are left open
-- here, so that nothing of them is computed when the reader is opened.
theorem read_of_parts {s s₀ s₁ s₂ s₃ s₄ s₅ s₆ s₇ s₈ s₉ s₁₀ s₁₁ s₁₂ : List Char}
    {century decade month day : Nat} {time : TimeOfDay} {n offset : Int} (hw : ¬Text.width s < 19)
    (hc : twoDigits s = .ok (century, s₀)) (he : twoDigits s₀ = .ok (decade, s₁))
    (hy : oneOf ['-'] s₁ = .ok s₂) (hm : twoDigits s₂ = .ok (month, s₃))
    (hn : oneOf ['-'] s₃ = .ok s₄) (hd : twoDigits s₄ = .ok (day, s₅))
    (ht : oneOf ['T', 't', ' '] s₅ = .ok s₆) (hh : twoDigits s₆ = .ok (time.hour, s₇))
    (hi : oneOf [':'] s₇ = .ok s₈) (hj : twoDigits s₈ = .ok (time.minute, s₉))
    (hk : oneOf [':'] s₉ = .ok s₁₀) (hs : twoDigits s₁₀ = .ok (time.second, s₁₁))
    (hf : fraction? s₁₁ = .ok (time.nanos, s₁₂)) (ho : Time.offset colon s₁₂ = .ok (offset, []))
    (hD : day? ⟨100 * century + decade, month, day⟩ = some n) (hT : time.Valid)
    (hO : offset.natAbs < 86400) (hI : instant? n time offset = some t) : read s = .ok t := by
  rw [read, if_neg hw]
  simp only [hc, he, hy, hm, hn, hd, ht, hh, hi, hj, hk, hs, hf, ho, hD, hT, hO, hI, bind, Except.bind,
    pure, Except.pure, if_true, List.isEmpty_nil]

theorem oneOf_cons {c : Char} {cs : List Char} (hc : c ∈ cs) : oneOf cs (c :: s) = .ok s := if_pos hc

theorem read_text_of_isOnClock (hc : t.IsOnClock) (hy : t.HasPlainYear) : read t.text = .ok t := by
  have hw : ¬Text.width t.text < 19 := not_width_text_lt
  have ⟨h0, h9⟩ := hy
  have ⟨hm, hd⟩ := (Date.toDays_ofDays (t.seconds / 86400)).left.le
  have hv := t.valid_timeOfDay
  have ⟨hh, hi, hs, hf⟩ := hv
  have hD : day? ⟨100 * (t.date.year.toNat / 100 : Nat) + (t.date.year.toNat % 100 : Nat), t.date.month,
      t.date.day⟩ = some (t.seconds / 86400) := by
    have hY : (100 * (t.date.year.toNat / 100 : Nat) + (t.date.year.toNat % 100 : Nat) : Int)
        = t.date.year := by omega
    rw [hY]
    exact day?_date
  rw [Instant.text_eq hy] at hw ⊢
  exact read_of_parts hw (twoDigits_padded (by omega)) (twoDigits_padded (by omega))
    (oneOf_cons (by decide)) (twoDigits_padded (Nat.lt_of_le_of_lt hm (by decide)))
    (oneOf_cons (by decide)) (twoDigits_padded (Nat.lt_of_le_of_lt hd (by decide)))
    (oneOf_cons (by decide)) (twoDigits_padded (by omega))
    (oneOf_cons (by decide)) (twoDigits_padded (by omega))
    (oneOf_cons (by decide)) (twoDigits_padded (by omega))
    (fraction?_fractionText hf) rfl hD hv (by decide) (instant?_timeOfDay hc)

-- Of what is written with a year of four digits, the reader gives back what the clock shows.
theorem read_text (hy : t.HasPlainYear) : read t.text = .ok t.shown := by
  rw [← t.text_shown]
  exact read_text_of_isOnClock t.isOnClock_shown (t.hasPlainYear_shown.mpr hy)

theorem twoDigits_sign {c : Char} (hc : c.isDigit = false) : twoDigits (c :: s) = .error .invalid := by
  rw [twoDigits, digit, digit?, hc]
  rfl

theorem read_of_twoDigits_error {e : Fault} (hw : ¬Text.width s < 19) (he : twoDigits s = .error e) :
    read s = .error e := by
  rw [read, if_neg hw]
  simp only [he, bind, Except.bind]

theorem read_text_of_sign (hy : ¬t.HasPlainYear) : read t.text = .error .invalid := by
  have hw : ¬Text.width t.text < 19 := not_width_text_lt
  refine read_of_twoDigits_error hw ?_
  simp only [Instant.text, Instant.localText, Date.text, yearText, Instant.HasPlainYear] at hy ⊢
  rw [if_neg hy]
  split
  case isTrue  => exact twoDigits_sign rfl
  case isFalse => exact twoDigits_sign rfl

end Strict

end WriteBehind.Time
