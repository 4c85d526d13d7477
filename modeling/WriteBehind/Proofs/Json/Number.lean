import WriteBehind.Json.Grammar
import WriteBehind.Json.Number
import WriteBehind.Proofs.Except

namespace WriteBehind.Json

open Grammar (Digits Fraction Power Whole)

variable {ds s rest sg f p : List Char} {c : Char} {fault : List Char → Fault}
variable {limit n k : Nat} {b : Bool} {m : UInt64} {e : Int}

namespace Number

def Ends (rest : List Char) : Prop :=
  ∀ c ∈ rest.head?, c.isDigit = false ∧ c ≠ '.' ∧ c ≠ 'e' ∧ c ≠ 'E'

theorem le_ofDigitChars : n ≤ Nat.ofDigitChars 10 ds n := by
  induction ds generalizing n with
  | nil => exact Nat.le_refl n
  | cons c ds hi =>
    rw [Nat.ofDigitChars_cons]
    exact Nat.le_trans (by omega) hi

theorem fitting_eq (h : Nat.ofDigitChars 10 ds n < limit) :
    fitting limit n ds = (Nat.ofDigitChars 10 ds n, []) := by
  induction ds generalizing n with
  | nil => rfl
  | cons c ds hi =>
    rw [Nat.ofDigitChars_cons] at h ⊢
    have hn : 10 * n + (c.toNat - '0'.toNat) < limit := Nat.lt_of_le_of_lt le_ofDigitChars h
    rw [fitting]
    simp only [hn, if_true, hi h]

theorem afterWhole_eq (h : Nat.ofDigitChars 10 ds 0 < UInt64.size) (he : Ends rest) :
    afterWhole false ds rest = .ok (.natural (Nat.ofDigitChars 10 ds 0).toUInt64, rest) := by
  rw [afterWhole, fitting_eq h]
  cases rest with
  | nil => rfl
  | cons c rest =>
    have ⟨_, hp, he, hE⟩ := he c rfl
    simp [hp, he, hE]

theorem unsigned_append (hw : Whole ds) (h : Nat.ofDigitChars 10 ds 0 < UInt64.size)
    (he : Ends rest) : unsigned false (ds ++ rest)
      = .ok (.natural (Nat.ofDigitChars 10 ds 0).toUInt64, rest) := by
  have ⟨⟨hn, hd⟩, hz⟩ := hw
  have ht : (ds ++ rest).takeWhile Char.isDigit = ds := by
    rw [List.takeWhile_append_of_pos hd]
    cases rest with
    | nil         => simp
    | cons c rest => simp [(he c rfl).left]
  cases ds with
  | nil => contradiction
  | cons c ds =>
    have hl : ¬(c = '0' ∧ 1 < (c :: ds).length) := by
      rintro ⟨rfl, hl⟩
      rw [hz rfl] at hl
      contradiction
    rw [List.cons_append] at ht ⊢
    rw [unsigned, ht, if_neg (by simp [hd c List.mem_cons_self]), if_neg hl, ← List.cons_append,
      List.drop_left]
    exact afterWhole_eq h he

theorem takeWhile_append_drop :
    s.takeWhile Char.isDigit ++ s.drop (s.takeWhile Char.isDigit).length = s :=
  List.prefix_iff_eq_append.mp (List.takeWhile_prefix _)

theorem digits_takeWhile (hc : c.isDigit = true) : Digits (c :: s.takeWhile Char.isDigit) :=
  ⟨List.cons_ne_nil _ _, List.forall_mem_cons.mpr ⟨hc, List.all_eq_true.mp List.all_takeWhile⟩⟩

theorem eq_of_fitting (hn : n < limit) (h : fitting limit n ds = (k, [])) :
    Nat.ofDigitChars 10 ds n = k ∧ k < limit := by
  induction ds generalizing n with
  | nil =>
    cases h
    exact ⟨rfl, hn⟩
  | cons c ds hi =>
    rw [Nat.ofDigitChars_cons]
    unfold fitting at h
    simp only at h
    split at h
    case isTrue hl => exact hi hl h
    case isFalse   => cases h

theorem float_ne : float b k e s ≠ .ok (.natural m, rest) := by
  unfold float
  split <;> simp

theorem exponent_ne : exponent b k e s ≠ .ok (.natural m, rest) := by
  unfold exponent
  simp only
  split
  case h_1 => simp
  case h_2 =>
    split
    case isTrue => simp
    split
    case h_1 => exact float_ne
    case h_2 => split <;> simp

theorem afterDigits_ne : afterDigits b k e s ≠ .ok (.natural m, rest) := by
  unfold afterDigits
  split
  · exact exponent_ne
  · exact exponent_ne
  · exact float_ne

theorem point_ne : point b k e s ≠ .ok (.natural m, rest) := by
  unfold point
  split
  case h_1 => simp
  split
  case isTrue  => simp
  case isFalse => exact afterDigits_ne

theorem eq_of_afterWhole (h : afterWhole b ds s = .ok (.natural m, rest)) :
    b = false ∧ s = rest ∧ Nat.ofDigitChars 10 ds 0 = m.toNat := by
  unfold afterWhole at h
  cases hf : fitting UInt64.size 0 ds with
  | mk k excess =>
  simp only [hf] at h
  split at h
  case h_1 => exact absurd h point_ne
  case h_2 => exact absurd h exponent_ne
  case h_3 => exact absurd h exponent_ne
  case h_5 => exact absurd h float_ne
  case h_4 =>
    cases b with
    | true =>
      simp only [Bool.not_true, Bool.false_eq_true, if_false] at h
      split at h <;> cases h
    | false =>
      obtain ⟨hv, hk⟩ := eq_of_fitting (by decide) hf
      cases h
      exact ⟨rfl, rfl, hv.trans (UInt64.toNat_ofNat_of_lt' hk).symm⟩

theorem whole_of_unsigned (h : unsigned b s = .ok (.natural m, rest)) :
    b = false ∧ ∃ ds, s = ds ++ rest ∧ Whole ds ∧ Nat.ofDigitChars 10 ds 0 = m.toNat := by
  unfold unsigned at h
  split at h
  case h_1 => contradiction
  case h_2 c r =>
    split at h
    case isTrue => contradiction
    case isFalse hc =>
    rw [Bool.not_eq_true', Bool.not_eq_false] at hc
    simp only at h
    split at h
    case isTrue => contradiction
    case isFalse hz =>
      obtain ⟨hb, hr, hv⟩ := eq_of_afterWhole h
      have hs : (c :: r).takeWhile Char.isDigit ++ rest = c :: r := hr ▸ takeWhile_append_drop
      have ht : (c :: r).takeWhile Char.isDigit = c :: r.takeWhile Char.isDigit :=
        List.takeWhile_cons_of_pos hc
      rw [ht] at hs hz hv
      refine ⟨hb, _, hs.symm, ⟨digits_takeWhile hc, fun hd => ?_⟩, hv⟩
      obtain rfl := Option.some.inj hd
      have hl : ¬1 < (List.takeWhile Char.isDigit r).length + 1 := fun hl => hz ⟨rfl, hl⟩
      exact congrArg _ (List.eq_nil_of_length_eq_zero (by omega))

theorem skipDigits_append (hd : Digits ds) (hr : ∀ c ∈ rest.head?, c.isDigit = false) :
    skipDigits fault (ds ++ rest) = .ok rest := by
  have ⟨hn, hd⟩ := hd
  cases ds with
  | nil       => contradiction
  | cons c ds =>
    have hc : c.isDigit = true := hd c List.mem_cons_self
    rw [List.cons_append, skipDigits, if_pos hc,
      List.dropWhile_append_of_pos fun d h => hd d (List.mem_cons_of_mem _ h)]
    cases rest with
    | nil         => rfl
    | cons d rest => rw [List.dropWhile_cons_of_neg (by simp [hr d rfl])]

theorem digits_of_skipDigits (h : skipDigits fault s = .ok rest) :
    ∃ ds, Digits ds ∧ s = ds ++ rest := by
  unfold skipDigits at h
  split at h
  case h_1 => contradiction
  case h_2 c s =>
    split at h
    case isFalse   => contradiction
    case isTrue hc =>
      cases h
      refine ⟨c :: s.takeWhile Char.isDigit, digits_takeWhile hc, ?_⟩
      rw [List.cons_append, List.takeWhile_append_dropWhile]

theorem sign_append (hs : sg ∈ [[], ['+'], ['-']]) (hd : Digits ds) :
    sign (sg ++ ds ++ rest) = (decide (sg = ['-']), ds ++ rest) := by
  have ⟨hn, hd⟩ := hd
  cases ds with
  | nil       => contradiction
  | cons c ds =>
    simp only [List.mem_cons, List.not_mem_nil, or_false] at hs
    rcases hs with rfl | rfl | rfl
    · have hc : c.isDigit = true := hd c List.mem_cons_self
      rw [List.nil_append, List.cons_append]
      unfold sign
      split
      case h_1 heq =>
        cases heq
        contradiction
      case h_2 heq =>
        cases heq
        contradiction
      case h_3 => rfl
    · rfl
    · rfl

theorem exists_sign : ∃ sg ∈ [[], ['+'], ['-']], s = sg ++ (sign s).2 := by
  unfold sign
  split
  · exact ⟨['+'], by simp, rfl⟩
  · exact ⟨['-'], by simp, rfl⟩
  · exact ⟨[], by simp, rfl⟩

theorem skipExponent_append (hp : Power p) (he : Ends rest) :
    skipExponent (p ++ rest) = .ok rest := by
  rcases hp with rfl | ⟨c, sg, ds, hc, hs, hd, rfl⟩
  case inl =>
    cases rest with
    | nil         => rfl
    | cons c rest =>
      have ⟨_, _, he, hE⟩ := he c rfl
      simp [skipExponent, he, hE]
  case inr =>
    have hc : (decide (c = 'e') || decide (c = 'E')) = true := by simpa using hc
    rw [List.cons_append, List.cons_append, skipExponent, if_pos hc, sign_append hs hd]
    exact skipDigits_append hd fun c h => (he c h).left

theorem power_of_skipExponent (h : skipExponent s = .ok rest) : ∃ p, Power p ∧ s = p ++ rest := by
  unfold skipExponent at h
  split at h
  case h_1 =>
    cases h
    exact ⟨[], .inl rfl, rfl⟩
  case h_2 c s =>
    split at h
    case isFalse =>
      cases h
      exact ⟨[], .inl rfl, rfl⟩
    case isTrue hc =>
      obtain ⟨ds, hd, hr⟩ := digits_of_skipDigits h
      obtain ⟨sg, hs, hsg⟩ := exists_sign (s := s)
      refine ⟨c :: sg ++ ds, .inr ⟨c, sg, ds, by simpa using hc, hs, hd, rfl⟩, ?_⟩
      rw [List.cons_append, List.cons_append, List.append_assoc, ← hr, ← hsg]

theorem not_isDigit_of_power (hp : Power p) (he : Ends rest) :
    ∀ c ∈ (p ++ rest).head?, c.isDigit = false ∧ c ≠ '.' := by
  rcases hp with rfl | ⟨d, sg, ds, hd, _, _, rfl⟩
  case inl => exact fun c hc => ⟨(he c hc).left, (he c hc).right.left⟩
  case inr =>
    intro c hc
    obtain rfl : d = c := Option.some.inj hc
    simp only [List.mem_cons, List.not_mem_nil, or_false] at hd
    rcases hd with rfl | rfl <;> decide

theorem not_isDigit_of_fraction (hf : Fraction f) (hp : Power p) (he : Ends rest) :
    ∀ c ∈ (f ++ (p ++ rest)).head?, c.isDigit = false := by
  rcases hf with rfl | ⟨ds, _, rfl⟩
  case inl => exact fun c hc => (not_isDigit_of_power hp he c hc).left
  case inr =>
    intro c hc
    obtain rfl : '.' = c := Option.some.inj hc
    decide

theorem skipTail_append (hf : Fraction f) (hp : Power p) (he : Ends rest) :
    skipTail (f ++ (p ++ rest)) = .ok rest := by
  rcases hf with rfl | ⟨ds, hd, rfl⟩
  case inl =>
    rw [List.nil_append]
    unfold skipTail
    split
    case h_1 s hs => exact absurd rfl (not_isDigit_of_power hp he '.' (hs ▸ rfl)).right
    case h_2      => exact skipExponent_append hp he
  case inr =>
    have hd' : ∀ c ∈ (p ++ rest).head?, c.isDigit = false :=
      fun c hc => (not_isDigit_of_power hp he c hc).left
    rw [List.cons_append, skipTail, skipDigits_append hd hd']
    exact skipExponent_append hp he

-- A number of the grammar is skipped, if it ends where the number ends.
theorem skip_append (hw : Whole ds) (hf : Fraction f) (hp : Power p) (he : Ends rest) :
    skip (ds ++ (f ++ (p ++ rest))) = .ok rest := by
  have ⟨⟨hn, hd⟩, hz⟩ := hw
  have hr := not_isDigit_of_fraction hf hp he
  have ht : skipTail (f ++ (p ++ rest)) = .ok rest := skipTail_append hf hp he
  cases ds with
  | nil       => contradiction
  | cons c ds =>
    unfold skip
    rw [List.cons_append]
    simp only
    split
    case isTrue hc =>
      obtain rfl : ds = [] := (List.cons.inj (hz (congrArg some hc))).right
      rw [List.nil_append]
      generalize f ++ (p ++ rest) = s at hr ht ⊢
      cases s with
      | nil      => exact ht
      | cons d s => simpa [hr d rfl] using ht
    case isFalse =>
      have hc : c.isDigit = true := hd c List.mem_cons_self
      have hs : skipDigits (.onFirst · .invalidNumber) (c :: ds ++ (f ++ (p ++ rest))) = .ok _ :=
        skipDigits_append ⟨hn, hd⟩ hr
      rw [List.cons_append, skipDigits, if_pos hc] at hs
      rw [if_pos hc, Except.ok.inj hs]
      exact ht

theorem tail_of_skipTail (h : skipTail s = .ok rest) :
    ∃ f p, Fraction f ∧ Power p ∧ s = f ++ (p ++ rest) := by
  unfold skipTail at h
  split at h
  case h_1 s =>
    obtain ⟨s', hs, ht⟩ := bind_eq_ok h
    obtain ⟨ds, hd, rfl⟩ := digits_of_skipDigits hs
    obtain ⟨p, hp, rfl⟩ := power_of_skipExponent ht
    exact ⟨'.' :: ds, p, .inr ⟨ds, hd, rfl⟩, hp, rfl⟩
  case h_2 =>
    obtain ⟨p, hp, rfl⟩ := power_of_skipExponent h
    exact ⟨[], p, .inl rfl, hp, rfl⟩

theorem whole_of_skip (h : skip s = .ok rest) :
    ∃ ds f p, Whole ds ∧ Fraction f ∧ Power p ∧ s = ds ++ (f ++ (p ++ rest)) := by
  unfold skip at h
  split at h
  case h_1 => contradiction
  case h_2 c s =>
    split at h
    case isTrue hc =>
      subst hc
      have ht : skipTail s = .ok rest := by
        split at h
        case h_1 =>
          split at h
          case isTrue  => contradiction
          case isFalse => exact h
        case h_2 => exact h
      obtain ⟨f, p, hf, hp, rfl⟩ := tail_of_skipTail ht
      exact ⟨['0'], f, p, ⟨⟨by simp, List.forall_mem_singleton.mpr rfl⟩, fun _ => rfl⟩, hf, hp, rfl⟩
    case isFalse hz =>
    split at h
    case isFalse   => contradiction
    case isTrue hc =>
      obtain ⟨f, p, hf, hp, hs⟩ := tail_of_skipTail h
      have hw : Whole (c :: s.takeWhile Char.isDigit) :=
        ⟨digits_takeWhile hc, fun h => absurd (Option.some.inj h) hz⟩
      refine ⟨_, f, p, hw, hf, hp, ?_⟩
      rw [← hs, List.cons_append, List.takeWhile_append_dropWhile]

end Number

theorem head?_toDigits (hn : 0 < n) : (Nat.toDigits 10 n).head? ≠ some '0' := by
  induction n using Nat.strongRecOn with
  | ind n hi =>
    by_cases h : n < 10
    case pos =>
      rw [Nat.toDigits_of_lt_base h]
      simp
      omega
    case neg =>
      have hd := hi (n / 10) (by omega) (by omega)
      have hs := List.head?_eq_some_head (Nat.toDigits_ne_nil : Nat.toDigits 10 (n / 10) ≠ [])
      rwa [Nat.toDigits_of_base_le (by decide) (Nat.not_lt.mp h), List.head?_append, hs, Option.some_or,
        ← hs]

theorem whole_toDigits : Whole (Nat.toDigits 10 n) := by
  refine ⟨⟨Nat.toDigits_ne_nil, fun c hc => Nat.isDigit_of_mem_toDigits (by decide) (by decide) hc⟩, ?_⟩
  intro hz
  rcases Nat.eq_zero_or_pos n with rfl | hn
  case inl => rfl
  case inr => exact absurd hz (head?_toDigits hn)

end WriteBehind.Json
