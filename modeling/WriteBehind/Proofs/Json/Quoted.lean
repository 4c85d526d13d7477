import WriteBehind.Json.Grammar
import WriteBehind.Proofs.Except

namespace WriteBehind.Json

open Grammar (CodeUnit Inside IsPlain Unread)
open Text (hexValue?_digitChar)

variable {c d : Char} {u v s t rest : List Char} {n m : Nat} {ns : List Nat}

theorem Grammar.CodeUnit.length (h : CodeUnit u n) : u.length = 4 := by
  cases h
  rfl

namespace Quoted

theorem fourDigits_append (h : CodeUnit u n) : fourDigits (u ++ s) = .ok n := by
  have hw : ¬Text.width (u ++ s) < 4 := by
    have hu := h.length
    have hl : u.length ≤ Text.width u := Text.length_le_width
    rw [Text.width_append]
    omega
  rw [fourDigits, if_neg hw, ← h.length, List.take_left]
  cases h with
  | mk ha hb hc hd => simp [ha, hb, hc, hd, Nat.mul_comm]

theorem drop_codeUnit (h : CodeUnit u n) : (u ++ s).drop 4 = s := h.length ▸ List.drop_left

theorem escapedUnit_single (h : CodeUnit u n) (hh : isHighSurrogate n = false)
    (hl : isLowSurrogate n = false) : escapedUnit (u ++ s) = .ok (Char.ofNat n, 4) := by
  rw [escapedUnit, fourDigits_append h]
  simp only [bind, Except.bind, hh, hl]
  rfl

theorem escapedUnit_pair (h : CodeUnit u n) (hh : isHighSurrogate n = true) (h' : CodeUnit v m)
    (hl : isLowSurrogate m = true) : escapedUnit (u ++ '\\' :: 'u' :: (v ++ s))
      = .ok (Char.ofNat (0x10000 + (n - 0xD800) * 0x400 + (m - 0xDC00)), 10) := by
  have hn : isLowSurrogate n = false := by
    simp only [isHighSurrogate, isLowSurrogate, Bool.and_eq_true, decide_eq_true_eq,
      Bool.and_eq_false_iff, decide_eq_false_iff_not] at hh ⊢
    omega
  rw [escapedUnit, fourDigits_append h]
  simp only [bind, Except.bind, hn, hh, drop_codeUnit h, lowSurrogate, fourDigits_append h', hl]
  rfl

theorem bodyFrom_append : bodyFrom u.length (u ++ s) = bodyFrom 0 s := by
  induction u with
  | nil => rfl
  | cons c u hi => exact hi

theorem bodyFrom_plain (hc : IsPlain c) (h : bodyFrom 0 s = .ok (t, rest)) :
    bodyFrom 0 (c :: s) = .ok (c :: t, rest) := by
  have ⟨hs, hq, hb⟩ := hc
  rw [bodyFrom, if_neg hq, if_neg hb, if_neg (Char.not_lt.mpr hs), h]
  rfl

theorem bodyFrom_escape (he : escape (u ++ s) = .ok (c, u.length))
    (h : bodyFrom 0 s = .ok (t, rest)) : bodyFrom 0 ('\\' :: (u ++ s)) = .ok (c :: t, rest) := by
  rw [bodyFrom, if_neg (by decide), if_pos rfl, he]
  simp only [bind, Except.bind, bodyFrom_append, h]
  rfl

theorem body_append (h : Inside s t) : body (s ++ '\"' :: rest) = .ok (t, rest) := by
  induction h with
  | nil => rfl
  | plain hc _ hi => exact bodyFrom_plain hc hi
  | short hc _ hi => exact bodyFrom_escape (u := [_]) (by simp [escape, hc]) hi
  | unit hu hh hl _ hi =>
    rw [List.append_assoc]
    refine bodyFrom_escape (u := 'u' :: _) ?_ hi
    rw [List.cons_append, escape, escapedUnit_single hu hh hl, List.length_cons, hu.length]
    rfl
  | @pair u n v m s t hu hh hv hl _ hi =>
    have he : escape ('u' :: (u ++ '\\' :: 'u' :: v) ++ (s ++ '\"' :: rest)) =
        .ok (Char.ofNat (0x10000 + (n - 0xD800) * 0x400 + (m - 0xDC00)),
          ('u' :: (u ++ '\\' :: 'u' :: v)).length) := by
      have hs : u.length + (v.length + 1 + 1) = 10 := by rw [hu.length, hv.length]
      simp only [List.cons_append, List.append_assoc, List.length_cons, List.length_append, hs]
      rw [escape, escapedUnit_pair hu hh hv hl]
      rfl
    have hb := bodyFrom_escape he hi
    simpa only [List.cons_append, List.append_assoc, body] using hb

theorem inside_unique (h : Inside s t) (h' : Inside s u) : t = u := by
  have hb : body (s ++ ['\"']) = .ok (t, []) := body_append h
  have he := hb.symm.trans (body_append h')
  exact (Prod.mk.inj (Except.ok.inj he)).left

theorem inside_writeChar (h : Inside s t) : Inside (writeChar c ++ s) (c :: t) := by
  rw [writeChar]
  -- The seven characters with an escape of their own come first.
  iterate 7
    split
    case isTrue hc =>
      subst hc
      exact .short rfl h
  split
  case isTrue hc =>
    have hn : c.toNat < 32 := UInt32.lt_iff_toNat_lt.mp hc
    have hz : Text.hexValue? '0' = some 0 := rfl
    have hu := CodeUnit.mk hz hz (hexValue?_digitChar (by omega : c.toNat / 16 < 16))
      (hexValue?_digitChar (by omega : c.toNat % 16 < 16))
    have hv : ((16 * 0 + 0) * 16 + c.toNat / 16) * 16 + c.toNat % 16 = c.toNat := by omega
    rw [hv] at hu
    have hh : isHighSurrogate c.toNat = false := by
      simp only [isHighSurrogate, Bool.and_eq_false_iff, decide_eq_false_iff_not]
      omega
    have hl : isLowSurrogate c.toNat = false := by
      simp only [isLowSurrogate, Bool.and_eq_false_iff, decide_eq_false_iff_not]
      omega
    have hi := Inside.unit hu hh hl h
    rwa [Char.ofNat_toNat] at hi
  case isFalse hs => exact .plain ⟨Char.not_lt.mp hs, ‹_›, ‹_›⟩ h

theorem inside_write : Inside (s.flatMap writeChar) s := by
  induction s with
  | nil => exact .nil
  | cons c s hi => exact inside_writeChar hi

theorem utf8Size_of_hexValue? (h : Text.hexValue? c = some n) : c.utf8Size = 1 := by
  have hc : c ≤ 'f' := by
    unfold Text.hexValue? at h
    split at h
    case isTrue hc => exact Char.le_trans hc.right (by decide)
    split at h
    case isTrue hc => exact hc.right
    split at h
    case isTrue hc => exact Char.le_trans hc.right (by decide)
    contradiction
  exact Char.utf8Size_eq_one_iff.mpr (UInt32.le_trans hc (by decide))

theorem width_of_mapM_hexValue? (h : s.mapM Text.hexValue? = some ns) :
    Text.width s = s.length := by
  induction s generalizing ns with
  | nil => rfl
  | cons c s hi =>
    simp only [List.mapM_cons, Option.bind_eq_bind, Option.bind_eq_some_iff] at h
    obtain ⟨n, hc, ms, hs, _⟩ := h
    rw [Text.width_cons, utf8Size_of_hexValue? hc, hi hs, List.length_cons, Nat.add_comm]

theorem codeUnit_of_fourDigits (h : fourDigits s = .ok n) :
    ∃ u, CodeUnit u n ∧ s = u ++ s.drop 4 := by
  unfold fourDigits at h
  split at h
  case isTrue => contradiction
  case isFalse hw =>
    split at h
    case h_2 => contradiction
    case h_1 ns hm =>
      have hl : 4 ≤ s.length := by
        refine Nat.not_lt.mp fun hl => ?_
        rw [List.take_of_length_le (by omega)] at hm
        have hs : Text.width s = s.length := width_of_mapM_hexValue? hm
        omega
      match s, hl with
      | a :: b :: c :: d :: s, _ =>
        refine ⟨[a, b, c, d], ?_, rfl⟩
        simp only [List.take_succ_cons, List.take_zero, List.mapM_cons, List.mapM_nil,
          Option.bind_eq_bind, Option.bind_eq_some_iff, Option.pure_def, Option.some.injEq] at hm
        obtain ⟨i, ha, _, ⟨j, hb, _, ⟨k, hc, _, ⟨l, hd, _, rfl, rfl⟩, rfl⟩, rfl⟩, rfl⟩ := hm
        cases h
        have hu := CodeUnit.mk ha hb hc hd
        simpa [Nat.mul_comm] using hu

theorem codeUnit_of_lowSurrogate (h : lowSurrogate s = .ok n) :
    ∃ u, CodeUnit u n ∧ isLowSurrogate n = true ∧ s = '\\' :: 'u' :: u ++ s.drop 6 := by
  unfold lowSurrogate at h
  split at h
  case h_3 s =>
    obtain ⟨m, hm, h⟩ := bind_eq_ok h
    split at h
    case isFalse   => contradiction
    case isTrue hl =>
      cases h
      obtain ⟨u, hu, hs⟩ := codeUnit_of_fourDigits hm
      exact ⟨u, hu, hl, congrArg ('\\' :: 'u' :: ·) hs⟩
  all_goals contradiction

theorem inside_of_escapedUnit (h : escapedUnit s = .ok (c, n)) :
    ∃ u, s = u ++ s.drop n ∧ ∀ {v t}, Inside v t → Inside ('\\' :: 'u' :: u ++ v) (c :: t) := by
  obtain ⟨k, hk, h⟩ := bind_eq_ok h
  obtain ⟨u, hu, hs⟩ := codeUnit_of_fourDigits hk
  split at h
  case isTrue => contradiction
  case isFalse hl =>
    rw [Bool.not_eq_true] at hl
    split at h
    case isTrue hh =>
      obtain ⟨m, hm, h⟩ := bind_eq_ok h
      obtain ⟨v, hv, hm, hs'⟩ := codeUnit_of_lowSurrogate hm
      obtain ⟨rfl, rfl⟩ := Prod.mk.inj (Except.ok.inj h)
      rw [List.drop_drop] at hs'
      refine ⟨u ++ '\\' :: 'u' :: v, ?_, fun hi => ?_⟩
      case refine_1 =>
        rw [List.append_assoc, List.cons_append, List.cons_append]
        exact hs.trans (congrArg (u ++ ·) hs')
      case refine_2 => simpa using Inside.pair hu hh hv hm hi
    case isFalse hh =>
      rw [Bool.not_eq_true] at hh
      obtain ⟨rfl, rfl⟩ := Prod.mk.inj (Except.ok.inj h)
      exact ⟨u, hs, .unit hu hh hl⟩

theorem inside_of_escape (h : escape s = .ok (c, n)) :
    ∃ u, s = u ++ s.drop n ∧ ∀ {v t}, Inside v t → Inside ('\\' :: u ++ v) (c :: t) := by
  unfold escape at h
  split at h
  case h_1 => contradiction
  case h_2 d s =>
    split at h
    case h_1 hd =>
      cases h
      exact ⟨[d], rfl, .short hd⟩
    case h_2 =>
      split at h
      case isFalse   => contradiction
      case isTrue hd =>
        subst hd
        obtain ⟨⟨_, n⟩, hn, h⟩ := map_eq_ok h
        obtain ⟨rfl, rfl⟩ := Prod.mk.inj h
        obtain ⟨u, hs, hi⟩ := inside_of_escapedUnit hn
        exact ⟨'u' :: u, congrArg ('u' :: ·) hs, hi⟩

-- What is read is of the grammar, up to the closing quote, once the rest of an escape is past.
theorem inside_of_bodyFrom (h : bodyFrom n s = .ok (t, rest)) :
    ∃ u, s.drop n = u ++ '\"' :: rest ∧ Inside u t := by
  induction s generalizing n t with
  | nil => cases n <;> contradiction
  | cons c s hi =>
    cases n with
    | succ n => exact hi h
    | zero   =>
      unfold bodyFrom at h
      split at h
      case isTrue hq =>
        subst hq
        cases h
        exact ⟨[], rfl, .nil⟩
      case isFalse hq =>
      split at h
      case isTrue hb =>
        subst hb
        obtain ⟨⟨d, n⟩, he, h⟩ := bind_eq_ok h
        obtain ⟨⟨t', rest'⟩, hr, h⟩ := bind_eq_ok h
        obtain ⟨rfl, rfl⟩ := Prod.mk.inj (Except.ok.inj h)
        obtain ⟨u, hu, hi⟩ := hi hr
        obtain ⟨v, hv, he⟩ := inside_of_escape he
        refine ⟨'\\' :: v ++ u, ?_, he hi⟩
        rw [List.drop_zero, List.cons_append, List.cons_append, List.append_assoc, ← hu, ← hv]
      case isFalse hb =>
      split at h
      case isTrue     => contradiction
      case isFalse hc =>
        obtain ⟨⟨t', rest'⟩, hr, h⟩ := bind_eq_ok h
        obtain ⟨rfl, rfl⟩ := Prod.mk.inj (Except.ok.inj h)
        obtain ⟨u, hu, hi⟩ := hi hr
        exact ⟨c :: u, congrArg (c :: ·) hu, .plain ⟨Char.not_lt.mp hc, hq, hb⟩ hi⟩

theorem inside_of_body (h : body s = .ok (t, rest)) : ∃ u, s = u ++ '\"' :: rest ∧ Inside u t :=
  inside_of_bodyFrom h

theorem skipFrom_append : skipFrom u.length (u ++ s) = skipFrom 0 s := by
  induction u with
  | nil => rfl
  | cons c u hi => exact hi

theorem skipFrom_escape (he : skippedEscape (u ++ s) = .ok u.length) :
    skipFrom 0 ('\\' :: (u ++ s)) = skipFrom 0 s := by
  rw [skipFrom, if_neg (by decide), if_pos rfl, he]
  exact skipFrom_append

theorem skip_append (h : Unread s) : skip (s ++ '\"' :: rest) = .ok rest := by
  induction h with
  | nil => rfl
  | plain hc _ hi =>
    have ⟨hs, hq, hb⟩ := hc
    rw [skip, List.cons_append, skipFrom, if_neg hq, if_neg hb, if_neg (Char.not_lt.mpr hs)]
    exact hi
  | @short c d s hc _ hi =>
    exact (skipFrom_escape (u := [c]) (by simp [skippedEscape, hc])).trans hi
  | @unit u n s hu _ hi =>
    rw [List.append_assoc]
    refine (skipFrom_escape (u := 'u' :: u) ?_).trans hi
    rw [List.cons_append, skippedEscape, fourDigits_append hu, List.length_cons, hu.length]
    rfl

theorem unread_of_skippedEscape (h : skippedEscape s = .ok n) :
    ∃ u, s = u ++ s.drop n ∧ ∀ {v}, Unread v → Unread ('\\' :: u ++ v) := by
  unfold skippedEscape at h
  split at h
  case h_1 => contradiction
  case h_2 d s =>
    split at h
    case isTrue hd =>
      cases h
      exact ⟨[d], rfl, .short (Option.some_get hd).symm⟩
    case isFalse =>
      split at h
      case isFalse   => contradiction
      case isTrue hd =>
        subst hd
        obtain ⟨m, hm, rfl⟩ := map_eq_ok h
        obtain ⟨u, hu, hs⟩ := codeUnit_of_fourDigits hm
        exact ⟨'u' :: u, congrArg ('u' :: ·) hs, .unit hu⟩

theorem unread_of_skipFrom (h : skipFrom n s = .ok rest) :
    ∃ u, s.drop n = u ++ '\"' :: rest ∧ Unread u := by
  induction s generalizing n with
  | nil => cases n <;> contradiction
  | cons c s hi =>
    cases n with
    | succ n => exact hi h
    | zero   =>
      unfold skipFrom at h
      split at h
      case isTrue hq =>
        subst hq
        cases h
        exact ⟨[], rfl, .nil⟩
      case isFalse hq =>
      split at h
      case isTrue hb =>
        subst hb
        obtain ⟨n, he, h⟩ := bind_eq_ok h
        obtain ⟨u, hu, hi⟩ := hi h
        obtain ⟨v, hv, he⟩ := unread_of_skippedEscape he
        refine ⟨'\\' :: v ++ u, ?_, he hi⟩
        rw [List.drop_zero, List.cons_append, List.cons_append, List.append_assoc, ← hu, ← hv]
      case isFalse hb =>
      split at h
      case isTrue     => contradiction
      case isFalse hc =>
        obtain ⟨u, hu, hi⟩ := hi h
        exact ⟨c :: u, congrArg (c :: ·) hu, .plain ⟨Char.not_lt.mp hc, hq, hb⟩ hi⟩

theorem unread_of_skip (h : skip s = .ok rest) : ∃ u, s = u ++ '\"' :: rest ∧ Unread u :=
  unread_of_skipFrom h

end Quoted
end WriteBehind.Json
