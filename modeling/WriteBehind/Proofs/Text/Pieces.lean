import Mathlib.Data.List.Basic
import WriteBehind.Text.Lines

namespace WriteBehind.Text

variable {a b c d : UInt8} {cs s : List UInt8} {x : Char} {t : List Char} {i : Nat}

namespace Utf8

theorem not_isSecond_lineFeed : isSecond a 0x0A = false := by
  rw [isSecond]
  repeat' split
  all_goals rfl

theorem ne_lineFeed_of_length {n : Nat} (hl : lengthOf? a = some n) (hn : n ≠ 1) : a ≠ 0x0A := by
  rintro rfl
  exact hn (Option.some.inj hl).symm

theorem ne_lineFeed_of_isTail (hb : isTail b = true) : b ≠ 0x0A := by
  rintro rfl
  cases hb

theorem ne_lineFeed_of_isSecond (hb : isSecond a b = true) : b ≠ 0x0A := by
  rintro rfl
  cases not_isSecond_lineFeed.symm.trans hb

structure Spells (cs : List UInt8) (x : Char) : Prop where
  reads : ∀ i s, decodeFrom i (cs ++ s) = (decodeFrom (i + cs.length) s).map (x :: ·)
  cut   : cs = [0x0A] ∨ (cs ≠ [] ∧ 0x0A ∉ cs)

theorem spells_one (hl : lengthOf? a = some 1) : Spells [a] (Char.ofNat a.toNat) where
  reads i s := by
    rw [decodeFrom.eq_def]
    simp only [List.singleton_append, hl, List.length_singleton]
    cases decodeFrom (i + 1) s <;> rfl
  cut := by
    by_cases ha : a = 0x0A
    case pos => exact .inl (congrArg ([·]) ha)
    case neg => exact .inr ⟨by simp, by simpa using Ne.symm ha⟩

theorem spells_two (hl : lengthOf? a = some 2) (hb : isTail b = true) :
    Spells [a, b] (Char.ofNat (a.toNat % 32 * 64 + bits b)) where
  reads i s := by
    rw [decodeFrom.eq_def]
    simp only [List.cons_append, List.nil_append, hl, hb]
    cases decodeFrom (i + 2) s <;> rfl
  cut := .inr ⟨by simp, by
    simp [(ne_lineFeed_of_length hl (by simp)).symm, (ne_lineFeed_of_isTail hb).symm]⟩

theorem spells_three (hl : lengthOf? a = some 3) (hb : isSecond a b = true) (hc : isTail c = true) :
    Spells [a, b, c] (Char.ofNat ((a.toNat % 16 * 64 + bits b) * 64 + bits c)) where
  reads i s := by
    rw [decodeFrom.eq_def]
    simp only [List.cons_append, List.nil_append, hl, hb, hc]
    cases decodeFrom (i + 3) s <;> rfl
  cut := .inr ⟨by simp, by
    simp [(ne_lineFeed_of_length hl (by simp)).symm, (ne_lineFeed_of_isSecond hb).symm,
      (ne_lineFeed_of_isTail hc).symm]⟩

theorem spells_four (hl : lengthOf? a = some 4) (hb : isSecond a b = true) (hc : isTail c = true)
    (hd : isTail d = true) :
    Spells [a, b, c, d]
      (Char.ofNat (((a.toNat % 8 * 64 + bits b) * 64 + bits c) * 64 + bits d)) where
  reads i s := by
    rw [decodeFrom.eq_def]
    simp only [List.cons_append, List.nil_append, hl, hb, hc, hd]
    cases decodeFrom (i + 4) s <;> rfl
  cut := .inr ⟨by simp, by
    simp [(ne_lineFeed_of_length hl (by simp)).symm, (ne_lineFeed_of_isSecond hb).symm,
      (ne_lineFeed_of_isTail hc).symm, (ne_lineFeed_of_isTail hd).symm]⟩

theorem lengthOf?_cases (a : UInt8) :
    lengthOf? a = none ∨ lengthOf? a = some 1 ∨ lengthOf? a = some 2 ∨ lengthOf? a = some 3 ∨
      lengthOf? a = some 4 := by
  rw [lengthOf?]
  repeat' split
  all_goals simp

theorem of_checked {q : Bool} {e : Fault} {r : Except Fault (List Char)}
    (hr : (if !q then .error e else r) = .ok t) : q = true ∧ r = .ok t := by
  cases q with
  | false => cases hr
  | true  => exact ⟨rfl, hr⟩

theorem exists_spells (hr : decodeFrom i (a :: s) = .ok t) :
    ∃ cs x rest, a :: s = cs ++ rest ∧ Spells cs x := by
  rw [decodeFrom.eq_def] at hr
  rcases lengthOf?_cases a with hl | hl | hl | hl | hl
  all_goals simp only [hl] at hr
  · cases hr
  · exact ⟨[a], _, s, rfl, spells_one hl⟩
  · match s with
    | []     => cases hr
    | b :: s =>
      have ⟨hb, _⟩ := of_checked hr
      exact ⟨[a, b], _, s, rfl, spells_two hl hb⟩
  · match s with
    | []          => cases hr
    | [b]         =>
      have ⟨_, hr⟩ := of_checked hr
      cases hr
    | b :: c :: s =>
      have ⟨hb, hr⟩ := of_checked hr
      have ⟨hc, _⟩ := of_checked hr
      exact ⟨[a, b, c], _, s, rfl, spells_three hl hb hc⟩
  · match s with
    | []               => cases hr
    | [b]              =>
      have ⟨_, hr⟩ := of_checked hr
      cases hr
    | [b, c]           =>
      have ⟨_, hr⟩ := of_checked hr
      have ⟨_, hr⟩ := of_checked hr
      cases hr
    | b :: c :: d :: s =>
      have ⟨hb, hr⟩ := of_checked hr
      have ⟨hc, hr⟩ := of_checked hr
      have ⟨hd, _⟩ := of_checked hr
      exact ⟨[a, b, c, d], _, s, rfl, spells_four hl hb hc hd⟩

inductive Readable : List UInt8 → Prop
  | nil : Readable []
  | cons {cs s : List UInt8} {x : Char} :
    Spells cs x →
    Readable s →
    Readable (cs ++ s)

theorem Spells.length_pos (sp : Spells cs x) : 0 < cs.length := by
  rcases sp.cut with rfl | ⟨hn, _⟩
  · exact Nat.one_pos
  · exact List.length_pos_iff.mpr hn

theorem readable_of_decodeFrom (hr : decodeFrom i s = .ok t) : Readable s := by
  induction hn : s.length using Nat.strongRecOn generalizing s t i with
  | _ n ih =>
    cases s with
    | nil => exact .nil
    | cons a s =>
      have ⟨cs, x, rest, hs, sp⟩ := exists_spells hr
      rw [hs, sp.reads] at hr
      rw [hs] at hn ⊢
      cases ht : decodeFrom (i + cs.length) rest with
      | error e => simp [ht, Except.map] at hr
      | ok t'   =>
        have hp := sp.length_pos
        rw [List.length_append] at hn
        exact .cons sp (ih _ (by omega) ht rfl)

-- It can be read wherever it starts.
theorem Readable.decodeFrom (hr : Readable s) (i : Nat) : ∃ t, decodeFrom i s = .ok t := by
  induction hr generalizing i with
  | nil => exact ⟨[], rfl⟩
  | @cons cs s x sp _ ih =>
    have ⟨t, ht⟩ := ih (i + cs.length)
    exact ⟨x :: t, by rw [sp.reads, ht]; rfl⟩

end Utf8

namespace Lines

theorem pieces_append_of_notMem (hn : cs ≠ []) (hl : 0x0A ∉ cs) (s : List UInt8) :
    pieces (cs ++ s) = (cs ++ (pieces s).headD []) :: (pieces s).tail := by
  induction cs with
  | nil => exact absurd rfl hn
  | cons b cs ih =>
    have hb : b ≠ 0x0A := fun h => hl (h ▸ List.mem_cons_self)
    rw [List.cons_append, pieces, if_neg hb]
    cases cs with
    | nil       =>
      rw [List.nil_append]
      cases pieces s <;> rfl
    | cons c cs =>
      rw [ih (by simp) fun h => hl (List.mem_cons_of_mem b h)]
      rfl

theorem readable_of_mem_pieces (hr : Utf8.Readable s) : ∀ piece ∈ pieces s, Utf8.Readable piece := by
  induction hr with
  | nil => simp [pieces]
  | @cons cs s x sp _ ih =>
    intro piece hp
    rcases sp.cut with rfl | ⟨hn, hl⟩
    case inl =>
      rcases List.mem_cons.mp hp with rfl | hp
      · exact .cons sp .nil
      · exact ih piece hp
    case inr =>
      rw [pieces_append_of_notMem hn hl] at hp
      rcases List.mem_cons.mp hp with rfl | hp
      case inr => exact ih piece (List.mem_of_mem_tail hp)
      -- The character goes before what the next piece starts with.
      refine .cons sp ?_
      cases hps : pieces s with
      | nil       => exact .nil
      | cons q qs => exact ih q (hps ▸ List.mem_cons_self)

theorem pieces_take (n : Nat) : pieces ((pieces s).take n).flatten = (pieces s).take n := by
  induction s generalizing n with
  | nil => simp [pieces]
  | cons b s ih =>
    cases n with
    | zero => rfl
    | succ n =>
      rw [pieces]
      split
      case isTrue hb =>
        subst hb
        rw [List.take_succ_cons, List.flatten_cons, List.singleton_append, pieces, if_pos rfl, ih]
      case isFalse hb =>
        split
        case h_1 => simp [pieces, hb]
        case h_2 p ps hp =>
          have ih := ih (n + 1)
          rw [hp, List.take_succ_cons, List.flatten_cons] at ih
          rw [List.take_succ_cons, List.flatten_cons, List.cons_append, pieces, if_neg hb, ih]

end Lines
end WriteBehind.Text
