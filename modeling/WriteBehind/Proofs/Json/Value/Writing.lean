import WriteBehind.Proofs.Json.Value.Reading
import WriteBehind.Proofs.Text.Lines

namespace WriteBehind.Json.Value

open Grammar (Denotes Digits NumberOf PowerOf Whole)
open Text (IsLine)

variable {c : Char} {ds s : List Char} {v w : Value}

theorem exists_writeInt (n : Int) :
    ∃ sg ds, sg ∈ [[], ['-']] ∧ Whole ds ∧ writeInt n = sg ++ ds ∧ Grammar.signed sg ds = n := by
  cases n with
  | ofNat n   =>
    refine ⟨[], Nat.toDigits 10 n, by simp, whole_toDigits, rfl, ?_⟩
    rw [Grammar.signed, if_neg (by simp), Nat.ofDigitChars_ten_toDigits]
    rfl
  | negSucc n =>
    refine ⟨['-'], Nat.toDigits 10 (n + 1), by simp, whole_toDigits, rfl, ?_⟩
    rw [Grammar.signed, if_pos rfl, Nat.ofDigitChars_ten_toDigits]
    rfl

theorem denotes_integer (n : Int) : Denotes .value (writeInt n) (integer n) := by
  obtain ⟨sg, ds, hs, hw, hn, rfl⟩ := exists_writeInt n
  exact hn ▸ .number (.integer hs hw)

theorem denotes_decimal (n e : Int) :
    Denotes .value (writeInt n ++ 'e' :: writeInt e) (decimal n e) := by
  obtain ⟨sg, ds, hs, hw, hn, rfl⟩ := exists_writeInt n
  obtain ⟨sg', ds', hs', hw', he, rfl⟩ := exists_writeInt e
  have hsg : sg' ∈ [[], ['+'], ['-']] := by
    simp only [List.mem_cons, List.not_mem_nil, or_false] at hs' ⊢
    exact hs'.imp_right .inr
  have hp : PowerOf ('e' :: sg' ++ ds') (Grammar.signed sg' ds') := .exponent (by simp) hsg hw'.left
  have h := NumberOf.decimal hs hw .none hp (.inr (by simp))
  rw [hn, he]
  simpa using Denotes.number h

mutual

-- The recursion is that of writing. A value is written without blanks, which the grammar allows.
theorem denotes_write : (v : Value) → Denotes .value v.write v
  | null           => .null
  | boolean _      => .boolean
  | integer n      => denotes_integer n
  | decimal n e    => denotes_decimal n e
  | text _         => .text Quoted.inside_write
  | list []        => .noItems blanks_nil
  | list (v :: vs) => .list (denotes_writeItems (v :: vs) (List.cons_ne_nil v vs))
  | object []      => .noMembers blanks_nil
  | object (m :: ms) => .object (denotes_writeMembers (m :: ms) (List.cons_ne_nil m ms))

theorem denotes_writeItems : (vs : List Value) → vs ≠ [] → Denotes .items (writeItems vs) vs
  | [v], _ => by
    simpa [writeItems] using Denotes.item blanks_nil (denotes_write v) blanks_nil
  | v :: w :: vs, _ => by
    have h := denotes_writeItems (w :: vs) (List.cons_ne_nil w vs)
    simpa [writeItems] using Denotes.items blanks_nil (denotes_write v) blanks_nil h

theorem denotes_writeMembers :
    (ms : List (List Char × Value)) → ms ≠ [] → Denotes .members (writeMembers ms) ms
  | [(n, v)], _ => by
    have hn := Quoted.inside_write (s := n)
    simpa [writeMembers, Quoted.write] using
      Denotes.member blanks_nil hn blanks_nil blanks_nil (denotes_write v) blanks_nil
  | (n, v) :: m :: ms, _ => by
    have hn := Quoted.inside_write (s := n)
    have h := denotes_writeMembers (m :: ms) (List.cons_ne_nil m ms)
    simpa [writeMembers, Quoted.write] using
      Denotes.members blanks_nil hn blanks_nil blanks_nil (denotes_write v) blanks_nil h

end

theorem denotes_write_iff : Denotes .value v.write w ↔ w = v := by
  constructor
  case mp  => exact fun h => denotes_unique h (denotes_write v)
  case mpr =>
    rintro rfl
    exact denotes_write w

theorem read_write (v : Value) : read v.write = .ok v := read_of_denotes (denotes_write v)

theorem isLine_of_digits (h : Digits ds) : IsLine ds := by
  intro c hc
  have hd : c.isDigit = true := h.right c hc
  have hz : '0' ≤ c := by
    simp only [Char.isDigit, Bool.and_eq_true, decide_eq_true_eq] at hd
    exact hd.left
  exact Char.le_trans (by decide) hz

theorem space_le_digitChar : ∀ n < 16, ' ' ≤ Nat.digitChar n := by decide

theorem isLine_writeChar : IsLine (Quoted.writeChar c) := by
  rw [Quoted.writeChar]
  -- The seven characters with an escape of their own come first.
  iterate 7
    split
    case isTrue => simp [IsLine]
  split
  case isTrue hc =>
    have hn : c.toNat < 32 := UInt32.lt_iff_toNat_lt.mp hc
    have hh := space_le_digitChar (c.toNat / 16) (by omega)
    have hl := space_le_digitChar (c.toNat % 16) (by omega)
    simp [IsLine, hh, hl]
  case isFalse hc => simpa [IsLine] using hc

theorem isLine_quoted : IsLine (Quoted.write s) := by
  have hs : IsLine (s.flatMap Quoted.writeChar) := by
    intro c hc
    obtain ⟨d, _, hc⟩ := List.mem_flatMap.mp hc
    exact isLine_writeChar c hc
  exact .append (.cons (by decide) hs) (by simp [IsLine])

theorem isLine_writeInt (n : Int) : IsLine (writeInt n) := by
  obtain ⟨sg, ds, hs, hw, hn, _⟩ := exists_writeInt n
  have hsg : IsLine sg := by
    simp only [List.mem_cons, List.not_mem_nil, or_false] at hs
    rcases hs with rfl | rfl <;> simp [IsLine]
  exact hn ▸ hsg.append (isLine_of_digits hw.left)

mutual

theorem isLine_write : (v : Value) → IsLine v.write
  | null        => by simp [write, IsLine]
  | boolean b   => by cases b <;> simp [write, IsLine]
  | integer n   => isLine_writeInt n
  | decimal n e => .append (isLine_writeInt n) (.cons (by decide) (isLine_writeInt e))
  | text _      => isLine_quoted
  | list vs     => .append (.cons (by decide) (isLine_writeItems vs)) (by simp [IsLine])
  | object ms   => .append (.cons (by decide) (isLine_writeMembers ms)) (by simp [IsLine])

theorem isLine_writeItems : (vs : List Value) → IsLine (writeItems vs)
  | []           => by simp [writeItems, IsLine]
  | [v]          => isLine_write v
  | v :: w :: vs => .append (isLine_write v) (.cons (by decide) (isLine_writeItems (w :: vs)))

theorem isLine_writeMembers : (ms : List (List Char × Value)) → IsLine (writeMembers ms)
  | []                => by simp [writeMembers, IsLine]
  | [(_, v)]          => .append isLine_quoted (.cons (by decide) (isLine_write v))
  | (_, v) :: m :: ms =>
    .append (.append isLine_quoted (.cons (by decide) (isLine_write v)))
      (.cons (by decide) (isLine_writeMembers (m :: ms)))

end

end WriteBehind.Json.Value
