import WriteBehind.Proofs.Text.Pieces

namespace WriteBehind.Text.Utf8

variable {c : Char} {s : List Char} {i : Nat}

theorem tail_of_lt : ∀ n < 64,
    isTail (UInt8.ofNat (n + 128)) = true ∧ bits (UInt8.ofNat (n + 128)) = n := by
  decide +kernel

theorem one_of_lt : ∀ n < 128, lengthOf? (UInt8.ofNat n) = some 1 ∧ (UInt8.ofNat n).toNat = n := by
  decide +kernel

theorem two_of_lt : ∀ n < 32, 2 ≤ n →
    lengthOf? (UInt8.ofNat (n + 192)) = some 2 ∧ (UInt8.ofNat (n + 192)).toNat % 32 = n := by
  decide +kernel

theorem three_of_lt : ∀ n < 16,
    lengthOf? (UInt8.ofNat (n + 224)) = some 3 ∧ (UInt8.ofNat (n + 224)).toNat % 16 = n := by
  decide +kernel

theorem four_of_lt : ∀ n < 5,
    lengthOf? (UInt8.ofNat (n + 240)) = some 4 ∧ (UInt8.ofNat (n + 240)).toNat % 8 = n := by
  decide +kernel

-- What follows the first byte of three is neither a longer spelling nor a surrogate.
theorem isSecond_of_three : ∀ n < 16, ∀ m < 64, (n = 0 → 32 ≤ m) → (n = 13 → m < 32) →
    isSecond (UInt8.ofNat (n + 224)) (UInt8.ofNat (m + 128)) = true := by
  decide +kernel

theorem isSecond_of_four : ∀ n < 5, ∀ m < 64, (n = 0 → 16 ≤ m) → (n = 4 → m < 16) →
    isSecond (UInt8.ofNat (n + 240)) (UInt8.ofNat (m + 128)) = true := by
  decide +kernel

theorem spells_encodeChar (c : Char) : Spells (String.utf8EncodeChar c) c := by
  have hv : c.val.toNat < 0xD800 ∨ 0xDFFF < c.val.toNat ∧ c.val.toNat < 0x110000 := c.valid
  have hc : Char.ofNat c.val.toNat = c := Char.ofNat_toNat c
  simp only [String.utf8EncodeChar]
  generalize c.val.toNat = v at hv hc
  split
  case isTrue h1 =>
    have ⟨hl, hn⟩ := one_of_lt v (by omega)
    have sp := spells_one hl
    rwa [hn, hc] at sp
  split
  case isTrue h1 h2 =>
    have ⟨hl, hn⟩ := two_of_lt (v / 64 % 32) (by omega) (by omega)
    have ⟨hb, hm⟩ := tail_of_lt (v % 64) (by omega)
    have sp := spells_two hl hb
    have he : v / 64 % 32 * 64 + v % 64 = v := by omega
    rwa [hn, hm, he, hc] at sp
  split
  case isTrue h1 h2 h3 =>
    have ⟨hl, hn⟩ := three_of_lt (v / 4096 % 16) (by omega)
    have ⟨_, hm⟩ := tail_of_lt (v / 64 % 64) (by omega)
    have ⟨hd, hk⟩ := tail_of_lt (v % 64) (by omega)
    have hb := isSecond_of_three (v / 4096 % 16) (by omega) (v / 64 % 64) (by omega) (by omega)
      (by omega)
    have sp := spells_three hl hb hd
    have he : (v / 4096 % 16 * 64 + v / 64 % 64) * 64 + v % 64 = v := by omega
    rwa [hn, hm, hk, he, hc] at sp
  case isFalse h1 h2 h3 =>
    have ⟨hl, hn⟩ := four_of_lt (v / 262144 % 8) (by omega)
    have ⟨_, hm⟩ := tail_of_lt (v / 4096 % 64) (by omega)
    have ⟨hd, hk⟩ := tail_of_lt (v / 64 % 64) (by omega)
    have ⟨hf, hj⟩ := tail_of_lt (v % 64) (by omega)
    have hb := isSecond_of_four (v / 262144 % 8) (by omega) (v / 4096 % 64) (by omega) (by omega)
      (by omega)
    have sp := spells_four hl hb hd hf
    have he : ((v / 262144 % 8 * 64 + v / 4096 % 64) * 64 + v / 64 % 64) * 64 + v % 64 = v := by omega
    rwa [hn, hm, hk, hj, he, hc] at sp

theorem decodeFrom_encode : decodeFrom i (encode s) = .ok s := by
  induction s generalizing i with
  | nil => rfl
  | cons c s ih =>
    rw [encode, List.flatMap_cons, (spells_encodeChar c).reads]
    exact congrArg (Except.map (c :: ·)) ih

theorem decode_encode (s : List Char) : decode (encode s) = .ok s := decodeFrom_encode

end WriteBehind.Text.Utf8
