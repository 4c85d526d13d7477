import WriteBehind.Proofs.Except
import WriteBehind.Proofs.Text.Blank
import WriteBehind.Proofs.Text.Encoding

namespace WriteBehind.Text

variable {c : Char} {s t : List Char} {cs bytes : List UInt8} {lines : List (List Char)}

-- A text with no character below a space stays on its line.
def IsLine (s : List Char) : Prop := ∀ c ∈ s, ' ' ≤ c

namespace IsLine

theorem append (hs : IsLine s) (ht : IsLine t) : IsLine (s ++ t) := List.forall_mem_append.mpr ⟨hs, ht⟩

theorem cons (hc : ' ' ≤ c) (hs : IsLine s) : IsLine (c :: s) := List.forall_mem_cons.mpr ⟨hc, hs⟩

theorem notMem (hs : IsLine s) (hc : c < ' ') : c ∉ s := fun h => Char.not_lt.mpr (hs c h) hc

end IsLine

namespace Utf8

theorem encode_append : encode (s ++ t) = encode s ++ encode t := List.flatMap_append

theorem notMem_encodeChar (hc : c ≠ '\n') : 0x0A ∉ String.utf8EncodeChar c := by
  rcases (spells_encodeChar c).cut with he | ⟨_, hn⟩
  case inl =>
    have hr := decode_encode [c]
    rw [encode, List.flatMap_singleton, he] at hr
    cases hr
    exact absurd rfl hc
  case inr => exact hn

theorem notMem_encode (hs : '\n' ∉ s) : 0x0A ∉ encode s := by
  intro h
  obtain ⟨c, hm, hb⟩ := List.mem_flatMap.mp h
  exact notMem_encodeChar (fun hc => hs (hc ▸ hm)) hb

end Utf8

namespace Lines

open Utf8 (encode encode_append decode_encode notMem_encode)

theorem pieces_lineFeed (hn : 0x0A ∉ cs) (bytes : List UInt8) :
    pieces (cs ++ 0x0A :: bytes) = (cs ++ [0x0A]) :: pieces bytes := by
  have hp : pieces (0x0A :: bytes) = [0x0A] :: pieces bytes := by rw [pieces, if_pos rfl]
  by_cases he : cs = []
  case pos => rw [he, List.nil_append, hp, List.nil_append]
  case neg => rw [pieces_append_of_notMem he hn, hp, List.headD_cons, List.tail_cons]

theorem pieces_encode_line (hs : '\n' ∉ s) (t : List Char) :
    pieces (encode (s ++ '\n' :: t)) = encode (s ++ ['\n']) :: pieces (encode t) := by
  have he (t : List Char) : encode (s ++ '\n' :: t) = encode s ++ 0x0A :: encode t := encode_append
  rw [he, he, pieces_lineFeed (notMem_encode hs)]
  rfl

theorem pieces_encode_last (hs : '\n' ∉ s) :
    pieces (encode s) = if s = [] then [] else [encode s] := by
  split
  case isTrue he  => rw [he]; rfl
  case isFalse hn =>
    have he : encode s ≠ [] := by
      cases s with
      | nil      => exact absurd rfl hn
      | cons c s =>
        have hp := (Utf8.spells_encodeChar c).length_pos
        exact fun he => by simp [encode, List.length_pos_iff.mp hp] at he
    have hp := pieces_append_of_notMem he (notMem_encode hs) []
    rwa [List.append_nil, pieces, List.headD_nil, List.append_nil] at hp

theorem read_encode (s : List Char) : read (encode s) = .ok (chomp s) := by
  rw [read, decode_encode]
  rfl

theorem chomp_append (s : List Char) : ∃ b, (∀ c ∈ b, isBlank c = true) ∧ s = chomp s ++ b := by
  rw [chomp]
  split
  case h_1 r hr =>
    refine ⟨['\r', '\n'], by simp [isBlank], ?_⟩
    rw [← List.reverse_reverse s, hr]
    simp
  case h_2 r _ hr =>
    refine ⟨['\n'], by simp [isBlank], ?_⟩
    rw [← List.reverse_reverse s, hr]
    simp
  case h_3 => exact ⟨[], by simp, (List.append_nil s).symm⟩

theorem trim_chomp (s : List Char) : trim (chomp s) = trim s := by
  obtain ⟨b, hb, hs⟩ := chomp_append s
  have ht := trim_append (a := []) (s := chomp s) (by simp) hb
  rwa [List.nil_append, ← hs, eq_comm] at ht

theorem chomp_lineFeed (hs : IsLine s) : chomp (s ++ ['\n']) = s := by
  rw [chomp, List.reverse_concat]
  split
  case h_1 r hr =>
    have hm : '\r' ∈ s := List.mem_reverse.mp ((List.cons.inj hr).right ▸ List.mem_cons_self)
    exact absurd hm (hs.notMem (by decide))
  case h_2 r _ hr => rw [← (List.cons.inj hr).right, List.reverse_reverse]
  case h_3 _ hr   => exact absurd rfl (hr s.reverse)

theorem pieces_encode_lines (hs : ∀ s ∈ lines, IsLine s) :
    pieces (encode (lines.flatMap (· ++ ['\n']))) = lines.map fun s => encode (s ++ ['\n']) := by
  induction lines with
  | nil => rfl
  | cons s lines ih =>
    have ⟨hs, hl⟩ := List.forall_mem_cons.mp hs
    rw [List.flatMap_cons, List.append_assoc, List.singleton_append,
      pieces_encode_line (hs.notMem (by decide)), ih hl, List.map_cons]

theorem mapM_read_lines (hs : ∀ s ∈ lines, IsLine s) :
    (pieces (encode (lines.flatMap (· ++ ['\n'])))).mapM read = .ok lines := by
  rw [pieces_encode_lines hs, mapM_eq_ok, List.forall₂_map_left_iff, List.forall₂_same]
  intro s h
  rw [read_encode, chomp_lineFeed (hs s h)]

end Lines
end WriteBehind.Text
