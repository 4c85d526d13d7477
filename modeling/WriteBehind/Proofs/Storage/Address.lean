import Mathlib.Data.List.TakeWhile
import WriteBehind.Proofs.Text.Encoding
import WriteBehind.Storage.Address

namespace WriteBehind.Storage

open Text (hexValue?)
open Text.Utf8 (decode encode)

def HasEscape (s : List Char) : Prop :=
  ∃ a b, ['%', a, b] <:+: s ∧ hexValue? a ≠ none ∧ hexValue? b ≠ none

-- Whether a path says the same as an address.
structure IsPlain (path : List Char) : Prop where
  whole   : '?' ∉ path
  literal : ¬HasEscape path
  rooted  : ¬"//".toList <+: path
  bare    : ¬"sqlite:".toList <+: path
  stored  : path ≠ ":memory:".toList

namespace Address

variable {word s path : List Char} {a b : Char}

theorem cutAll_eq_self (h : ¬word <+: s) : cutAll word s = s := by
  rw [cutAll, if_neg]
  simp [h]

theorem cutAll_append (h : word ≠ []) : cutAll word (word ++ s) = cutAll word s := by
  rw [cutAll, if_pos ⟨by simp, h⟩, List.drop_left]

theorem hasEscape_cons {c : Char} (h : HasEscape s) : HasEscape (c :: s) := by
  obtain ⟨a, b, hs, h⟩ := h
  exact ⟨a, b, List.infix_cons hs, h⟩

theorem not_hasEscape (h : '%' ∉ s) : ¬HasEscape s :=
  fun ⟨_, _, hs, _⟩ => h (hs.subset List.mem_cons_self)

theorem unescape_eq_encode (h : ¬HasEscape s) : unescape s = encode s := by
  fun_induction unescape s with
  | case1 => rfl
  | case2 a b s x y hb ha _ =>
    exact absurd ⟨a, b, (List.prefix_append _ s).isInfix, by simp [ha], by simp [hb]⟩ h
  | case3 a b s _ ih =>
    rw [ih fun he => h (hasEscape_cons he)]
    exact List.flatMap_append.symm
  | case4 c s _ ih =>
    rw [ih fun he => h (hasEscape_cons he)]
    exact List.flatMap_append.symm

theorem ofFile_eq (hw : '?' ∉ path) (hr : ¬"//".toList <+: path) (hb : ¬"sqlite:".toList <+: path) :
    ofFile path =
      if path = ":memory:".toList then .ok { path, inMemory := true }
      else match decode (unescape path) with
        | .ok path => .ok { path }
        | .error e => .error (.configuration e.message) := by
  have hs : cutAll "sqlite:".toList (cutAll "sqlite://".toList ("sqlite:".toList ++ path)) = path := by
    have hn : ¬"sqlite://".toList <+: "sqlite:".toList ++ path :=
      fun hp => hr ((List.prefix_append_right_inj "sqlite:".toList).mp hp)
    rw [cutAll_eq_self hn, cutAll_append (by simp), cutAll_eq_self hb]
  have ht : path.takeWhile (· ≠ '?') = path := by
    refine List.takeWhile_eq_self_iff.mpr fun c hc => ?_
    simpa using fun he : c = '?' => hw (he ▸ hc)
  have hp : parameters (path.drop (path.length + 1)) = [] := by
    rw [List.drop_of_length_le (Nat.le_succ _)]
    rfl
  simp only [ofFile, parse, hs, ht, hp]
  split
  case isTrue => rfl
  case isFalse =>
    cases decode (unescape path) <;> rfl

theorem ofFile_of_isPlain (h : IsPlain path) : ofFile path = .ok { path } := by
  have hd : decode (unescape path) = .ok path := by
    rw [unescape_eq_encode h.literal, Text.Utf8.decode_encode]
  rw [ofFile_eq h.whole h.rooted h.bare, if_neg h.stored, hd]

theorem ofFile_memory :
    ofFile ":memory:".toList = .ok { path := ":memory:".toList, inMemory := true } := by
  rw [ofFile_eq (by decide) (by decide) (by decide), if_pos rfl]

end Address

end WriteBehind.Storage
