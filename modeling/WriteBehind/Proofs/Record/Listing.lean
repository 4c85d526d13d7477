import WriteBehind.Proofs.Record.Object

namespace WriteBehind.Record

open Json (Reader exists_blanks)
open Json.Grammar (Blanks)

variable {α : Type} {reader : Reader α} {P : List Char → α → Prop}
variable {r : Record} {s t rest : List Char} {x : α} {index : Nat}

def Takes (reader : Reader α) (P : List Char → α → Prop) : Prop :=
  ∀ {s x rest}, reader s = .ok (x, rest) → ∃ b v, Blanks b ∧ P v x ∧ s = b ++ (v ++ rest)

theorem nextItem_first (h : nextItem true s = .ok (some t)) : ∃ b, Blanks b ∧ s = b ++ t := by
  obtain ⟨b, hb, hs⟩ := exists_blanks (s := s)
  unfold nextItem at h
  split at h
  case h_1        => contradiction
  case h_2 c u hu =>
    split at h
    case isTrue  => cases h
    case isFalse =>
      cases h
      exact ⟨b, hb, hu ▸ hs⟩

theorem nextItem_later (h : nextItem false s = .ok (some t)) :
    ∃ a b, Blanks a ∧ Blanks b ∧ s = a ++ ',' :: (b ++ t) := by
  obtain ⟨a, ha, hs⟩ := exists_blanks (s := s)
  unfold nextItem at h
  split at h
  case h_1        => contradiction
  case h_2 c u hu =>
    obtain ⟨b, hb, hu'⟩ := exists_blanks (s := u)
    split at h
    case isTrue => cases h
    case isFalse =>
    rw [if_neg Bool.false_ne_true] at h
    split at h
    case isFalse   => cases h
    case isTrue hc =>
      split at h
      case h_1        => cases h
      case h_2 d w hw =>
        split at h
        case isTrue  => cases h
        case isFalse =>
          cases h
          exact ⟨a, b, ha, hb, by rw [← hw, ← hu', ← hc, ← hu, ← hs]⟩

theorem item_first (hr : Takes reader P) (h : item 0 reader s = .ok (x, rest)) :
    ∃ b v, Blanks b ∧ P v x ∧ s = b ++ (v ++ rest) := by
  obtain ⟨next, hn, h⟩ := bind_eq_ok h
  cases next with
  | none   => contradiction
  | some t =>
    obtain ⟨a, ha, rfl⟩ := nextItem_first hn
    obtain ⟨b, v, hb, hv, rfl⟩ := hr h
    exact ⟨a ++ b, v, List.forall_mem_append.mpr ⟨ha, hb⟩, hv, by simp⟩

theorem item_later (hr : Takes reader P) (h : item (index + 1) reader s = .ok (x, rest)) :
    ∃ a b v, Blanks a ∧ Blanks b ∧ P v x ∧ s = a ++ ',' :: (b ++ (v ++ rest)) := by
  obtain ⟨next, hn, h⟩ := bind_eq_ok h
  cases next with
  | none   => contradiction
  | some t =>
    obtain ⟨a, b, ha, hb, rfl⟩ := nextItem_later hn
    obtain ⟨c, v, hc, hv, rfl⟩ := hr h
    exact ⟨a, b ++ c, v, ha, List.forall_mem_append.mpr ⟨hb, hc⟩, hv, by simp⟩

theorem blanks_of_closeList (h : closeList s = .ok rest) : ∃ b, Blanks b ∧ s = b ++ ']' :: rest := by
  obtain ⟨b, hb, hs⟩ := exists_blanks (s := s)
  unfold closeList at h
  split at h
  case h_1        => contradiction
  case h_2 c u hu =>
    split at h
    case isTrue hc =>
      cases h
      exact ⟨b, hb, hc ▸ hu ▸ hs⟩
    case isFalse =>
    split at h
    case isFalse => contradiction
    case isTrue  => split at h <;> contradiction

theorem isListedBy_of_list (h : list s = .ok (r, rest)) :
    ∃ items, r.IsListedBy items ∧ '[' :: s = listText items ++ rest := by
  obtain ⟨⟨id, s₁⟩, h₁, h⟩ := bind_eq_ok h
  obtain ⟨⟨user, s₂⟩, h₂, h⟩ := bind_eq_ok h
  obtain ⟨⟨kind, s₃⟩, h₃, h⟩ := bind_eq_ok h
  obtain ⟨⟨start, s₄⟩, h₄, h⟩ := bind_eq_ok h
  obtain ⟨⟨finish, s₅⟩, h₅, h⟩ := bind_eq_ok h
  obtain ⟨⟨level, s₆⟩, h₆, h⟩ := bind_eq_ok h
  obtain ⟨s₇, h₇, h⟩ := bind_eq_ok h
  obtain ⟨rfl, rfl⟩ := Prod.mk.inj (Except.ok.inj h)
  obtain ⟨a₇, ha₇, rfl⟩ := blanks_of_closeList h₇
  obtain ⟨a₆, b₆, v₆, ha₆, hb₆, hv₆, rfl⟩ := item_later isNatural_of_natural h₆
  obtain ⟨a₅, b₅, v₅, ha₅, hb₅, hv₅, rfl⟩ := item_later isTimestamp_of_timestamp h₅
  obtain ⟨a₄, b₄, v₄, ha₄, hb₄, hv₄, rfl⟩ := item_later isTimestamp_of_timestamp h₄
  obtain ⟨a₃, b₃, v₃, ha₃, hb₃, hv₃, rfl⟩ := item_later isNatural_of_natural h₃
  obtain ⟨a₂, b₂, v₂, ha₂, hb₂, hv₂, rfl⟩ := item_later isNatural_of_natural h₂
  obtain ⟨b₁, v₁, hb₁, hv₁, rfl⟩ := item_first isNatural_of_natural h₁
  let items : Field → Item := Field.rec
    ⟨b₁, v₁, a₂⟩ ⟨b₂, v₂, a₃⟩ ⟨b₃, v₃, a₄⟩ ⟨b₄, v₄, a₅⟩ ⟨b₅, v₅, a₆⟩ ⟨b₆, v₆, a₇⟩
  refine ⟨items, fun f => ?_, ?_⟩
  case refine_1 =>
    cases f with
    | id     => exact ⟨hb₁, hv₁, ha₂⟩
    | user   => exact ⟨hb₂, hv₂, ha₃⟩
    | kind   => exact ⟨hb₃, hv₃, ha₄⟩
    | start  => exact ⟨hb₄, hv₄, ha₅⟩
    | finish => exact ⟨hb₅, hv₅, ha₆⟩
    | level  => exact ⟨hb₆, hv₆, ha₇⟩
  case refine_2 =>
    simp [listText, Field.all, Item.text, items, List.intercalate]

end WriteBehind.Record
