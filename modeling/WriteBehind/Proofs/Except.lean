import Mathlib.Data.List.Forall2

namespace WriteBehind

variable {ε α β : Type} {x : Except ε α} {b : β}

theorem bind_eq_ok {f : α → Except ε β} (h : x >>= f = .ok b) : ∃ a, x = .ok a ∧ f a = .ok b := by
  cases x with
  | error e => cases h
  | ok a    => exact ⟨a, rfl, h⟩

theorem map_eq_ok {f : α → β} (h : x.map f = .ok b) : ∃ a, x = .ok a ∧ f a = b := by
  cases x with
  | error e => cases h
  | ok a    => exact ⟨a, rfl, Except.ok.inj h⟩

section

variable {g : α → Except ε β} {xs : List α} {ys : List β} {e : ε}

theorem mapM_eq_ok : xs.mapM g = .ok ys ↔ xs.Forall₂ (fun x y => g x = .ok y) ys := by
  induction xs generalizing ys with
  | nil => simp [pure, Except.pure, eq_comm]
  | cons x xs hi =>
    rw [List.mapM_cons, List.forall₂_cons_left_iff]
    cases hx : g x with
    | error e => simp [bind, Except.bind]
    | ok y    =>
      cases hm : xs.mapM g with
      | error e => simp [bind, Except.bind, ← hi, hm]
      | ok ys'  => simp [bind, Except.bind, pure, Except.pure, ← hi, hm, eq_comm]

theorem mapM_eq_error : xs.mapM g = .error e ↔
    ∃ pre x post, xs = pre ++ x :: post ∧ (∀ x' ∈ pre, ∃ y, g x' = .ok y) ∧ g x = .error e := by
  induction xs with
  | nil => simp [pure, Except.pure]
  | cons x xs hi =>
    rw [List.mapM_cons]
    constructor
    case mp =>
      intro hm
      cases hx : g x with
      | error e' =>
        rw [hx] at hm
        cases hm
        exact ⟨[], x, xs, rfl, nofun, hx⟩
      | ok y     =>
        have hm : xs.mapM g = .error e := by
          cases hm' : xs.mapM g with
          | error e' => rw [hx, hm'] at hm; exact hm
          | ok ys    => rw [hx, hm'] at hm; cases hm
        obtain ⟨pre, x', post, rfl, hp, he⟩ := hi.mp hm
        exact ⟨x :: pre, x', post, rfl, List.forall_mem_cons.mpr ⟨⟨y, hx⟩, hp⟩, he⟩
    case mpr =>
      rintro ⟨_ | ⟨x', pre⟩, x'', post, hs, hp, he⟩
      · obtain ⟨rfl, rfl⟩ := List.cons.inj hs
        rw [he]
        rfl
      · obtain ⟨rfl, rfl⟩ := List.cons.inj hs
        have ⟨⟨y, hy⟩, hp⟩ := List.forall_mem_cons.mp hp
        rw [hy, hi.mpr ⟨pre, x'', post, rfl, hp, he⟩]
        rfl

theorem mapM_of_ok (h : ∀ x ∈ xs, ∃ y, g x = .ok y) :
    ∃ ys, xs.mapM g = .ok ys ∧ ∀ (i : Nat) x y, xs[i]? = some x → g x = .ok y → ys[i]? = some y := by
  induction xs with
  | nil => exact ⟨[], rfl, fun i x y hx => by simp at hx⟩
  | cons x xs hi =>
    have ⟨⟨y, hy⟩, hxs⟩ := List.forall_mem_cons.mp h
    obtain ⟨ys, hys, hg⟩ := hi hxs
    refine ⟨y :: ys, by rw [List.mapM_cons, hy, hys]; rfl, fun i x' y' hx hf => ?_⟩
    cases i with
    | zero =>
      rw [List.getElem?_cons_zero, Option.some.injEq] at hx ⊢
      rw [← hx, hy] at hf
      exact Except.ok.inj hf
    | succ i => exact hg i x' y' hx hf

theorem mapM_of_error {x : α} {e : ε} (hx : x ∈ xs) (he : g x = .error e) :
    ∃ e', xs.mapM g = .error e' := by
  induction xs with
  | nil => cases hx
  | cons x' xs hi =>
    rw [List.mapM_cons]
    cases hf : g x' with
    | error e' => exact ⟨e', rfl⟩
    | ok y =>
      cases hx with
      | head => cases hf.symm.trans he
      | tail _ hx =>
        obtain ⟨e', he'⟩ := hi hx
        exact ⟨e', by rw [he']; rfl⟩

end

end WriteBehind
