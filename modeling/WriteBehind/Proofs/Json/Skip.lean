import WriteBehind.Json.Skip
import WriteBehind.Proofs.Json.Number
import WriteBehind.Proofs.Json.Quoted

namespace WriteBehind.Json

open Grammar (Blanks Numeral Part Spelled Unread)
open Number (Ends)

variable {a b n s sg t v w rest : List Char} {c : Char} {fuel : Nat}

theorem blanks_nil : Blanks [] := fun _ hc => absurd hc List.not_mem_nil

theorem skipBlanks_append (hb : Blanks b) : skipBlanks (b ++ s) = skipBlanks s :=
  List.dropWhile_append_of_pos hb

theorem skipBlanks_cons (hc : isBlank c = false) : skipBlanks (c :: s) = c :: s :=
  List.dropWhile_cons_of_neg (by simp [hc])

theorem not_isBlank_of_skipBlanks (h : skipBlanks s = c :: t) : isBlank c = false := by
  have hc := List.head?_dropWhile_not isBlank s
  rwa [show s.dropWhile isBlank = c :: t from h] at hc

theorem skipBlanks_skipBlanks : skipBlanks (skipBlanks s) = skipBlanks s := by
  cases h : skipBlanks s with
  | nil      => rfl
  | cons c t => exact skipBlanks_cons (not_isBlank_of_skipBlanks h)

theorem exists_blanks : ∃ b, Blanks b ∧ s = b ++ skipBlanks s :=
  ⟨s.takeWhile isBlank, List.all_eq_true.mp List.all_takeWhile, List.takeWhile_append_dropWhile.symm⟩

theorem blanks_of_skipBlanks (h : skipBlanks s = []) : Blanks s := by
  obtain ⟨b, hb, hs⟩ := exists_blanks (s := s)
  rw [h, List.append_nil] at hs
  exact hs ▸ hb

theorem not_isBlank_of_isDigit (hc : c.isDigit = true) : isBlank c = false := by
  simp only [isBlank, Bool.or_eq_false_iff, decide_eq_false_iff_not]
  refine ⟨⟨⟨?_, ?_⟩, ?_⟩, ?_⟩ <;> rintro rfl <;> contradiction

theorem ne_of_isDigit (hc : c.isDigit = true) : c ≠ 'n' ∧ c ≠ 't' ∧ c ≠ 'f' ∧ c ≠ '-' := by
  refine ⟨?_, ?_, ?_, ?_⟩ <;> rintro rfl <;> contradiction

theorem ends_append (hb : Blanks b) (he : Ends s) : Ends (b ++ s) := by
  cases b with
  | nil => exact he
  | cons c b =>
    intro d hd
    obtain rfl : c = d := Option.some.inj hd
    have hc : isBlank c = true := hb c List.mem_cons_self
    simp only [isBlank, Bool.or_eq_true, decide_eq_true_eq] at hc
    rcases hc with ((rfl | rfl) | rfl) | rfl <;> decide

theorem ends_nil : Ends [] := fun _ hc => by cases hc

theorem ends_cons (hc : c ∈ [',', ']', '}']) : Ends (c :: s) := by
  intro d hd
  obtain rfl : c = d := Option.some.inj hd
  simp only [List.mem_cons, List.not_mem_nil, or_false] at hc
  rcases hc with rfl | rfl | rfl <;> decide

theorem eq_of_word (h : word w s = .ok rest) : s = w ++ rest := by
  induction w generalizing s with
  | nil =>
    cases h
    rfl
  | cons c w hi =>
    cases s with
    | nil      => contradiction
    | cons d s =>
      rw [word] at h
      split at h
      case isFalse   => contradiction
      case isTrue hc => rw [hc, hi h, List.cons_append]

namespace Skip

theorem scalar_of_isDigit (hc : c.isDigit = true) : scalar (c :: s) = Number.skip (c :: s) := by
  simp only [scalar, ne_of_isDigit hc, hc, if_true, if_false]

theorem scalar_word {w : String} (hw : w ∈ ["null", "true", "false"]) :
    scalar (w.toList ++ rest) = .ok rest := by
  simp only [List.mem_cons, List.not_mem_nil, or_false] at hw
  rcases hw with rfl | rfl | rfl
  all_goals exact word_append _ rest

theorem scalar_numeral (hs : Numeral s) (he : Ends rest) : scalar (s ++ rest) = .ok rest := by
  obtain ⟨sg, ds, f, p, hs, hw, hf, hp, rfl⟩ := hs
  have hn := Number.skip_append hw hf hp he
  have ⟨⟨hne, hd⟩, _⟩ := hw
  simp only [List.mem_cons, List.not_mem_nil, or_false] at hs
  simp only [List.append_assoc]
  rcases hs with rfl | rfl
  case inr => exact hn
  case inl =>
    cases ds with
    | nil       => contradiction
    | cons c ds => exact (scalar_of_isDigit (hd c List.mem_cons_self)).trans hn

theorem scalar_text (hs : Unread s) : scalar ('\"' :: s ++ ['\"'] ++ rest) = .ok rest := by
  rw [List.append_assoc]
  exact Quoted.skip_append hs

theorem head_of_scalar (h : scalar s = .ok rest) :
    ∃ c t, s = c :: t ∧ isBlank c = false ∧ c ≠ '[' ∧ c ≠ '{' ∧ c ≠ ']' := by
  cases s with
  | nil      => contradiction
  | cons c t =>
    refine ⟨c, t, rfl, ?_, ?_, ?_, ?_⟩
    case refine_1 =>
      refine Bool.eq_false_iff.mpr fun hc => ?_
      simp only [isBlank, Bool.or_eq_true, decide_eq_true_eq] at hc
      rcases hc with ((rfl | rfl) | rfl) | rfl <;> contradiction
    all_goals
      rintro rfl
      contradiction

theorem numeral_of_skip (h : Number.skip s = .ok rest) (hg : sg ∈ [[], ['-']]) :
    ∃ v, Numeral v ∧ sg ++ s = v ++ rest := by
  obtain ⟨ds, f, p, hw, hf, hp, rfl⟩ := Number.whole_of_skip h
  exact ⟨_, ⟨sg, ds, f, p, hg, hw, hf, hp, rfl⟩, by simp only [List.append_assoc]⟩

theorem spelled_of_scalar (h : scalar s = .ok rest) : ∃ v, Spelled .value v ∧ s = v ++ rest := by
  cases s with
  | nil      => contradiction
  | cons c s =>
    unfold scalar at h
    simp only at h
    split at h
    case isTrue hc =>
      rw [hc, eq_of_word h]
      exact ⟨_, .word (w := "null") (by simp), rfl⟩
    split at h
    case isTrue hc =>
      rw [hc, eq_of_word h]
      exact ⟨_, .word (w := "true") (by simp), rfl⟩
    split at h
    case isTrue hc =>
      rw [hc, eq_of_word h]
      exact ⟨_, .word (w := "false") (by simp), rfl⟩
    split at h
    case isTrue hc =>
      subst hc
      obtain ⟨v, hv, hs⟩ := numeral_of_skip h (by simp : ['-'] ∈ [[], ['-']])
      exact ⟨v, .number hv, hs⟩
    split at h
    case isTrue =>
      obtain ⟨v, hv, hs⟩ := numeral_of_skip h (by simp : [] ∈ [[], ['-']])
      exact ⟨v, .number hv, hs⟩
    split at h
    case isFalse   => contradiction
    case isTrue hc =>
      obtain ⟨u, rfl, hu⟩ := Quoted.unread_of_skip h
      exact ⟨_, .text hu, by simp [hc]⟩

theorem name_append (ha : Blanks a) (hn : Unread n) (hb : Blanks b) :
    name (a ++ '\"' :: (n ++ '\"' :: (b ++ ':' :: rest))) = .ok rest := by
  rw [name, skipBlanks_append ha, skipBlanks_cons rfl]
  simp only [if_true, Quoted.skip_append hn, bind, Except.bind, skipBlanks_append hb]
  rw [skipBlanks_cons rfl]
  rfl

theorem unread_of_name (h : name s = .ok rest) : ∃ a n b, Blanks a ∧ Unread n ∧ Blanks b ∧
    s = a ++ '\"' :: (n ++ '\"' :: (b ++ ':' :: rest)) := by
  obtain ⟨a, ha, hs⟩ := exists_blanks (s := s)
  unfold name at h
  split at h
  case h_1 => contradiction
  case h_2 c t ht =>
    split at h
    case isFalse   => contradiction
    case isTrue hc =>
      subst hc
      obtain ⟨t', hq, hr⟩ := bind_eq_ok h
      obtain ⟨n, rfl, hn⟩ := Quoted.unread_of_skip hq
      obtain ⟨b, hb, hs'⟩ := exists_blanks (s := t')
      split at hr
      case h_1 => contradiction
      case h_3 => contradiction
      case h_2 r hc' =>
        cases hr
        exact ⟨a, n, b, ha, hn, hb, by rwa [← hc', ← hs', ← ht]⟩

theorem name_skipBlanks : name (skipBlanks s) = name s := by
  rw [name, name, skipBlanks_skipBlanks]

theorem valueFrom_skipBlanks : valueFrom (fuel + 1) (skipBlanks s) = valueFrom (fuel + 1) s := by
  rw [valueFrom, valueFrom, skipBlanks_skipBlanks]

theorem valueFrom_of_scalar (h : scalar s = .ok rest) : valueFrom (fuel + 1) s = .ok rest := by
  obtain ⟨c, t, rfl, hb, hl, ho, _⟩ := head_of_scalar h
  rw [valueFrom, skipBlanks_cons hb]
  split
  case h_1 heq => exact absurd (List.cons.inj heq).left hl
  case h_2 heq => exact absurd (List.cons.inj heq).left ho
  case h_3     => exact h

theorem listFrom_end (first : Bool) (hb : Blanks b) :
    listFrom (fuel + 1) first (b ++ ']' :: rest) = .ok rest := by
  rw [listFrom, skipBlanks_append hb, skipBlanks_cons rfl]
  rfl

theorem objectFrom_end (first : Bool) (hb : Blanks b) :
    objectFrom (fuel + 1) first (b ++ '}' :: rest) = .ok rest := by
  rw [objectFrom, skipBlanks_append hb, skipBlanks_cons rfl]
  rfl

-- The items of a list, of which none is read yet.
def itemsFrom (fuel : Nat) (s : List Char) : Except Fault (List Char) := do
  listFrom fuel false (← valueFrom fuel s)

def membersFrom (fuel : Nat) (s : List Char) : Except Fault (List Char) := do
  objectFrom fuel false (← valueFrom fuel (← name s))

theorem listFrom_first (h : skipBlanks s = c :: t) (hc : c ≠ ']') :
    listFrom (fuel + 2) true s = itemsFrom (fuel + 1) s := by
  rw [listFrom, h, itemsFrom, ← valueFrom_skipBlanks, h]
  exact if_neg hc

theorem objectFrom_first (h : skipBlanks s = c :: t) (hc : c ≠ '}') :
    objectFrom (fuel + 1) true s = membersFrom fuel s := by
  rw [objectFrom, h, membersFrom, ← name_skipBlanks, h]
  exact if_neg hc

theorem listFrom_later (hb : Blanks b) :
    listFrom (fuel + 1) false (b ++ ',' :: s) = itemsFrom fuel s := by
  rw [listFrom, skipBlanks_append hb, skipBlanks_cons rfl]
  rfl

theorem objectFrom_later (hb : Blanks b) :
    objectFrom (fuel + 1) false (b ++ ',' :: s) = membersFrom fuel s := by
  rw [objectFrom, skipBlanks_append hb, skipBlanks_cons rfl]
  rfl

theorem head_of_spelled (h : Spelled .value v) : ∃ c t, v = c :: t ∧ isBlank c = false ∧ c ≠ ']' := by
  have hs : scalar (v ++ []) = .ok [] → ∃ c t, v = c :: t ∧ isBlank c = false ∧ c ≠ ']' := by
    intro h
    obtain ⟨c, t, hv, hb, _, _, hc⟩ := head_of_scalar h
    exact ⟨c, t, (List.append_nil v).symm.trans hv, hb, hc⟩
  cases h with
  | word hw    => exact hs (scalar_word hw)
  | number hn  => exact hs (scalar_numeral hn ends_nil)
  | text hu    => exact hs (scalar_text hu)
  | list _     => exact ⟨_, _, rfl, by decide⟩
  | object _   => exact ⟨_, _, rfl, by decide⟩
  | nothing ho =>
    simp only [List.mem_cons, Prod.mk.injEq, List.not_mem_nil, or_false] at ho
    rcases ho with ⟨rfl, rfl⟩ | ⟨rfl, rfl⟩
    all_goals exact ⟨_, _, rfl, by decide⟩

theorem skipBlanks_value (ha : Blanks a) (hv : Spelled .value v) :
    ∃ c t, skipBlanks (a ++ (v ++ rest)) = c :: t ∧ c ≠ ']' := by
  obtain ⟨c, t, rfl, hb, hc⟩ := head_of_spelled hv
  exact ⟨c, t ++ rest, (skipBlanks_append ha).trans (skipBlanks_cons hb), hc⟩

theorem skipBlanks_items (rest : List Char) (h : Spelled .items s) :
    ∃ c t, skipBlanks (s ++ rest) = c :: t ∧ c ≠ ']' := by
  cases h with
  | item ha hv _    => simpa only [List.append_assoc] using skipBlanks_value ha hv
  | items ha hv _ _ => simpa only [List.append_assoc] using skipBlanks_value ha hv

theorem skipBlanks_members (rest : List Char) (h : Spelled .members s) :
    ∃ t, skipBlanks (s ++ rest) = '\"' :: t := by
  cases h with
  | member ha _ _ _ _ _ =>
    simp only [List.append_assoc, List.cons_append, skipBlanks_append ha]
    exact ⟨_, skipBlanks_cons rfl⟩
  | members ha _ _ _ _ _ _ =>
    simp only [List.append_assoc, List.cons_append, skipBlanks_append ha]
    exact ⟨_, skipBlanks_cons rfl⟩

-- Whether the part is skipped where it stands, given two steps for each of its characters.
def Skipped : Part → List Char → Prop
  | .value, s => ∀ {fuel rest},
    2 * s.length ≤ fuel → Ends rest → valueFrom fuel (s ++ rest) = .ok rest
  | .items, s => ∀ {fuel rest},
    2 * s.length ≤ fuel → itemsFrom fuel (s ++ ']' :: rest) = .ok rest
  | .members, s => ∀ {fuel rest},
    2 * s.length ≤ fuel → membersFrom fuel (s ++ '}' :: rest) = .ok rest

theorem skipped_of_scalar (h : ∀ {rest}, Ends rest → scalar (v ++ rest) = .ok rest) :
    Skipped .value v := by
  intro fuel rest hf he
  cases v with
  | nil      => cases h ends_nil
  | cons c v =>
    rw [List.length_cons] at hf
    obtain ⟨fuel, rfl⟩ : ∃ k, fuel = k + 1 := ⟨fuel - 1, by omega⟩
    exact valueFrom_of_scalar (h he)

theorem itemsFrom_append {x : List Char} (ha : Blanks a) (hv : Skipped .value v)
    (hf : 2 * v.length ≤ fuel + 1) (he : Ends x) :
    itemsFrom (fuel + 1) (a ++ v ++ x) = listFrom (fuel + 1) false x := by
  rw [itemsFrom, ← valueFrom_skipBlanks, List.append_assoc, skipBlanks_append ha,
    valueFrom_skipBlanks, hv hf he]
  rfl

theorem membersFrom_append {d x : List Char} (ha : Blanks a) (hn : Unread n) (hb : Blanks b)
    (hd : Blanks d) (hv : Skipped .value v) (hf : 2 * v.length ≤ fuel + 1) (he : Ends x) :
    membersFrom (fuel + 1) (a ++ '\"' :: n ++ '\"' :: b ++ ':' :: d ++ v ++ x)
      = objectFrom (fuel + 1) false x := by
  simp only [List.append_assoc, List.cons_append]
  simp only [membersFrom, name_append ha hn hb, bind, Except.bind]
  rw [← valueFrom_skipBlanks, skipBlanks_append hd, valueFrom_skipBlanks, hv hf he]

-- By induction on the grammar: each part is skipped if its own parts are.
theorem skipped_of_spelled {p : Part} (h : Spelled p s) : Skipped p s := by
  induction h with
  | word hw   => exact skipped_of_scalar fun _ => scalar_word hw
  | number hn => exact skipped_of_scalar (scalar_numeral hn)
  | text hu   => exact skipped_of_scalar fun _ => scalar_text hu
  | @nothing b o c ho hb =>
    intro fuel rest hf _
    simp only [List.length_append, List.length_cons] at hf
    obtain ⟨fuel, rfl⟩ : ∃ k, fuel = k + 2 := ⟨fuel - 2, by omega⟩
    simp only [List.mem_cons, Prod.mk.injEq, List.not_mem_nil, or_false] at ho
    rcases ho with ⟨rfl, rfl⟩ | ⟨rfl, rfl⟩
    case inl =>
      rw [List.append_assoc, List.cons_append, valueFrom, skipBlanks_cons rfl]
      exact listFrom_end true hb
    case inr =>
      rw [List.append_assoc, List.cons_append, valueFrom, skipBlanks_cons rfl]
      exact objectFrom_end true hb
  | @list s hs hi =>
    intro fuel rest hf _
    simp only [List.length_append, List.length_cons, List.length_nil] at hf
    obtain ⟨fuel, rfl⟩ : ∃ k, fuel = k + 3 := ⟨fuel - 3, by omega⟩
    obtain ⟨c, t, ht, hc⟩ := skipBlanks_items (']' :: rest) hs
    rw [List.append_assoc, List.cons_append, valueFrom, skipBlanks_cons rfl]
    exact (listFrom_first ht hc).trans (hi (by omega))
  | @object s hs hi =>
    intro fuel rest hf _
    simp only [List.length_append, List.length_cons, List.length_nil] at hf
    obtain ⟨fuel, rfl⟩ : ∃ k, fuel = k + 2 := ⟨fuel - 2, by omega⟩
    obtain ⟨t, ht⟩ := skipBlanks_members ('}' :: rest) hs
    rw [List.append_assoc, List.cons_append, valueFrom, skipBlanks_cons rfl]
    exact (objectFrom_first ht (by decide)).trans (hi (by omega))
  | @item a v b ha hv hb hi =>
    intro fuel rest hf
    obtain ⟨c, t, rfl, _⟩ := head_of_spelled hv
    simp only [List.length_append, List.length_cons] at hf
    obtain ⟨fuel, rfl⟩ : ∃ k, fuel = k + 1 := ⟨fuel - 1, by omega⟩
    rw [List.append_assoc _ b, itemsFrom_append ha hi (by rw [List.length_cons]; omega)
      (ends_append hb (ends_cons (by simp)))]
    exact listFrom_end false hb
  | @items a v b s ha _ hb _ hv hi =>
    intro fuel rest hf
    simp only [List.length_append, List.length_cons] at hf
    obtain ⟨fuel, rfl⟩ : ∃ k, fuel = k + 2 := ⟨fuel - 2, by omega⟩
    rw [List.append_assoc _ _ (']' :: rest), List.append_assoc _ b, List.cons_append,
      itemsFrom_append ha hv (by omega) (ends_append hb (ends_cons (by simp))), listFrom_later hb]
    exact hi (by omega)
  | @member a n b c v d ha hn hb hc _ hd hi =>
    intro fuel rest hf
    simp only [List.length_append, List.length_cons] at hf
    obtain ⟨fuel, rfl⟩ : ∃ k, fuel = k + 1 := ⟨fuel - 1, by omega⟩
    rw [List.append_assoc _ d, membersFrom_append ha hn hb hc hi (by omega)
      (ends_append hd (ends_cons (by simp)))]
    exact objectFrom_end false hd
  | @members a n b c v d s ha hn hb hc _ hd _ hv hi =>
    intro fuel rest hf
    simp only [List.length_append, List.length_cons] at hf
    obtain ⟨fuel, rfl⟩ : ∃ k, fuel = k + 2 := ⟨fuel - 2, by omega⟩
    rw [List.append_assoc _ _ ('}' :: rest), List.append_assoc _ d, List.cons_append,
      membersFrom_append ha hn hb hc hv (by omega) (ends_append hd (ends_cons (by simp))),
      objectFrom_later hd]
    exact hi (by omega)

theorem value_append (hb : Blanks b) (hv : Spelled .value v) (he : Ends rest) :
    value (b ++ (v ++ rest)) = .ok rest := by
  have hl : 2 * v.length ≤ 2 * (b ++ (v ++ rest)).length + 2 := by
    simp only [List.length_append]
    omega
  rw [value, ← valueFrom_skipBlanks, skipBlanks_append hb, valueFrom_skipBlanks]
  exact skipped_of_spelled hv hl he

theorem listFrom_eq_ok {first : Bool} (h : listFrom (fuel + 1) first s = .ok rest) :
    skipBlanks s = ']' :: rest ∨ (first = true ∧ itemsFrom fuel s = .ok rest) ∨
      ∃ t, first = false ∧ skipBlanks s = ',' :: t ∧ itemsFrom fuel t = .ok rest := by
  unfold listFrom at h
  split at h
  case h_1 => contradiction
  case h_2 c t ht =>
    split at h
    case isTrue hc =>
      subst hc
      cases h
      exact .inl ht
    case isFalse =>
    split at h
    case isTrue hf =>
      refine .inr (.inl ⟨hf, ?_⟩)
      cases fuel with
      | zero      => contradiction
      | succ fuel => rwa [itemsFrom, ← valueFrom_skipBlanks, ht]
    case isFalse hf =>
    split at h
    case isFalse   => contradiction
    case isTrue hc =>
      exact .inr (.inr ⟨t, Bool.eq_false_iff.mpr hf, ht.trans (congrArg (· :: t) hc), h⟩)

theorem objectFrom_eq_ok {first : Bool} (h : objectFrom (fuel + 1) first s = .ok rest) :
    skipBlanks s = '}' :: rest ∨ (first = true ∧ membersFrom fuel s = .ok rest) ∨
      ∃ t, first = false ∧ skipBlanks s = ',' :: t ∧ membersFrom fuel t = .ok rest := by
  unfold objectFrom at h
  split at h
  case h_1 => contradiction
  case h_2 c t ht =>
    split at h
    case isTrue hc =>
      subst hc
      cases h
      exact .inl ht
    case isFalse =>
    split at h
    case isTrue hf => exact .inr (.inl ⟨hf, by rwa [membersFrom, ← name_skipBlanks, ht]⟩)
    case isFalse hf =>
    split at h
    case isFalse   => contradiction
    case isTrue hc =>
      exact .inr (.inr ⟨t, Bool.eq_false_iff.mpr hf, ht.trans (congrArg (· :: t) hc), h⟩)

structure Sound (fuel₀ : Nat) : Prop where
  value {s₀ r : List Char} :
    valueFrom fuel₀ s₀ = .ok r → ∃ b v, Blanks b ∧ Spelled .value v ∧ s₀ = b ++ (v ++ r)
  list {s₀ r : List Char} :
    listFrom fuel₀ true s₀ = .ok r → ∃ v, (Blanks v ∨ Spelled .items v) ∧ s₀ = v ++ ']' :: r
  items {s₀ r : List Char} :
    listFrom fuel₀ false s₀ = .ok r → ∃ b, Blanks b ∧
      (s₀ = b ++ ']' :: r ∨ ∃ v, Spelled .items v ∧ s₀ = b ++ ',' :: (v ++ ']' :: r))
  object {s₀ r : List Char} :
    objectFrom fuel₀ true s₀ = .ok r → ∃ v, (Blanks v ∨ Spelled .members v) ∧ s₀ = v ++ '}' :: r
  members {s₀ r : List Char} :
    objectFrom fuel₀ false s₀ = .ok r → ∃ b, Blanks b ∧
      (s₀ = b ++ '}' :: r ∨ ∃ v, Spelled .members v ∧ s₀ = b ++ ',' :: (v ++ '}' :: r))

theorem Sound.itemsFrom (hs : Sound fuel) (h : itemsFrom fuel s = .ok rest) :
    ∃ v, Spelled .items v ∧ s = v ++ ']' :: rest := by
  obtain ⟨t, hv, hl⟩ := bind_eq_ok h
  obtain ⟨a, v, ha, hv', rfl⟩ := hs.value hv
  obtain ⟨b, hb, rfl | ⟨w, hw, rfl⟩⟩ := hs.items hl
  case inl => exact ⟨a ++ v ++ b, .item ha hv' hb, by simp⟩
  case inr => exact ⟨a ++ v ++ b ++ ',' :: w, .items ha hv' hb hw, by simp⟩

theorem Sound.membersFrom (hs : Sound fuel) (h : membersFrom fuel s = .ok rest) :
    ∃ v, Spelled .members v ∧ s = v ++ '}' :: rest := by
  obtain ⟨r, hn, h⟩ := bind_eq_ok h
  obtain ⟨t, hv, hl⟩ := bind_eq_ok h
  obtain ⟨a, n, b, ha, hn', hb, rfl⟩ := unread_of_name hn
  obtain ⟨c, v, hc, hv', rfl⟩ := hs.value hv
  obtain ⟨d, hd, rfl | ⟨w, hw, rfl⟩⟩ := hs.members hl
  case inl =>
    exact ⟨a ++ '\"' :: n ++ '\"' :: b ++ ':' :: c ++ v ++ d, .member ha hn' hb hc hv' hd, by simp⟩
  case inr =>
    exact ⟨a ++ '\"' :: n ++ '\"' :: b ++ ':' :: c ++ v ++ d ++ ',' :: w,
      .members ha hn' hb hc hv' hd hw, by simp⟩

theorem sound (fuel : Nat) : Sound fuel := by
  induction fuel with
  | zero => constructor <;> intro _ _ h <;> contradiction
  | succ fuel hi =>
    refine ⟨fun {s r} h => ?_, fun {s r} h => ?_, fun {s r} h => ?_, fun {s r} h => ?_,
      fun {s r} h => ?_⟩
    all_goals obtain ⟨b, hb, hs⟩ := exists_blanks (s := s)
    case refine_1 =>
      rw [valueFrom] at h
      split at h
      case h_1 t ht =>
        obtain ⟨v, hv, rfl⟩ := hi.list h
        refine ⟨b, '[' :: v ++ [']'], hb, ?_, by rw [hs, ht]; simp⟩
        rcases hv with hv | hv
        · exact .nothing (by simp) hv
        · exact .list hv
      case h_2 t ht =>
        obtain ⟨v, hv, rfl⟩ := hi.object h
        refine ⟨b, '{' :: v ++ ['}'], hb, ?_, by rw [hs, ht]; simp⟩
        rcases hv with hv | hv
        · exact .nothing (by simp) hv
        · exact .object hv
      case h_3 =>
        obtain ⟨v, hv, ht⟩ := spelled_of_scalar h
        exact ⟨b, v, hb, hv, ht ▸ hs⟩
    case refine_2 =>
      rcases listFrom_eq_ok h with ht | ⟨_, h⟩ | ⟨_, hf, _⟩
      · exact ⟨b, .inl hb, ht ▸ hs⟩
      · obtain ⟨v, hv, hs⟩ := hi.itemsFrom h
        exact ⟨v, .inr hv, hs⟩
      · contradiction
    case refine_3 =>
      rcases listFrom_eq_ok h with ht | ⟨hf, _⟩ | ⟨t, _, ht, h⟩
      · exact ⟨b, hb, .inl (ht ▸ hs)⟩
      · contradiction
      · obtain ⟨v, hv, rfl⟩ := hi.itemsFrom h
        exact ⟨b, hb, .inr ⟨v, hv, ht ▸ hs⟩⟩
    case refine_4 =>
      rcases objectFrom_eq_ok h with ht | ⟨_, h⟩ | ⟨_, hf, _⟩
      · exact ⟨b, .inl hb, ht ▸ hs⟩
      · obtain ⟨v, hv, hs⟩ := hi.membersFrom h
        exact ⟨v, .inr hv, hs⟩
      · contradiction
    case refine_5 =>
      rcases objectFrom_eq_ok h with ht | ⟨hf, _⟩ | ⟨t, _, ht, h⟩
      · exact ⟨b, hb, .inl (ht ▸ hs)⟩
      · contradiction
      · obtain ⟨v, hv, rfl⟩ := hi.membersFrom h
        exact ⟨b, hb, .inr ⟨v, hv, ht ▸ hs⟩⟩

theorem spelled_of_value (h : value s = .ok rest) :
    ∃ b v, Blanks b ∧ Spelled .value v ∧ s = b ++ (v ++ rest) :=
  (sound _).value h

end Skip

theorem blanks_inj {d : Char} (ha : Blanks a) (hb : Blanks b) (hc : isBlank c = false)
    (hd : isBlank d = false) (h : a ++ c :: s = b ++ d :: t) : a = b ∧ c :: s = d :: t := by
  have hs : c :: s = d :: t := by
    rw [← skipBlanks_cons hc, ← skipBlanks_append ha, h, skipBlanks_append hb, skipBlanks_cons hd]
  exact ⟨List.append_cancel_right (hs ▸ h), hs⟩

theorem unread_inj (hs : Unread v) (ht : Unread w) (h : v ++ '\"' :: s = w ++ '\"' :: t) :
    v = w ∧ s = t := by
  have he := (Quoted.skip_append hs).symm.trans (h ▸ Quoted.skip_append ht)
  obtain rfl := Except.ok.inj he
  exact ⟨List.append_cancel_right h, rfl⟩

-- The grammar tells where a value ends.
theorem spelled_inj (ha : Blanks a) (hb : Blanks b) (hv : Spelled .value v) (hw : Spelled .value w)
    (hs : Ends s) (ht : Ends t) (h : a ++ (v ++ s) = b ++ (w ++ t)) : a = b ∧ v = w ∧ s = t := by
  have he := (Skip.value_append ha hv hs).symm.trans (h ▸ Skip.value_append hb hw ht)
  obtain rfl := Except.ok.inj he
  obtain ⟨c, v, rfl, hc, _⟩ := Skip.head_of_spelled hv
  obtain ⟨d, w, rfl, hd, _⟩ := Skip.head_of_spelled hw
  obtain ⟨rfl, hvw⟩ := blanks_inj ha hb hc hd h
  exact ⟨rfl, List.append_cancel_right hvw, rfl⟩

end WriteBehind.Json
