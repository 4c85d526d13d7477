import Mathlib.Data.List.TakeDrop
import WriteBehind.Json.Value.Grammar
import WriteBehind.Json.Value.Reader
import WriteBehind.Proofs.Json.Skip

namespace WriteBehind.Json.Value

open Grammar (Blanks Denotes Digits FractionOf Inside NumberOf Part PowerOf Whole)
open Number (Ends)

variable {a b ds f fs n p s sg t rest : List Char} {c : Char} {k : Int} {neg first : Bool} {fuel : Nat}
variable {v w : Value} {vs : List Value} {ms : List (List Char × Value)}

theorem signed_eq : signed (decide (sg = ['-'])) ds = Grammar.signed sg ds := by
  simp only [signed, Grammar.signed, decide_eq_true_eq]

theorem signed_of_powerOf (h : PowerOf p k) :
    signed (Number.sign (p.drop 1)).1 (Number.sign (p.drop 1)).2 = k := by
  cases h with
  | none => rfl
  | @exponent _ sg ds _ hs hd =>
    have hg : Number.sign (sg ++ ds ++ []) = _ := Number.sign_append hs hd
    rw [List.append_nil, List.append_nil] at hg
    rw [List.cons_append, List.drop_one, List.tail_cons, hg]
    exact signed_eq

theorem takeWhile_whole (hd : Digits ds) (hf : FractionOf f fs) (hp : PowerOf p k) :
    (ds ++ (f ++ p)).takeWhile Char.isDigit = ds := by
  have hr := Number.not_isDigit_of_fraction hf.fraction hp.power ends_nil
  rw [List.append_nil] at hr
  rw [List.takeWhile_append_of_pos hd.right]
  cases h : f ++ p with
  | nil      => simp
  | cons c s => simp [hr c (h ▸ rfl)]

theorem fraction_append (hf : FractionOf f fs) (hp : PowerOf p k) : fraction (f ++ p) = (fs, p) := by
  have hr := Number.not_isDigit_of_power hp.power ends_nil
  rw [List.append_nil] at hr
  cases hf with
  | none =>
    rw [List.nil_append, fraction]
    rintro t rfl
    exact (hr '.' rfl).right rfl
  | digits hd =>
    rw [List.cons_append, fraction, List.span_eq_takeWhile_dropWhile,
      List.takeWhile_append_of_pos hd.right, List.dropWhile_append_of_pos hd.right]
    cases p with
    | nil      => simp
    | cons c p => simp [(hr c rfl).left]

theorem ofNumeral_append (hd : Digits ds) (hf : FractionOf f fs) (hp : PowerOf p k) :
    ofNumeral neg (ds ++ (f ++ p)) = if fs = [] ∧ p = [] then integer (signed neg ds)
      else decimal (signed neg (ds ++ fs)) (k - fs.length) := by
  rw [ofNumeral, takeWhile_whole hd hf hp, List.drop_left, fraction_append hf hp,
    ← signed_of_powerOf hp]

theorem number_append (hw : Whole ds) (hf : FractionOf f fs) (hp : PowerOf p k) (he : Ends rest) :
    number neg (ds ++ (f ++ (p ++ rest))) = .ok (ofNumeral neg (ds ++ (f ++ p)), rest) := by
  have hs : ds ++ (f ++ (p ++ rest)) = ds ++ (f ++ p) ++ rest := by simp only [List.append_assoc]
  rw [number, Number.skip_append hw hf.fraction hp.power he]
  simp only [bind, Except.bind, hs, List.length_append, Nat.add_sub_cancel]
  rw [← List.length_append, ← List.length_append, List.take_left]
  rfl

theorem scalar_sign (hs : sg ∈ [[], ['-']]) (hd : Digits ds) :
    scalar (sg ++ (ds ++ s)) = number (decide (sg = ['-'])) (ds ++ s) := by
  have ⟨hn, hd⟩ := hd
  simp only [List.mem_cons, List.not_mem_nil, or_false] at hs
  rcases hs with rfl | rfl
  case inr => rfl
  case inl =>
    cases ds with
    | nil       => contradiction
    | cons c ds =>
      have hc : c.isDigit = true := hd c List.mem_cons_self
      simp [scalar, ne_of_isDigit hc, hc]

theorem scalar_numeral (hs : sg ∈ [[], ['-']]) (hw : Whole ds) (hf : FractionOf f fs)
    (hp : PowerOf p k) (he : Ends rest) : scalar (sg ++ (ds ++ (f ++ (p ++ rest)))) =
      .ok (if fs = [] ∧ p = [] then integer (Grammar.signed sg ds)
        else decimal (Grammar.signed sg (ds ++ fs)) (k - fs.length), rest) := by
  rw [scalar_sign hs hw.left, number_append hw hf hp he, ofNumeral_append hw.left hf hp, signed_eq,
    signed_eq]

theorem scalar_null : scalar ("null".toList ++ rest) = .ok (null, rest) :=
  congrArg (Except.map (null, ·)) (word_append "ull".toList rest)

theorem scalar_boolean {b : Bool} :
    scalar ((if b then "true" else "false").toList ++ rest) = .ok (boolean b, rest) := by
  cases b with
  | false => exact congrArg (Except.map (boolean false, ·)) (word_append "alse".toList rest)
  | true  => exact congrArg (Except.map (boolean true, ·)) (word_append "rue".toList rest)

theorem scalar_number (h : NumberOf s v) (he : Ends rest) : scalar (s ++ rest) = .ok (v, rest) := by
  cases h with
  | integer hs hw =>
    rw [List.append_assoc]
    exact scalar_numeral hs hw .none .none he
  | decimal hs hw hf hp hn =>
    simp only [List.append_assoc]
    rw [scalar_numeral hs hw hf hp he, if_neg (not_and_or.mpr hn)]

theorem scalar_text (h : Inside s t) : scalar ('\"' :: s ++ ['\"'] ++ rest) = .ok (text t, rest) := by
  have hb : Quoted.body (s ++ '\"' :: rest) = .ok (t, rest) := Quoted.body_append h
  simp [scalar, hb]

theorem readFrom_of_scalar (h : Skip.scalar s = .ok rest) : readFrom (fuel + 1) s = scalar s := by
  obtain ⟨c, t, rfl, hb, hl, ho, _⟩ := Skip.head_of_scalar h
  rw [readFrom, skipBlanks_cons hb]
  split
  case h_1 heq => exact absurd (List.cons.inj heq).left hl
  case h_2 heq => exact absurd (List.cons.inj heq).left ho
  case h_3     => rfl

theorem name_append (ha : Blanks a) (hn : Inside n t) (hb : Blanks b) :
    name (a ++ '\"' :: (n ++ '\"' :: (b ++ ':' :: rest))) = .ok (t, rest) := by
  have hq : Quoted.body (n ++ '\"' :: (b ++ ':' :: rest)) = .ok (t, b ++ ':' :: rest) :=
    Quoted.body_append hn
  rw [name, skipBlanks_append ha, skipBlanks_cons rfl]
  simp only [if_true, hq, bind, Except.bind, skipBlanks_append hb]
  rw [skipBlanks_cons rfl]
  rfl

theorem name_skipBlanks : name (skipBlanks s) = name s := by
  rw [name, name, skipBlanks_skipBlanks]

theorem readFrom_skipBlanks : readFrom (fuel + 1) (skipBlanks s) = readFrom (fuel + 1) s := by
  rw [readFrom, readFrom, skipBlanks_skipBlanks]

theorem readFrom_list (h : itemsFrom fuel true s = .ok (vs, rest)) :
    readFrom (fuel + 1) ('[' :: s) = .ok (list vs, rest) := by
  rw [readFrom, skipBlanks_cons rfl]
  simp only [h]
  rfl

theorem readFrom_object (h : membersFrom fuel true s = .ok (ms, rest)) :
    readFrom (fuel + 1) ('{' :: s) = .ok (object ms, rest) := by
  rw [readFrom, skipBlanks_cons rfl]
  simp only [h]
  rfl

theorem itemsFrom_end (hb : Blanks b) :
    itemsFrom (fuel + 1) first (b ++ ']' :: rest) = .ok ([], rest) := by
  rw [itemsFrom, skipBlanks_append hb, skipBlanks_cons rfl]
  rfl

theorem membersFrom_end (hb : Blanks b) :
    membersFrom (fuel + 1) first (b ++ '}' :: rest) = .ok ([], rest) := by
  rw [membersFrom, skipBlanks_append hb, skipBlanks_cons rfl]
  rfl

def someItems (fuel : Nat) : Reader (List Value) := fun s => do
  let (v, s) ← readFrom fuel s
  let (vs, s) ← itemsFrom fuel false s
  return (v :: vs, s)

def someMembers (fuel : Nat) : Reader (List (List Char × Value)) := fun s => do
  let (n, s) ← name s
  let (v, s) ← readFrom fuel s
  let (ms, s) ← membersFrom fuel false s
  return ((n, v) :: ms, s)

theorem itemsFrom_first (h : skipBlanks s = c :: t) (hc : c ≠ ']') :
    itemsFrom (fuel + 2) true s = someItems (fuel + 1) s := by
  rw [itemsFrom, h, someItems, ← readFrom_skipBlanks, h]
  exact if_neg hc

theorem membersFrom_first (h : skipBlanks s = c :: t) (hc : c ≠ '}') :
    membersFrom (fuel + 1) true s = someMembers fuel s := by
  rw [membersFrom, h, someMembers, ← name_skipBlanks, h]
  exact if_neg hc

theorem itemsFrom_later (hb : Blanks b) :
    itemsFrom (fuel + 1) false (b ++ ',' :: s) = someItems fuel s := by
  rw [itemsFrom, skipBlanks_append hb, skipBlanks_cons rfl]
  rfl

theorem membersFrom_later (hb : Blanks b) :
    membersFrom (fuel + 1) false (b ++ ',' :: s) = someMembers fuel s := by
  rw [membersFrom, skipBlanks_append hb, skipBlanks_cons rfl]
  rfl

-- Whether the part is read where it stands, given two steps for each of its characters.
def IsRead : (p : Part) → List Char → p.Meaning → Prop
  | .value, s, v => ∀ {fuel rest},
    2 * s.length ≤ fuel → Ends rest → readFrom fuel (s ++ rest) = .ok (v, rest)
  | .items, s, vs => ∀ {fuel rest},
    2 * s.length ≤ fuel → someItems fuel (s ++ ']' :: rest) = .ok (vs, rest)
  | .members, s, ms => ∀ {fuel rest},
    2 * s.length ≤ fuel → someMembers fuel (s ++ '}' :: rest) = .ok (ms, rest)

theorem isRead_of_scalar (hs : ∀ {rest}, Ends rest → Skip.scalar (s ++ rest) = .ok rest)
    (hr : ∀ {rest}, Ends rest → scalar (s ++ rest) = .ok (v, rest)) : IsRead .value s v := by
  intro fuel rest hf he
  cases s with
  | nil      => cases hs ends_nil
  | cons c s =>
    rw [List.length_cons] at hf
    obtain ⟨fuel, rfl⟩ : ∃ k, fuel = k + 1 := ⟨fuel - 1, by omega⟩
    exact (readFrom_of_scalar (hs he)).trans (hr he)

theorem someItems_append (ha : Blanks a) (hv : IsRead .value s v) (hf : 2 * s.length ≤ fuel + 1)
    (he : Ends rest) : someItems (fuel + 1) (a ++ s ++ rest)
      = (itemsFrom (fuel + 1) false rest).map (·.map (v :: ·) id) := by
  rw [someItems, ← readFrom_skipBlanks, List.append_assoc, skipBlanks_append ha,
    readFrom_skipBlanks, hv hf he]
  simp only [bind, Except.bind]
  cases itemsFrom (fuel + 1) false rest <;> rfl

theorem someMembers_append {d : List Char} (ha : Blanks a) (hn : Inside n t) (hb : Blanks b)
    (hd : Blanks d) (hv : IsRead .value s v) (hf : 2 * s.length ≤ fuel + 1) (he : Ends rest) :
    someMembers (fuel + 1) (a ++ '\"' :: n ++ '\"' :: b ++ ':' :: d ++ s ++ rest)
      = (membersFrom (fuel + 1) false rest).map (·.map ((t, v) :: ·) id) := by
  simp only [List.append_assoc, List.cons_append]
  simp only [someMembers, name_append ha hn hb, bind, Except.bind]
  rw [← readFrom_skipBlanks, skipBlanks_append hd, readFrom_skipBlanks, hv hf he]
  simp only
  cases membersFrom (fuel + 1) false rest <;> rfl

-- By induction on the grammar: each part is read if its own parts are.
theorem isRead_of_denotes {p : Part} {m : p.Meaning} (h : Denotes p s m) : IsRead p s m := by
  induction h with
  | null =>
    exact isRead_of_scalar (fun _ => Skip.scalar_word (w := "null") (by simp)) fun _ => scalar_null
  | @boolean b =>
    exact isRead_of_scalar (fun _ => Skip.scalar_word (by cases b <;> simp)) fun _ => scalar_boolean
  | number hn => exact isRead_of_scalar (Skip.scalar_numeral hn.numeral) (scalar_number hn)
  | text ht =>
    exact isRead_of_scalar (fun _ => Skip.scalar_text ht.unread) fun _ => scalar_text ht
  | noItems hb =>
    intro fuel rest hf _
    simp only [List.length_append, List.length_cons] at hf
    obtain ⟨fuel, rfl⟩ : ∃ k, fuel = k + 2 := ⟨fuel - 2, by omega⟩
    rw [List.append_assoc, List.cons_append]
    exact readFrom_list (itemsFrom_end hb)
  | noMembers hb =>
    intro fuel rest hf _
    simp only [List.length_append, List.length_cons] at hf
    obtain ⟨fuel, rfl⟩ : ∃ k, fuel = k + 2 := ⟨fuel - 2, by omega⟩
    rw [List.append_assoc, List.cons_append]
    exact readFrom_object (membersFrom_end hb)
  | list hs hi =>
    intro fuel rest hf _
    simp only [List.length_append, List.length_cons, List.length_nil] at hf
    obtain ⟨fuel, rfl⟩ : ∃ k, fuel = k + 3 := ⟨fuel - 3, by omega⟩
    obtain ⟨c, t, ht, hc⟩ := Skip.skipBlanks_items (']' :: rest) hs.spelled
    rw [List.append_assoc, List.cons_append]
    exact readFrom_list ((itemsFrom_first ht hc).trans (hi (by omega)))
  | object hs hi =>
    intro fuel rest hf _
    simp only [List.length_append, List.length_cons, List.length_nil] at hf
    obtain ⟨fuel, rfl⟩ : ∃ k, fuel = k + 2 := ⟨fuel - 2, by omega⟩
    obtain ⟨t, ht⟩ := Skip.skipBlanks_members ('}' :: rest) hs.spelled
    rw [List.append_assoc, List.cons_append]
    exact readFrom_object ((membersFrom_first ht (by decide)).trans (hi (by omega)))
  | @item a s v b ha hv hb hi =>
    intro fuel rest hf
    obtain ⟨c, t, rfl, _⟩ := Skip.head_of_spelled hv.spelled
    simp only [List.length_append, List.length_cons] at hf
    obtain ⟨fuel, rfl⟩ : ∃ k, fuel = k + 1 := ⟨fuel - 1, by omega⟩
    rw [List.append_assoc _ b, someItems_append ha hi (by rw [List.length_cons]; omega)
      (ends_append hb (ends_cons (by simp))), itemsFrom_end hb]
    rfl
  | @items a s v b t vs ha _ hb _ hv hi =>
    intro fuel rest hf
    simp only [List.length_append, List.length_cons] at hf
    obtain ⟨fuel, rfl⟩ : ∃ k, fuel = k + 2 := ⟨fuel - 2, by omega⟩
    rw [List.append_assoc _ _ (']' :: rest), List.append_assoc _ b, List.cons_append,
      someItems_append ha hv (by omega) (ends_append hb (ends_cons (by simp))), itemsFrom_later hb,
      hi (by omega)]
    rfl
  | @member a n m b c s v d ha hn hb hc _ hd hi =>
    intro fuel rest hf
    simp only [List.length_append, List.length_cons] at hf
    obtain ⟨fuel, rfl⟩ : ∃ k, fuel = k + 1 := ⟨fuel - 1, by omega⟩
    rw [List.append_assoc _ d, someMembers_append ha hn hb hc hi (by omega)
      (ends_append hd (ends_cons (by simp))), membersFrom_end hd]
    rfl
  | @members a n m b c s v d t ms ha hn hb hc _ hd _ hv hi =>
    intro fuel rest hf
    simp only [List.length_append, List.length_cons] at hf
    obtain ⟨fuel, rfl⟩ : ∃ k, fuel = k + 2 := ⟨fuel - 2, by omega⟩
    rw [List.append_assoc _ _ ('}' :: rest), List.append_assoc _ d, List.cons_append,
      someMembers_append ha hn hb hc hv (by omega) (ends_append hd (ends_cons (by simp))),
      membersFrom_later hd, hi (by omega)]
    rfl

theorem read_append (ha : Blanks a) (h : Denotes .value s v) (hb : Blanks b) :
    read (a ++ (s ++ b)) = .ok v := by
  have hl : 2 * s.length ≤ 2 * (a ++ (s ++ b)).length + 2 := by
    simp only [List.length_append]
    omega
  have he : Ends b := by simpa using ends_append hb ends_nil
  have hk : skipBlanks b = [] := by simpa using skipBlanks_append (s := []) hb
  rw [read, ← readFrom_skipBlanks, skipBlanks_append ha, readFrom_skipBlanks,
    isRead_of_denotes h hl he]
  simp only [bind, Except.bind, hk]
  rfl

theorem read_of_denotes (h : Denotes .value s v) : read s = .ok v := by
  simpa using read_append blanks_nil h blanks_nil

theorem denotes_unique (h : Denotes .value s v) (h' : Denotes .value s w) : v = w :=
  Except.ok.inj ((read_of_denotes h).symm.trans (read_of_denotes h'))

end WriteBehind.Json.Value
