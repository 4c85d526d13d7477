import WriteBehind.Proofs.Json.Skip
import WriteBehind.Record.Grammar

namespace WriteBehind.Record

open Json (blanks_nil ends_append ends_cons not_isBlank_of_isDigit skipBlanks_append skipBlanks_cons
  skipBlanks)
open Json.Grammar (Blanks Inside)
open Json.Number (Ends)

variable {r : Record} {d e : Draft} {f : Field} {m : Member} {ms : List Member}
variable {b n s t rest : List Char} {c : Char} {first : Bool} {fuel : Nat}

theorem natural_append {n : UInt64} (hb : Blanks b) (hs : IsNatural s n) (he : Ends rest) :
    natural (b ++ (s ++ rest)) = .ok (n, rest) := by
  have ⟨hw, hv⟩ := hs
  have hu := Json.Number.unsigned_append hw (hv ▸ n.toNat_lt) he
  have ⟨⟨hn, hd⟩, _⟩ := hw
  cases s with
  | nil => contradiction
  | cons c s =>
    have hc : c.isDigit = true := hd c List.mem_cons_self
    have hm : c ≠ '-' := by
      rintro rfl
      contradiction
    rw [natural, skipBlanks_append hb, List.cons_append, skipBlanks_cons (not_isBlank_of_isDigit hc)]
    rw [List.cons_append] at hu
    simp only [hm, hc, decide_false, Bool.false_or, if_true, if_false, hu, bind, Except.bind, hv]
    exact congrArg (fun n => Except.ok (n, rest)) UInt64.ofNat_toNat

theorem timestamp_append {t : Time.Instant} (hb : Blanks b) (hs : IsTimestamp s t) :
    timestamp (b ++ (s ++ rest)) = .ok (t, rest) := by
  obtain ⟨u, v, rfl, hi, ht⟩ := hs
  have hu : Json.Quoted.body (u ++ '\"' :: rest) = .ok (v, rest) := Json.Quoted.body_append hi
  have hs : '\"' :: u ++ ['\"'] ++ rest = '\"' :: (u ++ '\"' :: rest) := by simp
  rw [timestamp, skipBlanks_append hb, hs, skipBlanks_cons rfl]
  simp only [if_true, hu, bind, Except.bind, ht]
  rfl

def Draft.put (d : Draft) (r : Record) : Field → Draft
  | .id     => { d with id := some r.id }
  | .user   => { d with user := some r.user }
  | .kind   => { d with kind := some r.kind }
  | .start  => { d with start := some r.start }
  | .finish => { d with finish := some r.finish }
  | .level  => { d with level := some r.level }

theorem Draft.read_append (hb : Blanks b) (hs : r.HasField s f) (he : Ends rest) :
    d.read f (b ++ (s ++ rest)) = .ok (d.put r f, rest) := by
  cases f with
  | id     => simp only [read, natural_append hb hs he, Except.map, put]
  | user   => simp only [read, natural_append hb hs he, Except.map, put]
  | kind   => simp only [read, natural_append hb hs he, Except.map, put]
  | start  => simp only [read, timestamp_append hb hs, Except.map, put]
  | finish => simp only [read, timestamp_append hb hs, Except.map, put]
  | level  => simp only [read, natural_append hb hs he, Except.map, put]

namespace Member

def tail (m : Member) : List Char :=
  m.afterName ++ ':' :: (m.beforeValue ++ (m.value ++ m.afterValue))

theorem text_eq : m.text = m.beforeName ++ '\"' :: (m.name ++ '\"' :: m.tail) := by
  simp only [text, tail, List.append_assoc, List.cons_append]

end Member

theorem colon_append (hb : Blanks b) : colon (b ++ ':' :: s) = .ok s := by
  rw [colon, skipBlanks_append hb, skipBlanks_cons rfl]
  rfl

theorem nextName_name (hb : Blanks b) (hn : Inside n t) :
    nextName.name (skipBlanks (b ++ '\"' :: (n ++ '\"' :: s))) = .ok (some (t, s)) := by
  rw [skipBlanks_append hb, skipBlanks_cons rfl, nextName.name, if_pos rfl, Json.Quoted.body_append hn]
  rfl

theorem nextName_first (rest : List Char) (hm : m.IsSpaced) (hn : Inside m.name t) :
    nextName true (m.text ++ rest) = .ok (some (t, m.tail ++ rest)) := by
  have h := nextName_name (s := m.tail ++ rest) hm.beforeName hn
  rw [Member.text_eq, List.append_assoc, List.cons_append, List.append_assoc, List.cons_append,
    nextName]
  rw [skipBlanks_append hm.beforeName, skipBlanks_cons rfl] at h ⊢
  exact h

theorem nextName_later (rest : List Char) (hb : Blanks b) (hm : m.IsSpaced) (hn : Inside m.name t) :
    nextName false (b ++ ',' :: (m.text ++ rest)) = .ok (some (t, m.tail ++ rest)) := by
  have h := nextName_name (s := m.tail ++ rest) hm.beforeName hn
  rw [Member.text_eq, List.append_assoc, List.cons_append, List.append_assoc, List.cons_append,
    nextName, skipBlanks_append hb, skipBlanks_cons rfl]
  exact h

theorem nextName_none (hb : Blanks b) : nextName first (b ++ '}' :: rest) = .ok none := by
  rw [nextName, skipBlanks_append hb, skipBlanks_cons rfl]
  rfl

theorem afterClosing_append (hb : Blanks b) : afterClosing '}' (b ++ '}' :: rest) = rest := by
  rw [afterClosing, skipBlanks_append hb, skipBlanks_cons rfl]
  rfl

-- Whether reading the member makes the draft `e` of the draft `d`, wherever the member stands.
def Member.Turns (m : Member) (d e : Draft) : Prop :=
  ∃ t, Inside m.name t ∧ ∀ {s rest first fuel}, Ends (m.afterValue ++ rest) →
    nextName first s = .ok (some (t, m.tail ++ rest)) →
    membersFrom (fuel + 1) first d s = membersFrom fuel false e (m.afterValue ++ rest)

theorem turns_own (hm : m.IsSpaced) (hn : m.Names f) (hv : r.HasField m.value f)
    (hd : d.has f = false) : m.Turns d (d.put r f) := by
  refine ⟨_, hn, fun {s rest first fuel} he hs => ?_⟩
  have ht : m.tail ++ rest =
      m.afterName ++ ':' :: (m.beforeValue ++ (m.value ++ (m.afterValue ++ rest))) := by
    simp only [Member.tail, List.append_assoc, List.cons_append]
  rw [ht] at hs
  simp only [membersFrom, hs, Field.ofName?_name, hd, colon_append hm.afterName,
    Draft.read_append hm.beforeValue hv he, bind, Except.bind]
  rfl

inductive TurnAll : List Member → Draft → Draft → Prop
  | nil (d₀ : Draft) : TurnAll [] d₀ d₀
  | cons {m₀ : Member} {l : List Member} {d₁ d₂ d₃ : Draft} :
    m₀.IsSpaced → m₀.Turns d₁ d₂ → TurnAll l d₂ d₃ → TurnAll (m₀ :: l) d₁ d₃

-- What stands behind a member ends the number before it.
theorem ends_members : Ends (ms.flatMap (fun m => ',' :: m.text) ++ '}' :: rest) := by
  cases ms with
  | nil       => exact ends_cons (by simp)
  | cons m ms => exact ends_cons (by simp)

theorem membersFrom_later (hb : Blanks b) (ht : TurnAll ms d e) (hf : ms.length < fuel) :
    ∃ a, Blanks a ∧
      membersFrom fuel false d (b ++ (ms.flatMap (fun m => ',' :: m.text) ++ '}' :: rest))
        = .ok (e, a ++ '}' :: rest) := by
  induction ht generalizing b fuel with
  | nil =>
    obtain ⟨fuel, rfl⟩ := Nat.exists_eq_add_of_lt hf
    refine ⟨b, hb, ?_⟩
    simp only [List.flatMap_nil, List.nil_append, membersFrom, nextName_none hb,
      bind, Except.bind]
    rfl
  | @cons m ms d _ _ hm hd _ hi =>
    obtain ⟨fuel, rfl⟩ := Nat.exists_eq_add_of_lt hf
    obtain ⟨t, hn, hd⟩ := hd
    have hs := nextName_later (ms.flatMap (fun m => ',' :: m.text) ++ '}' :: rest) hb hm hn
    rw [List.flatMap_cons, List.cons_append, List.cons_append, List.append_assoc,
      hd (ends_append hm.afterValue ends_members) hs]
    exact hi hm.afterValue (by rw [List.length_cons]; omega)

theorem intercalate_cons {l : List (List Char)} :
    [','].intercalate (s :: l) = s ++ l.flatMap fun t => ',' :: t := by
  induction l generalizing s with
  | nil => simp
  | cons t l hi => simp [List.intercalate_cons_cons, hi]

theorem membersFrom_first (rest : List Char) (ht : TurnAll ms d e) (hf : ms.length < fuel) :
    ∃ a, Blanks a ∧ membersFrom fuel true d ([','].intercalate (ms.map Member.text) ++ '}' :: rest)
      = .ok (e, a ++ '}' :: rest) := by
  obtain ⟨fuel, rfl⟩ := Nat.exists_eq_add_of_lt hf
  cases ht with
  | nil =>
    refine ⟨[], blanks_nil, ?_⟩
    simp only [List.map_nil, List.intercalate_nil, membersFrom, nextName_none blanks_nil, bind, Except.bind]
    rfl
  | @cons m ms _ d _ hm hd ht =>
    obtain ⟨t, hi, hd⟩ := hd
    have hs := nextName_first (ms.flatMap (fun m => ',' :: m.text) ++ '}' :: rest) hm hi
    rw [List.map_cons, intercalate_cons, List.flatMap_map, List.append_assoc,
      hd (ends_append hm.afterValue ends_members) hs]
    exact membersFrom_later hm.afterValue ht (by rw [List.length_cons]; omega)

theorem length_le_flatMap {l : List (List Char)} :
    l.length ≤ (l.flatMap fun t => ',' :: t).length := by
  induction l with
  | nil => exact Nat.le_refl 0
  | cons t l hi =>
    rw [List.flatMap_cons, List.length_append, List.length_cons, List.length_cons]
    omega

theorem length_le_intercalate :
    ms.length ≤ ([','].intercalate (ms.map Member.text)).length := by
  cases ms with
  | nil => exact Nat.zero_le _
  | cons m ms =>
    have hl : (ms.map Member.text).length ≤ _ := length_le_flatMap
    have hm : 0 < m.text.length := by
      simp only [Member.text, List.length_append, List.length_cons]
      omega
    rw [List.length_map] at hl
    rw [List.map_cons, intercalate_cons, List.length_append, List.length_cons]
    omega

theorem read_objectText (ht : TurnAll ms {} d) (hr : d.record = .ok r) :
    read (objectText ms) = .ok r := by
  have hs : objectText ms = '{' :: ([','].intercalate (ms.map Member.text) ++ '}' :: []) := rfl
  have hl : ms.length < ([','].intercalate (ms.map Member.text) ++ '}' :: []).length + 1 := by
    rw [List.length_append]
    have hl : ms.length ≤ _ := length_le_intercalate
    omega
  obtain ⟨a, ha, hm⟩ := membersFrom_first [] ht hl
  have ho : object ([','].intercalate (ms.map Member.text) ++ '}' :: []) = .ok (r, []) := by
    simp only [object, hm, afterClosing_append ha, hr, bind, Except.bind]
    rfl
  rw [hs, read, skipBlanks_cons rfl]
  simp only [ho, bind, Except.bind]
  rfl

end WriteBehind.Record
