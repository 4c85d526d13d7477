import WriteBehind.Proofs.Record.Members

namespace WriteBehind.Record

open Json (blanks_inj blanks_nil blanks_of_skipBlanks ends_append ends_cons exists_blanks isBlank
  skipBlanks skipBlanks_append skipBlanks_cons spelled_inj unread_inj)
open Json.Grammar (Blanks Inside Spelled)
open Json.Number (Ends)

variable {r : Record} {d d' e : Draft} {f : Field} {m m' : Member} {ms ms' as : List Member}
variable {n s t rest : List Char} {first : Bool} {fuel : Nat}

theorem IsNatural.spelled {n : UInt64} (h : IsNatural s n) : Spelled .value s :=
  .number ⟨[], s, [], [], by simp, h.left, .inl rfl, .inl rfl, by simp⟩

theorem IsTimestamp.spelled {t : Time.Instant} (h : IsTimestamp s t) : Spelled .value s := by
  obtain ⟨u, v, rfl, hu, _⟩ := h
  exact .text hu.unread

theorem HasField.isNatural_or_isTimestamp (h : r.HasField s f) :
    (∃ n, IsNatural s n) ∨ ∃ t, IsTimestamp s t := by
  cases f with
  | id     => exact .inl ⟨r.id, h⟩
  | user   => exact .inl ⟨r.user, h⟩
  | kind   => exact .inl ⟨r.kind, h⟩
  | start  => exact .inr ⟨r.start, h⟩
  | finish => exact .inr ⟨r.finish, h⟩
  | level  => exact .inl ⟨r.level, h⟩

theorem HasField.spelled (h : r.HasField s f) : Spelled .value s := by
  rcases h.isNatural_or_isTimestamp with ⟨_, hn⟩ | ⟨_, ht⟩
  · exact hn.spelled
  · exact ht.spelled

theorem isNatural_of_natural {n : UInt64} (h : natural s = .ok (n, rest)) :
    ∃ b v, Blanks b ∧ IsNatural v n ∧ s = b ++ (v ++ rest) := by
  obtain ⟨b, hb, hs⟩ := exists_blanks (s := s)
  unfold natural at h
  split at h
  case h_1 => contradiction
  case h_2 c t ht =>
    split at h
    case isFalse => contradiction
    case isTrue  =>
      obtain ⟨⟨k, t'⟩, hu, h⟩ := bind_eq_ok h
      split at h
      case h_2 => contradiction
      case h_3 => contradiction
      case h_1 heq =>
        cases h
        cases heq
        obtain ⟨hm, ds, hd, hw, hv⟩ := Json.Number.whole_of_unsigned hu
        rw [if_neg (of_decide_eq_false hm)] at hd
        exact ⟨b, ds, hb, ⟨hw, hv⟩, by rw [← hd, ← ht, ← hs]⟩

theorem isTimestamp_of_timestamp {t : Time.Instant} (h : timestamp s = .ok (t, rest)) :
    ∃ b v, Blanks b ∧ IsTimestamp v t ∧ s = b ++ (v ++ rest) := by
  obtain ⟨b, hb, hs⟩ := exists_blanks (s := s)
  unfold timestamp at h
  split at h
  case h_1 => contradiction
  case h_2 c t ht =>
    split at h
    case isFalse   => contradiction
    case isTrue hc =>
      subst hc
      obtain ⟨⟨w, t'⟩, hq, hr⟩ := bind_eq_ok h
      simp only at hr
      split at hr
      case h_2      => contradiction
      case h_1 i hi =>
        cases hr
        obtain ⟨u, rfl, hu⟩ := Json.Quoted.inside_of_body hq
        refine ⟨b, '\"' :: u ++ ['\"'], hb, ⟨u, w, rfl, hu, hi⟩, ?_⟩
        rw [hs, ht]
        simp

-- Whether the fields of the draft are those of the record, as far as it has them.
structure Draft.Within (d₀ : Draft) (r₀ : Record) : Prop where
  id : ∀ n ∈ d₀.id, n = r₀.id
  user : ∀ n ∈ d₀.user, n = r₀.user
  kind : ∀ n ∈ d₀.kind, n = r₀.kind
  start : ∀ t ∈ d₀.start, t = r₀.start
  finish : ∀ t ∈ d₀.finish, t = r₀.finish
  level : ∀ n ∈ d₀.level, n = r₀.level

theorem hasField_of_read (hf : ¬d.has f = true) (h : d.read f s = .ok (d', rest)) (hw : d'.Within r) :
    (d.Within r ∧ d' = d.put r f) ∧ ∃ b v, Blanks b ∧ r.HasField v f ∧ s = b ++ (v ++ rest) := by
  cases f with
  | id =>
    obtain ⟨⟨n, s'⟩, hv, h⟩ := map_eq_ok h
    obtain ⟨rfl, rfl⟩ := Prod.mk.inj h
    obtain rfl : n = r.id := hw.id n rfl
    have hn : d.id = none := Option.not_isSome_iff_eq_none.mp hf
    exact ⟨⟨{ hw with id := by simp [hn] }, rfl⟩, isNatural_of_natural hv⟩
  | user =>
    obtain ⟨⟨n, s'⟩, hv, h⟩ := map_eq_ok h
    obtain ⟨rfl, rfl⟩ := Prod.mk.inj h
    obtain rfl : n = r.user := hw.user n rfl
    have hn : d.user = none := Option.not_isSome_iff_eq_none.mp hf
    exact ⟨⟨{ hw with user := by simp [hn] }, rfl⟩, isNatural_of_natural hv⟩
  | kind =>
    obtain ⟨⟨n, s'⟩, hv, h⟩ := map_eq_ok h
    obtain ⟨rfl, rfl⟩ := Prod.mk.inj h
    obtain rfl : n = r.kind := hw.kind n rfl
    have hn : d.kind = none := Option.not_isSome_iff_eq_none.mp hf
    exact ⟨⟨{ hw with kind := by simp [hn] }, rfl⟩, isNatural_of_natural hv⟩
  | start =>
    obtain ⟨⟨t, s'⟩, hv, h⟩ := map_eq_ok h
    obtain ⟨rfl, rfl⟩ := Prod.mk.inj h
    obtain rfl : t = r.start := hw.start t rfl
    have hn : d.start = none := Option.not_isSome_iff_eq_none.mp hf
    exact ⟨⟨{ hw with start := by simp [hn] }, rfl⟩, isTimestamp_of_timestamp hv⟩
  | finish =>
    obtain ⟨⟨t, s'⟩, hv, h⟩ := map_eq_ok h
    obtain ⟨rfl, rfl⟩ := Prod.mk.inj h
    obtain rfl : t = r.finish := hw.finish t rfl
    have hn : d.finish = none := Option.not_isSome_iff_eq_none.mp hf
    exact ⟨⟨{ hw with finish := by simp [hn] }, rfl⟩, isTimestamp_of_timestamp hv⟩
  | level =>
    obtain ⟨⟨n, s'⟩, hv, h⟩ := map_eq_ok h
    obtain ⟨rfl, rfl⟩ := Prod.mk.inj h
    obtain rfl : n = r.level := hw.level n rfl
    have hn : d.level = none := Option.not_isSome_iff_eq_none.mp hf
    exact ⟨⟨{ hw with level := by simp [hn] }, rfl⟩, isNatural_of_natural hv⟩

theorem eq_some_of_need {α : Type} {o : Option α} {a : α} (h : Draft.record.need f o = .ok a) :
    o = some a := by
  cases o with
  | none   => cases h
  | some b => exact congrArg some (Except.ok.inj h)

theorem record_eq_ok (h : d.record = .ok r) : d.Within r ∧ ∀ f, d.has f = true := by
  obtain ⟨i, hi, h⟩ := bind_eq_ok h
  obtain ⟨u, hu, h⟩ := bind_eq_ok h
  obtain ⟨k, hk, h⟩ := bind_eq_ok h
  obtain ⟨s, hs, h⟩ := bind_eq_ok h
  obtain ⟨t, ht, h⟩ := bind_eq_ok h
  obtain ⟨l, hl, h⟩ := bind_eq_ok h
  obtain rfl := Except.ok.inj h
  obtain ⟨i', u', k', s', t', l'⟩ := d
  obtain rfl : i' = _ := eq_some_of_need hi
  obtain rfl : u' = _ := eq_some_of_need hu
  obtain rfl : k' = _ := eq_some_of_need hk
  obtain rfl : s' = _ := eq_some_of_need hs
  obtain rfl : t' = _ := eq_some_of_need ht
  obtain rfl : l' = _ := eq_some_of_need hl
  exact ⟨⟨by simp, by simp, by simp, by simp, by simp, by simp⟩, fun f => by cases f <;> rfl⟩

inductive Fills (r₀ : Record) : List Member → Draft → Draft → Prop
  | nil (d₀ : Draft) : Fills r₀ [] d₀ d₀
  | extra {m₀ : Member} {l : List Member} {d₁ d₂ : Draft} :
    m₀.IsSpaced → m₀.IsExtra → Fills r₀ l d₁ d₂ → Fills r₀ (m₀ :: l) d₁ d₂
  | own {m₀ : Member} {f₀ : Field} {l : List Member} {d₁ d₂ : Draft} :
    m₀.IsSpaced → m₀.Names f₀ → r₀.HasField m₀.value f₀ → d₁.has f₀ = false →
    Fills r₀ l (d₁.put r₀ f₀) d₂ → Fills r₀ (m₀ :: l) d₁ d₂

theorem blanks_of_colon (h : colon s = .ok rest) : ∃ b, Blanks b ∧ s = b ++ ':' :: rest := by
  obtain ⟨b, hb, hs⟩ := exists_blanks (s := s)
  unfold colon at h
  split at h
  case h_1      => contradiction
  case h_3      => contradiction
  case h_2 t ht =>
    cases h
    exact ⟨b, hb, ht ▸ hs⟩

theorem inside_of_name {next : Option (List Char × List Char)} (h : nextName.name s = .ok next) :
    ∃ n t rest, next = some (t, rest) ∧ Inside n t ∧ s = '\"' :: (n ++ '\"' :: rest) := by
  unfold nextName.name at h
  split at h
  case h_1     => contradiction
  case h_2 c s =>
    split at h
    case isTrue hc =>
      obtain ⟨⟨t, rest⟩, hb, rfl⟩ := map_eq_ok h
      obtain ⟨n, rfl, hn⟩ := Json.Quoted.inside_of_body hb
      exact ⟨n, t, rest, rfl, hn, hc ▸ rfl⟩
    case isFalse => split at h <;> contradiction

theorem inside_of_nextName {next : Option (List Char × List Char)} (h : nextName false s = .ok next) :
    ∃ b, Blanks b ∧ ((next = none ∧ ∃ t, s = b ++ '}' :: t) ∨ ∃ a n t rest, next = some (t, rest) ∧
      Blanks a ∧ Inside n t ∧ s = b ++ ',' :: (a ++ '\"' :: (n ++ '\"' :: rest))) := by
  obtain ⟨b, hb, hs⟩ := exists_blanks (s := s)
  refine ⟨b, hb, ?_⟩
  unfold nextName at h
  split at h
  case h_1        => contradiction
  case h_2 c t ht =>
    rw [ht] at hs
    split at h
    case isTrue hc =>
      cases h
      exact .inl ⟨rfl, t, hc ▸ hs⟩
    case isFalse =>
    rw [if_neg Bool.false_ne_true] at h
    split at h
    case isFalse   => contradiction
    case isTrue hc =>
      obtain ⟨a, ha, ht⟩ := exists_blanks (s := t)
      obtain ⟨n, u, rest, rfl, hn, hr⟩ := inside_of_name h
      exact .inr ⟨a, n, u, rest, rfl, ha, hn, by rw [← hr, ← ht, hs, hc]⟩

theorem eq_name_of_ofName? (h : Field.ofName? t = some f) : t = f.name.toList := by
  have hf := List.find?_some h
  exact (of_decide_eq_true hf).symm

-- By induction on the steps: what is read is members, one after the other.
theorem fills_of_membersFrom (h : membersFrom fuel false d s = .ok (e, rest)) (he : e.Within r) :
    d.Within r ∧ ∃ ms a b t, Fills r ms d e ∧ Blanks a ∧ Blanks b ∧
      s = a ++ (ms.flatMap (fun m => ',' :: m.text) ++ '}' :: t) ∧ rest = b ++ '}' :: t := by
  induction fuel generalizing d s with
  | zero => contradiction
  | succ fuel hi =>
    unfold membersFrom at h
    obtain ⟨next, hn, h⟩ := bind_eq_ok h
    obtain ⟨b, hb, ⟨rfl, t, rfl⟩ | ⟨a, n, name, s', rfl, ha, hn', rfl⟩⟩ := inside_of_nextName hn
    case inl =>
      cases h
      exact ⟨he, [], b, b, t, .nil _, hb, hb, rfl, rfl⟩
    case inr =>
      simp only at h
      split at h
      case h_1 hf =>
        obtain ⟨s'', hc, h⟩ := bind_eq_ok h
        obtain ⟨u, hv, ht⟩ := bind_eq_ok h
        obtain ⟨x, hx, rfl⟩ := blanks_of_colon hc
        obtain ⟨y, v, hy, hv', rfl⟩ := Json.Skip.spelled_of_value hv
        obtain ⟨hw, ms, z, b', t, hm, hz, hb', rfl, rfl⟩ := hi ht
        let m : Member := ⟨a, n, x, y, v, z⟩
        have hm : Fills r (m :: ms) d e := .extra ⟨ha, hx, hy, hz⟩ ⟨⟨name, hn', hf⟩, hv'⟩ hm
        exact ⟨hw, m :: ms, b, b', t, hm, hb, hb', by simp [m, Member.text], rfl⟩
      case h_2 f hf =>
        split at h
        case isTrue     => contradiction
        case isFalse hd =>
          obtain ⟨s'', hc, h⟩ := bind_eq_ok h
          obtain ⟨⟨d', u⟩, hv, ht⟩ := bind_eq_ok h
          obtain ⟨x, hx, rfl⟩ := blanks_of_colon hc
          obtain ⟨hw, ms, z, b', t, hm, hz, hb', rfl, rfl⟩ := hi ht
          obtain ⟨⟨hd', rfl⟩, y, v, hy, hv', rfl⟩ := hasField_of_read hd hv hw
          obtain rfl := eq_name_of_ofName? hf
          let m : Member := ⟨a, n, x, y, v, z⟩
          have hm : Fills r (m :: ms) d e :=
            .own ⟨ha, hx, hy, hz⟩ hn' hv' (Bool.eq_false_iff.mpr hd) hm
          exact ⟨hd', m :: ms, b, b', t, hm, hb, hb', by simp [m, Member.text], rfl⟩

-- Whether the text can stand behind a member: it ends a number, and does not start with a blank.
def Stops (s : List Char) : Prop := ∃ c t, s = c :: t ∧ isBlank c = false ∧ Ends (c :: t)

theorem stops_members : Stops (ms.flatMap (fun m => ',' :: m.text) ++ '}' :: s) := by
  cases ms with
  | nil       => exact ⟨'}', _, rfl, rfl, ends_cons (by simp)⟩
  | cons m ms => exact ⟨',', _, rfl, rfl, ends_cons (by simp)⟩

theorem text_inj (hm : m.IsWellFormed) (hm' : m'.IsWellFormed) (hs : Stops s) (ht : Stops t)
    (h : m.text ++ s = m'.text ++ t) : m = m' ∧ s = t := by
  obtain ⟨c, s, rfl, hc, hs⟩ := hs
  obtain ⟨d, t, rfl, hd, ht⟩ := ht
  have ⟨sp, ⟨_, hn⟩, hv⟩ := hm
  have ⟨sp', ⟨_, hn'⟩, hv'⟩ := hm'
  simp only [Member.text_eq, Member.tail, List.append_assoc, List.cons_append] at h
  obtain ⟨hb, h⟩ := blanks_inj sp.beforeName sp'.beforeName rfl rfl h
  obtain ⟨hn, h⟩ := unread_inj hn.unread hn'.unread (List.cons.inj h).right
  obtain ⟨ha, h⟩ := blanks_inj sp.afterName sp'.afterName rfl rfl h
  obtain ⟨hb', hv, h⟩ := spelled_inj sp.beforeValue sp'.beforeValue hv hv'
    (ends_append sp.afterValue hs) (ends_append sp'.afterValue ht) (List.cons.inj h).right
  obtain ⟨ha', h⟩ := blanks_inj sp.afterValue sp'.afterValue hc hd h
  refine ⟨?_, h⟩
  cases m
  cases m'
  simp only at hb hn ha hb' hv ha'
  rw [hb, hn, ha, hb', hv, ha']

theorem members_inj (hms : ∀ m ∈ ms, m.IsWellFormed) (hms' : ∀ m ∈ ms', m.IsWellFormed)
    (h : ms.flatMap (fun m => ',' :: m.text) ++ '}' :: s
      = ms'.flatMap (fun m => ',' :: m.text) ++ '}' :: t) : ms = ms' ∧ s = t := by
  induction ms generalizing ms' with
  | nil =>
    cases ms' with
    | nil        => exact ⟨rfl, (List.cons.inj h).right⟩
    | cons m ms' => exact absurd (List.cons.inj h).left (by decide)
  | cons m ms hi =>
    cases ms' with
    | nil         => exact absurd (List.cons.inj h).left (by decide)
    | cons m' ms' =>
      simp only [List.flatMap_cons, List.append_assoc, List.cons_append, List.cons.injEq,
        true_and] at h
      have ⟨hm, hl⟩ := List.forall_mem_cons.mp hms
      have ⟨hm', hl'⟩ := List.forall_mem_cons.mp hms'
      obtain ⟨rfl, hr⟩ := text_inj hm hm' stops_members stops_members h
      obtain ⟨rfl, ht⟩ := hi hl hl' hr
      exact ⟨rfl, ht⟩

theorem objectText_cons : objectText (m :: ms) ++ s
    = '{' :: (m.text ++ (ms.flatMap (fun m => ',' :: m.text) ++ '}' :: s)) := by
  simp only [objectText, List.map_cons, intercalate_cons, List.flatMap_map, List.append_assoc,
    List.cons_append, List.nil_append]

theorem head_of_text (hm : m.IsWellFormed) : ∃ t, skipBlanks (m.text ++ s) = '\"' :: t := by
  rw [Member.text_eq, List.append_assoc, skipBlanks_append hm.spaced.beforeName]
  exact ⟨_, skipBlanks_cons rfl⟩

theorem objectText_inj (hms : ∀ m ∈ ms, m.IsWellFormed) (hms' : ∀ m ∈ ms', m.IsWellFormed)
    (h : objectText ms ++ s = objectText ms' ++ t) : ms = ms' ∧ s = t := by
  have hne {m : Member} {ms : List Member} {s t : List Char} (hm : m.IsWellFormed) :
      objectText [] ++ s ≠ objectText (m :: ms) ++ t := by
    intro h
    rw [objectText_cons] at h
    have hs : '}' :: s = _ := (List.cons.inj h).right
    obtain ⟨u, hu⟩ := head_of_text (s := ms.flatMap (fun m => ',' :: m.text) ++ '}' :: t) hm
    rw [← hs, skipBlanks_cons rfl] at hu
    exact absurd (List.cons.inj hu).left (by decide)
  cases ms with
  | nil =>
    cases ms' with
    | nil         => exact ⟨rfl, List.append_cancel_left h⟩
    | cons m' ms' => exact absurd h (hne (hms' m' List.mem_cons_self))
  | cons m ms =>
    cases ms' with
    | nil         => exact absurd h.symm (hne (hms m List.mem_cons_self))
    | cons m' ms' =>
      rw [objectText_cons, objectText_cons] at h
      refine members_inj hms hms' ?_
      simp only [List.flatMap_cons, List.append_assoc, List.cons_append]
      exact congrArg (',' :: ·) (List.cons.inj h).right

theorem turns_extra (hm : m.IsSpaced) (hx : m.IsExtra) : m.Turns d d := by
  obtain ⟨t, hn, hf⟩ := hx.name
  refine ⟨t, hn, fun {s rest first fuel} he hs => ?_⟩
  have ht : m.tail ++ rest =
      m.afterName ++ ':' :: (m.beforeValue ++ (m.value ++ (m.afterValue ++ rest))) := by
    simp only [Member.tail, List.append_assoc, List.cons_append]
  rw [ht] at hs
  simp only [membersFrom, hs, hf, colon_append hm.afterName,
    Json.Skip.value_append hm.beforeValue hx.value he, bind, Except.bind]

namespace Fills

theorem turnAll (h : Fills r ms d e) : TurnAll ms d e := by
  induction h with
  | nil d             => exact .nil d
  | extra hm hx _ hi  => exact .cons hm (turns_extra hm hx) hi
  | own hm hn hv hd _ hi => exact .cons hm (turns_own hm hn hv hd) hi

theorem isWellFormed (h : Fills r ms d e) : ∀ m ∈ ms, m.IsWellFormed := by
  induction h with
  | nil => simp
  | extra hm hx _ hi =>
    have ⟨n, hn, _⟩ := hx.name
    exact List.forall_mem_cons.mpr ⟨⟨hm, ⟨n, hn⟩, hx.value⟩, hi⟩
  | own hm hn hv _ _ hi => exact List.forall_mem_cons.mpr ⟨⟨hm, ⟨_, hn⟩, hv.spelled⟩, hi⟩

end Fills

def FillUp (r : Record) (ms : List Member) : Prop := ∃ e, Fills r ms {} e ∧ e.record = .ok r

theorem nextName_comma {next : List Char × List Char} (h : nextName true s = .ok (some next)) :
    nextName false (',' :: s) = .ok (some next) := by
  have hs : nextName false (',' :: s) = nextName.name (skipBlanks s) := by
    rw [nextName, skipBlanks_cons rfl]
    rfl
  unfold nextName at h
  split at h
  case h_1        => contradiction
  case h_2 c t ht =>
    split at h
    case isTrue  => cases h
    case isFalse => exact hs.trans (ht ▸ h)

theorem membersFrom_comma (h : membersFrom fuel true d s = .ok (e, rest)) :
    e = d ∨ membersFrom fuel false d (',' :: s) = .ok (e, rest) := by
  cases fuel with
  | zero => contradiction
  | succ fuel =>
    unfold membersFrom at h ⊢
    obtain ⟨next, hn, h⟩ := bind_eq_ok h
    cases next with
    | none =>
      cases h
      exact .inl rfl
    | some next =>
      rw [nextName_comma hn]
      exact .inr h

theorem fillUp_of_object (h : object s = .ok (r, rest)) :
    ∃ ms, FillUp r ms ∧ '{' :: s = objectText ms ++ rest := by
  obtain ⟨⟨e, u⟩, hm, h⟩ := bind_eq_ok h
  simp only at h
  split at h
  case h_2      => contradiction
  case h_1 q hr =>
    cases h
    obtain ⟨hw, hh⟩ := record_eq_ok hr
    rcases membersFrom_comma hm with rfl | hm
    case inl => exact absurd (hh .id) (by decide)
    case inr =>
      obtain ⟨_, ms, a, b, t, hf, ha, hb, hs, rfl⟩ := fills_of_membersFrom hm hw
      rw [afterClosing_append hb]
      obtain rfl : a = [] := by
        cases a with
        | nil      => rfl
        | cons c a =>
          have hc : isBlank c = true := ha c List.mem_cons_self
          obtain rfl := (List.cons.inj hs).left
          contradiction
      cases ms with
      | nil       => exact absurd (List.cons.inj hs).left (by decide)
      | cons m ms =>
        refine ⟨m :: ms, ⟨e, hf, hr⟩, ?_⟩
        rw [objectText_cons]
        simp only [List.nil_append, List.flatMap_cons, List.append_assoc, List.cons_append] at hs
        exact congrArg ('{' :: ·) (List.cons.inj hs).right

theorem read_eq_ok (h : read s = .ok r) : ∃ a t b, Blanks a ∧ Blanks b ∧
    ((s = a ++ '{' :: t ∧ object t = .ok (r, b)) ∨ (s = a ++ '[' :: t ∧ list t = .ok (r, b))) := by
  obtain ⟨a, ha, hs⟩ := exists_blanks (s := s)
  unfold read at h
  simp only at h
  split at h
  case h_1 t ht =>
    obtain ⟨⟨q, b⟩, ho, h⟩ := bind_eq_ok h
    simp only at h
    split at h
    case h_2    => contradiction
    case h_1 hb =>
      cases h
      exact ⟨a, t, b, ha, blanks_of_skipBlanks hb, .inl ⟨ht ▸ hs, ho⟩⟩
  case h_2 t ht =>
    obtain ⟨⟨q, b⟩, ho, h⟩ := bind_eq_ok h
    simp only at h
    split at h
    case h_2    => contradiction
    case h_1 hb =>
      cases h
      exact ⟨a, t, b, ha, blanks_of_skipBlanks hb, .inr ⟨ht ▸ hs, ho⟩⟩
  case h_3 => contradiction

theorem read_objectText_iff (hms : ∀ m ∈ ms, m.IsWellFormed) :
    read (objectText ms) = .ok r ↔ FillUp r ms := by
  constructor
  case mp =>
    intro h
    obtain ⟨a, t, b, ha, _, ⟨hs, ho⟩ | ⟨hs, _⟩⟩ := read_eq_ok h
    case inl =>
      obtain ⟨rfl, hs⟩ := blanks_inj blanks_nil ha rfl rfl hs
      obtain ⟨ms', hf, ht⟩ := fillUp_of_object ho
      have ⟨_, hf', _⟩ := hf
      obtain ⟨rfl, _⟩ := objectText_inj (s := []) hms hf'.isWellFormed (by
        rw [List.append_nil, ← ht]
        exact hs)
      exact hf
    case inr =>
      obtain ⟨_, hs⟩ := blanks_inj blanks_nil ha rfl rfl hs
      exact absurd (List.cons.inj hs).left (by decide)
  case mpr =>
    rintro ⟨e, hf, hr⟩
    exact read_objectText hf.turnAll hr

end WriteBehind.Record
