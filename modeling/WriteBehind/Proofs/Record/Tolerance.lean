import WriteBehind.Proofs.Record.Listing
import WriteBehind.Proofs.Record.Shown
import WriteBehind.Proofs.Record.Spelling
import WriteBehind.Proofs.Text.Blank
import WriteBehind.Proofs.Time.Relaxed
import WriteBehind.Record.Edits
import WriteBehind.Record.Line

namespace WriteBehind.Record

open Json.Grammar (Blanks Part Spelled Whole)
open Text (trim)

variable {r : Record} {d e : Draft} {f : Field} {m m' : Member} {ms ms' as bs : List Member}
variable {line s s' v v' : List Char} {p : Part} {items : Field → Item}

theorem Respaced.spelled (h : Respaced p s s') : Spelled p s' := by
  induction h with
  | same hs               => exact hs
  | nothing ho hb         => exact .nothing ho hb.right
  | list _ hi             => exact .list hi
  | object _ hi           => exact .object hi
  | item ha _ hb hv       => exact .item ha.right hv hb.right
  | items ha _ hb _ hv hi => exact .items ha.right hv hb.right hi
  | member ha hn hb hc _ hd hv =>
    exact .member ha.right hn hb.right hc.right hv hd.right
  | members ha hn hb hc _ hd _ hv hi =>
    exact .members ha.right hn hb.right hc.right hv hd.right hi

theorem IsNatural.head {n : UInt64} (h : IsNatural s n) : ∀ c ∈ s.head?, c ≠ '[' ∧ c ≠ '{' := by
  intro c hc
  have hd : c.isDigit = true := h.left.left.right c (List.mem_of_mem_head? hc)
  constructor <;> rintro rfl <;> contradiction

theorem IsTimestamp.head {t : Time.Instant} (h : IsTimestamp s t) :
    ∀ c ∈ s.head?, c ≠ '[' ∧ c ≠ '{' := by
  obtain ⟨u, _, rfl, _⟩ := h
  intro c hc
  obtain rfl : '\"' = c := Option.some.inj hc
  decide

theorem Respaced.eq (h : Respaced .value v v') (hv : r.HasField v f) : v' = v := by
  have hc : ∀ c ∈ v.head?, c ≠ '[' ∧ c ≠ '{' := by
    rcases hv.isNatural_or_isTimestamp with ⟨_, hn⟩ | ⟨_, ht⟩
    · exact hn.head
    · exact ht.head
  cases h with
  | same       => rfl
  | list _     => exact absurd rfl (hc '[' rfl).left
  | object _   => exact absurd rfl (hc '{' rfl).right
  | @nothing b b' o c ho _ =>
    have ⟨hl, ho'⟩ := hc o rfl
    simp [hl, ho'] at ho

theorem Fills.edit (h : Fills r ms d e) (he : Edit ms ms') : Fills r ms' d e := by
  cases he with
  | reorder hp => exact h.perm hp
  | extend hm hx =>
    obtain ⟨c, h, h'⟩ := h.exists_of_append
    exact h.append (.extra hm hx h')
  | @respace as m m' bs hm =>
    obtain ⟨c, h, h'⟩ := h.exists_of_append
    refine h.append ?_
    cases h' with
    | extra _ hx h =>
      have hx' : m'.IsExtra := ⟨hm.name ▸ hx.name, hm.value.spelled⟩
      exact .extra hm.spaced hx' h
    | @own _ f _ _ _ _ hn hv hd h =>
      have hn' : m'.Names f := by rwa [Member.Names, hm.name]
      exact .own hm.spaced hn' (hm.value.eq hv ▸ hv) hd h

theorem FillUp.edits (h : FillUp r ms) (he : Edits ms ms') : FillUp r ms' := by
  induction he with
  | refl => exact h
  | edit _ he hi =>
    obtain ⟨e, hf, hr⟩ := hi
    exact ⟨e, hf.edit he, hr⟩

namespace Carries

theorem trim_eq {c d : Char} (h : Carries line (c :: s ++ [d])) (hc : Text.isBlank c = false)
    (hd : Text.isBlank d = false) : trim line = c :: s ++ [d] := by
  obtain ⟨a, b, ha, hb, rfl⟩ := h
  exact (Text.trim_append ha hb).trans (Text.trim_of_ends hc hd)

theorem ofLine_eq (h : Carries line (objectText ms)) :
    ofLine line = (read (objectText ms)).map some := by
  have ht : trim line = objectText ms := h.trim_eq rfl rfl
  have hv : isVoid line = false := by
    rw [isVoid, ht]
    rfl
  rw [ofLine, hv, ht]
  rfl

end Carries

theorem ofLine_of_fillUp (h : FillUp r ms) (hl : Carries line (objectText ms)) :
    ofLine line = .ok (some r) := by
  have ⟨_, hf, _⟩ := h
  rw [hl.ofLine_eq, (read_objectText_iff hf.isWellFormed).mpr h]
  rfl

theorem exists_error (hms : ∀ m ∈ ms, m.IsWellFormed) (hl : Carries line (objectText ms))
    (h : ∀ r, ¬FillUp r ms) : ∃ e, ofLine line = .error e := by
  rw [hl.ofLine_eq]
  cases hr : read (objectText ms) with
  | error e => exact ⟨e, rfl⟩
  | ok r    => exact absurd ((read_objectText_iff hms).mp hr) (h r)

theorem read_of_ofLine (h : ofLine line = .ok (some r)) : read (trim line) = .ok r := by
  unfold ofLine at h
  split at h
  case isTrue  => cases h
  case isFalse =>
    obtain ⟨q, hr, hq⟩ := map_eq_ok h
    exact Option.some.inj hq ▸ hr

theorem carries_of_trim {a b t : List Char} (ha : Blanks a) (hb : Blanks b)
    (ht : trim line = a ++ t ++ b) : Carries line t := by
  obtain ⟨x, y, hx, hy, hl⟩ := Text.exists_trim line
  have text {b : List Char} (hb : Blanks b) : ∀ c ∈ b, Text.isBlank c = true :=
    fun c hc => Json.text_isBlank_of_isBlank (hb c hc)
  refine ⟨x ++ a, b ++ y, List.forall_mem_append.mpr ⟨hx, text ha⟩,
    List.forall_mem_append.mpr ⟨text hb, hy⟩, ?_⟩
  rw [hl, ht]
  simp only [List.append_assoc]

theorem fillUp_or_isListedBy (h : ofLine line = .ok (some r)) :
    (∃ ms, FillUp r ms ∧ Carries line (objectText ms)) ∨
      ∃ items, r.IsListedBy items ∧ Carries line (listText items) := by
  obtain ⟨a, t, b, ha, hb, ⟨hs, ho⟩ | ⟨hs, hl⟩⟩ := read_eq_ok (read_of_ofLine h)
  case inl =>
    obtain ⟨ms, hf, ht⟩ := fillUp_of_object ho
    rw [ht, ← List.append_assoc] at hs
    exact .inl ⟨ms, hf, carries_of_trim ha hb hs⟩
  case inr =>
    obtain ⟨items, hi, ht⟩ := isListedBy_of_list hl
    rw [ht, ← List.append_assoc] at hs
    exact .inr ⟨items, hi, carries_of_trim ha hb hs⟩

theorem FillUp.exists_names (h : FillUp r ms) (f : Field) : ∃ m ∈ ms, m.Names f := by
  obtain ⟨e, hf, hr⟩ := h
  have ⟨_, he⟩ := record_eq_ok hr
  rcases hf.has_iff.mp (he f) with hd | hm
  · cases f <;> contradiction
  · exact hm

theorem hasField_of_ofLine (h : ofLine line = .ok (some r)) (f : Field) : ∃ s, r.HasField s f := by
  rcases fillUp_or_isListedBy h with ⟨ms, hf, _⟩ | ⟨items, hi, _⟩
  case inl =>
    obtain ⟨m, hm, hn⟩ := hf.exists_names f
    obtain ⟨_, hf, _⟩ := hf
    exact ⟨m.value, hf.hasField hm hn⟩
  case inr => exact ⟨(items f).value, (hi f).right.left⟩

theorem IsTimestamp.isOnClock {t : Time.Instant} (h : IsTimestamp s t) : t.IsOnClock := by
  obtain ⟨_, _, _, _, hr⟩ := h
  exact Time.Relaxed.isOnClock_of_read hr

-- No line can ask for a second that lasts longer within its minute.
theorem isOnClock_of_ofLine (h : ofLine line = .ok (some r)) : r.IsOnClock := by
  have ⟨_, hs⟩ := hasField_of_ofLine h .start
  have ⟨_, hf⟩ := hasField_of_ofLine h .finish
  exact ⟨IsTimestamp.isOnClock hs, IsTimestamp.isOnClock hf⟩

structure Tolerates (r₀ : Record) (ms₀ : List Member) : Prop where
  spelled : r₀.IsSpelledBy ms₀
  edited {ms : List Member} {line : List Char} :
    Edits ms₀ ms → Carries line (objectText ms) → ofLine line = .ok (some r₀)
  missing {as bs : List Member} {m : Member} {f : Field} {line : List Char} :
    ms₀ = as ++ m :: bs → m.Names f → Carries line (objectText (as ++ bs)) →
    ∃ e, ofLine line = .error e
  doubled {as bs : List Member} {m : Member} {f : Field} {line : List Char} :
    ms₀ = as ++ bs → m.IsWellFormed → m.Names f → Carries line (objectText (as ++ m :: bs)) →
    ∃ e, ofLine line = .error e
  number {m : Member} {f : Field} {n : UInt64} :
    m ∈ ms₀ → m.Names f → r₀.number? f = some n →
    Whole m.value ∧ Nat.ofDigitChars 10 m.value 0 = n.toNat ∧ n.toNat ≤ 18446744073709551615

theorem isNatural_of_number? {n : UInt64} (hn : r.number? f = some n) (h : r.HasField s f) :
    IsNatural s n := by
  cases f <;> cases hn <;> exact h

theorem FillUp.tolerates (h : FillUp r ms) : Tolerates r ms := by
  have ⟨e, hf, hr⟩ := h
  have hms := hf.isWellFormed
  constructor
  case spelled => exact fillUp_iff.mp h
  case edited  => exact fun he hl => ofLine_of_fillUp (h.edits he) hl
  case missing =>
    rintro as bs m f line rfl hn hl
    have ⟨ha, hb⟩ := List.forall_mem_append.mp hms
    refine exists_error (List.forall_mem_append.mpr ⟨ha, (List.forall_mem_cons.mp hb).right⟩) hl ?_
    intro q hq
    obtain ⟨m', hm', hn'⟩ := hq.exists_names f
    exact hf.alone hn m' hm' hn'
  case doubled =>
    rintro as bs m f line rfl hm hn hl
    have ⟨ha, hb⟩ := List.forall_mem_append.mp hms
    refine exists_error (List.forall_mem_append.mpr ⟨ha, List.forall_mem_cons.mpr ⟨hm, hb⟩⟩) hl ?_
    rintro q ⟨_, hq, _⟩
    obtain ⟨m', hm', hn'⟩ := h.exists_names f
    exact hq.alone hn m' hm' hn'
  case number =>
    intro m f n hm hn hv
    have ⟨hw, hd⟩ := isNatural_of_number? hv (hf.hasField hm hn)
    exact ⟨hw, hd, Nat.le_of_lt_succ n.toNat_lt⟩

-- A line that is read and starts with a brace is an object, and much is known of its members. Any other
-- line that is read is a list with the values of the record.
theorem tolerates_of_ofLine (h : ofLine line = .ok (some r)) :
    ((trim line).head? = some '{' →
      ∃ ms, (∀ m ∈ ms, m.IsWellFormed) ∧ Carries line (objectText ms)) ∧
    ((trim line).head? ≠ some '{' → ∃ items, r.IsListedBy items ∧ Carries line (listText items)) ∧
    ∀ ms, (∀ m ∈ ms, m.IsWellFormed) → Carries line (objectText ms) → r.Tolerates ms := by
  refine ⟨fun ho => ?_, fun ho => ?_, fun ms hms hl => ?_⟩
  case refine_1 =>
    rcases fillUp_or_isListedBy h with ⟨ms, ⟨_, hf, _⟩, hl⟩ | ⟨items, _, hl⟩
    case inl => exact ⟨ms, hf.isWellFormed, hl⟩
    case inr =>
      rw [hl.trim_eq rfl rfl] at ho
      exact absurd (Option.some.inj ho) (by decide)
  case refine_2 =>
    rcases fillUp_or_isListedBy h with ⟨ms, _, hl⟩ | hi
    case inl => exact absurd (hl.trim_eq rfl rfl ▸ rfl) ho
    case inr => exact hi
  case refine_3 =>
    rw [hl.ofLine_eq] at h
    obtain ⟨q, hr, hq⟩ := map_eq_ok h
    obtain rfl := Option.some.inj hq
    exact ((read_objectText_iff hms).mp hr).tolerates

def tangled : List Char :=
  ("\t\x7b \"x\" : [1e999, \x7b\"id\":[[]]\x7d, \"\\ud800\"],\"to\":\"1970-01-01T01:00:00+01:00\"," ++
    "\"\\u0069d\": 18446744073709551615,\"type\":0,\"\":null,\"level\":1,\n" ++
    "\"from\":\"1970-01-01T00:00:00Z\",\"user_id\":10 \x7d ").toList

def untangled : Record := { uniform 0 with id := 18446744073709551615, user := 10, level := 1 }

theorem tolerates_of_ofLine_of_tangled : ∃ ms, (∀ m ∈ ms, m.IsWellFormed) ∧
    Carries tangled (objectText ms) ∧ untangled.Tolerates ms := by
  have ht : (ofLine tangled).toOption = some (some untangled) := by decide +kernel
  have h : ofLine tangled = .ok (some untangled) := by
    generalize ofLine tangled = x at ht ⊢
    cases x with
    | error e => cases ht
    | ok x    => exact congrArg Except.ok (Option.some.inj ht)
  have ⟨hm, _, hr⟩ := tolerates_of_ofLine h
  obtain ⟨ms, hms, hl⟩ := hm (by decide +kernel)
  exact ⟨ms, hms, hl, hr ms hms hl⟩

end WriteBehind.Record
