import Mathlib.Data.List.Induction
import WriteBehind.Record.Index

namespace WriteBehind.Record

variable {id : UInt64} {r : Record} {rs rs' : List Record}

def IsLast (id : UInt64) (rs : List Record) (r : Record) : Prop :=
  ∃ before after, rs = before ++ r :: after ∧ r.id = id ∧ ∀ r' ∈ after, r'.id ≠ id

def having (id : UInt64) (rs : List Record) : List Record := rs.filter (·.id = id)

structure Indexes (rs : List Record) (m : Std.ExtTreeMap UInt64 Record) : Prop where
  keys   : ∀ id, id ∈ m ↔ ∃ r ∈ rs, r.id = id
  values : ∀ id r, m[id]? = some r ↔ IsLast id rs r

theorem mem_having : r ∈ having id rs ↔ r ∈ rs ∧ r.id = id := by simp [having]

theorem having_append : having id (rs ++ rs') = having id rs ++ having id rs' := List.filter_append ..

theorem getLast?_having : (having id rs).getLast? = some r ↔ IsLast id rs r := by
  rw [having, List.getLast?_filter, List.find?_eq_some_iff_append]
  simp only [decide_eq_true_eq, Bool.not_eq_true', decide_eq_false_iff_not]
  constructor
  case mp =>
    rintro ⟨hr, after, before, hs, hn⟩
    refine ⟨before.reverse, after.reverse, ?_, hr, fun r' hm => hn r' (List.mem_reverse.mp hm)⟩
    rw [← List.reverse_reverse rs, hs]
    simp
  case mpr =>
    rintro ⟨before, after, rfl, hr, hn⟩
    refine ⟨hr, after.reverse, before.reverse, by simp, fun r' hm => hn r' (List.mem_reverse.mp hm)⟩

def indexed (rs : List Record) : Std.ExtTreeMap UInt64 Record :=
  rs.foldl (fun m r => m.insert r.id r) ∅

theorem index_of_ne_nil (hn : rs ≠ []) : index rs = .ok (indexed rs) := by
  rw [index, if_neg (by simpa using hn), indexed]

theorem indexed_concat : indexed (rs ++ [r]) = (indexed rs).insert r.id r := by
  rw [indexed, List.foldl_append, indexed, List.foldl_cons, List.foldl_nil]

-- The induction is from the end of the list, where the record that counts is found first.
theorem getElem?_indexed : (indexed rs)[id]? = (having id rs).getLast? := by
  induction rs using List.reverseRecOn with
  | nil => rfl
  | append_singleton rs r ih =>
    rw [indexed_concat, Std.ExtTreeMap.getElem?_insert, having_append, List.getLast?_append, ih]
    by_cases hr : r.id = id <;> simp [having, hr]

theorem indexes_indexed : Indexes rs (indexed rs) where
  keys id := by
    rw [Std.ExtTreeMap.mem_iff_isSome_getElem?, getElem?_indexed, List.getLast?_isSome, Ne,
      List.eq_nil_iff_forall_not_mem]
    simp only [mem_having, not_forall, not_not]
  values id r := by rw [getElem?_indexed, getLast?_having]

theorem getElem?_indexed_append :
    (indexed (rs ++ rs'))[id]? = (indexed rs')[id]?.or (indexed rs)[id]? := by
  rw [getElem?_indexed, having_append, List.getLast?_append, getElem?_indexed, getElem?_indexed]

theorem index_congr (h : ∀ id, having id rs = having id rs') : index rs = index rs' := by
  have hm : indexed rs = indexed rs' := by
    apply Std.ExtTreeMap.ext_getElem?
    intro id
    rw [getElem?_indexed, getElem?_indexed, h]
  have mem {r} : r ∈ rs ↔ r ∈ rs' := by
    have hr : r ∈ having r.id rs ↔ r ∈ having r.id rs' := by rw [h]
    simpa [mem_having] using hr
  have he : rs.isEmpty = rs'.isEmpty := by
    rw [Bool.eq_iff_iff, List.isEmpty_iff, List.isEmpty_iff, List.eq_nil_iff_forall_not_mem,
      List.eq_nil_iff_forall_not_mem]
    simp only [mem]
  rw [index, index, he, ← indexed, ← indexed, hm]

-- An index holds the last record of each identifier. What is indexed behind a list overrides it, and
-- records with different identifiers may change places.
theorem index_keeps_last :
    index [] = .error .empty ∧
    (∀ rs, rs ≠ [] → ∃ m, index rs = .ok m ∧ Indexes rs m) ∧
    (∀ rs rs', rs ≠ [] → rs' ≠ [] → ∃ m m' m'', index rs = .ok m ∧ index rs' = .ok m' ∧
      index (rs ++ rs') = .ok m'' ∧ ∀ id : UInt64, m''[id]? = m'[id]?.or m[id]?) ∧
    ∀ rs rs', (∀ id, having id rs = having id rs') → index rs = index rs' := by
  refine ⟨rfl, fun rs hn => ?_, fun rs rs' hn hn' => ?_, fun rs rs' h => index_congr h⟩
  case refine_1 => exact ⟨_, index_of_ne_nil hn, indexes_indexed⟩
  case refine_2 =>
    refine ⟨_, _, _, index_of_ne_nil hn, index_of_ne_nil hn', ?_, fun id => getElem?_indexed_append⟩
    exact index_of_ne_nil (by simp [hn])

end WriteBehind.Record
