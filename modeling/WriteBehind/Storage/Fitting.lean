import WriteBehind.Storage.Table

namespace WriteBehind.Storage

def HasRow (r : Record) : Prop := ∀ p ∈ Row.operands r, Row.Fits p.2

instance (r : Record) : Decidable (HasRow r) := by unfold HasRow; infer_instance

namespace Table

structure Admits (t : Table) (rs : List Record) : Prop where
  rows : ∀ r ∈ rs, HasRow r
  distinct : (rs.map (·.id)).Nodup
  new : ∀ r ∈ rs, Row.key r ∉ t

theorem admits_iff {t : Table} {rs : List Record} :
    t.Admits rs ↔ (∀ r ∈ rs, HasRow r) ∧ (rs.map (·.id)).Nodup ∧ ∀ r ∈ rs, Row.key r ∉ t where
  mp  := fun ⟨rows, distinct, new⟩ => ⟨rows, distinct, new⟩
  mpr := fun ⟨rows, distinct, new⟩ => ⟨rows, distinct, new⟩

instance (t : Table) (rs : List Record) : Decidable (t.Admits rs) :=
  decidable_of_iff' _ admits_iff

theorem admits_nil (t : Table) : t.Admits [] := ⟨by simp, by simp, by simp⟩

def adding (t : Table) (rs : List Record) : Table :=
  rs.foldl (fun t r => t.insert (Row.key r) (Row.ofRecord r)) t

-- The chunks before the first that cannot be added, each being added to what the ones before it
-- have made.
def admitted (t : Table) : List (List Record) → List (List Record)
  | [] => []
  | c :: cs => if t.Admits c then c :: admitted (t.adding c) cs else []

theorem insert?_append (t : Table) (xs ys : List (Int × Row)) :
    t.insert? (xs ++ ys) = (t.insert? xs).bind (insert? · ys) := by
  induction xs generalizing t with
  | nil => rfl
  | cons x xs ih =>
    obtain ⟨id, row⟩ := x
    simp only [List.cons_append, insert?]
    split
    · rfl
    · exact ih _

end Table
end WriteBehind.Storage
