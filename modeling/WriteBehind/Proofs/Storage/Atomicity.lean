import WriteBehind.Proofs.Chunk.Windows
import WriteBehind.Proofs.Storage.Admission
import WriteBehind.Storage.Writing

namespace WriteBehind.Storage

open Flush (Receipt)

variable {t t' : Table} {r : Record} {rs : List Record} {batch : List (Int × Row)}
variable {batches done later : List (List (Int × Row))} {operand : Operand} {n : UInt64} {x : Receipt}

def statements (rs : List Record) : List (List (Int × Row)) :=
  Chunk.windows Database.rowsPerStatement (Table.rowsOf rs)

def Table.carryOut (t : Table) (batches : List (List (Int × Row))) : Option Table :=
  batches.foldlM Table.insert? t

structure Refused (t : Table) (batches done : List (List (Int × Row))) (batch : List (Int × Row))
    (later : List (List (Int × Row))) (t' : Table) : Prop where
  eq      : batches = done ++ batch :: later
  before  : t.carryOut done = some t'
  refused : t'.insert? batch = none

inductive Sends (t : Table) (batches : List (List (Int × Row))) :
    List (List (Int × Row)) × Except SqlFault Table → Prop
  | all {t' : Table} : t.carryOut batches = some t' → Sends t batches (batches, .ok t')
  | refused {done later : List (List (Int × Row))} {batch : List (Int × Row)} {t' : Table} :
    Refused t batches done batch later t' →
    Sends t batches (done ++ [batch], .error (.refused .duplicateId))

structure Batched (rs : List Record) (batches : List (List (Int × Row))) : Prop where
  sent    : ∀ t, Sends t batches (Database.insertRows t (Table.rowsOf rs))
  whole   : batches.flatten = Table.rowsOf rs
  bounded : ∀ batch ∈ batches, batch ≠ [] ∧ batch.length ≤ 5461 ∧ 6 * batch.length ≤ 32766

inductive NamesFirst (rs : List Record) : RowFault → Prop
  | intro {before after : List Record} {r : Record} {fitting others : List (Operand × UInt64)}
      {operand : Operand} {n : UInt64} :
    rs = before ++ r :: after →
    (∀ r ∈ before, HasRow r) →
    Row.operands r = fitting ++ (operand, n) :: others →
    (∀ p ∈ fitting, Row.Fits p.2) →
    ¬Row.Fits n →
    NamesFirst rs (.tooLarge operand n)

structure AddsAtomically (t : Table) (rs : List Record) (x : Receipt) (t' : Table) : Prop where
  ok_iff  : x = .ok () ↔
    rs = [] ∨ (∀ r ∈ rs, HasRow r) ∧ (rs.map (·.id)).Nodup ∧ ∀ r ∈ rs, Row.key r ∉ t
  added   : x = .ok () →
    rs.mapM Row.encode = .ok (Table.rowsOf rs) ∧ t.carryOut (statements rs) = some t' ∧
      t.insert? (Table.rowsOf rs) = some t' ∧ Extends t rs t'
  kept    : ∀ e, x = .error e → t' = t
  invalid : (∃ f, x = .error (.invalidRow f)) ↔ ∃ r ∈ rs, ¬HasRow r
  first   : ∀ f, x = .error (.invalidRow f) → NamesFirst rs f
  -- The statement that failed can be any of them.
  refused : ∀ e, x = .error e → (∀ r ∈ rs, HasRow r) →
    e = .sql (.refused .duplicateId) ∧
      ∃ done batch later t₁, Refused t (statements rs) done batch later t₁

-- It makes no difference where the rows are cut.
theorem Table.carryOut_eq : t.carryOut batches = t.insert? batches.flatten := by
  induction batches generalizing t with
  | nil => rfl
  | cons batch batches hi =>
    rw [List.flatten_cons, Table.insert?_append, carryOut, List.foldlM_cons]
    exact congrArg _ (funext fun _ => hi)

theorem flatten_statements : (statements rs).flatten = Table.rowsOf rs :=
  Chunk.flatten_windows (by decide) _

theorem carryOut_statements : t.carryOut (statements rs) = t.insert? (Table.rowsOf rs) := by
  rw [Table.carryOut_eq, flatten_statements]

theorem sends_send (t : Table) (batches : List (List (Int × Row))) :
    Sends t batches (Database.send t batches) := by
  induction batches generalizing t with
  | nil => exact .all rfl
  | cons batch batches hi =>
    rw [Database.send]
    cases hb : t.insert? batch with
    | none    =>
      have hr : Refused t (batch :: batches) [] batch batches t := ⟨rfl, rfl, hb⟩
      exact .refused hr
    | some t₁ =>
      have cons (done) : t.carryOut (batch :: done) = t₁.carryOut done := by simp [Table.carryOut, hb]
      have hs := hi t₁
      dsimp only
      generalize Database.send t₁ batches = x at hs ⊢
      cases hs with
      | all ht     => exact .all ((cons _).trans ht)
      | refused hr =>
        exact .refused ⟨by rw [hr.eq, List.cons_append], (cons _).trans hr.before, hr.refused⟩

theorem batched_statements (rs : List Record) : Batched rs (statements rs) where
  sent t := sends_send t _
  whole  := flatten_statements
  bounded batch hb := by
    have ⟨hn, hl⟩ := Chunk.bounded_of_mem_windows hb
    have hr : Database.rowsPerStatement = 5461 := by decide
    exact ⟨hn, by omega, by omega⟩

theorem exists_refused (h : t.carryOut batches = none) :
    ∃ done batch later t', Refused t batches done batch later t' := by
  have hs := sends_send t batches
  generalize Database.send t batches = x at hs
  cases hs with
  | all ht     => cases h.symm.trans ht
  | refused hr => exact ⟨_, _, _, _, hr⟩

theorem namesFirst_of_firstTooLarge? (h : Catalogue.firstTooLarge? rs = some (operand, n)) :
    NamesFirst rs (.tooLarge operand n) := by
  induction rs with
  | nil => cases h
  | cons r rs hi =>
    rw [Catalogue.firstTooLarge?, List.flatMap_cons, List.find?_append] at h
    cases hr : (Row.operands r).find? fun p => ¬Row.Fits p.2 with
    | some p =>
      rw [hr] at h
      cases h
      obtain ⟨hn, fitting, others, ho, hf⟩ := List.find?_eq_some_iff_append.mp hr
      have hf (p) (hp : p ∈ fitting) : Row.Fits p.2 := by
        simpa only [decide_not, Bool.not_not, decide_eq_true_eq] using hf p hp
      exact .intro (List.nil_append _).symm (List.forall_mem_nil _) ho hf (of_decide_eq_true hn)
    | none =>
      rw [hr, Option.none_or] at h
      have hr : HasRow r := fun p hp => not_not.mp (mt decide_eq_true (List.find?_eq_none.mp hr p hp))
      cases hi h with
      | intro hs hb ho hf hn =>
        exact .intro (congrArg (r :: ·) hs) (List.forall_mem_cons.mpr ⟨hr, hb⟩) ho hf hn

theorem admits_iff_nil_or :
    t.Admits rs ↔
      rs = [] ∨ (∀ r ∈ rs, HasRow r) ∧ (rs.map (·.id)).Nodup ∧ ∀ r ∈ rs, Row.key r ∉ t := by
  rw [Table.admits_iff, or_iff_right_of_imp]
  rintro rfl
  exact ⟨List.forall_mem_nil _, List.nodup_nil, List.forall_mem_nil _⟩

theorem addsAtomically_of_admits (ha : t.Admits rs) : AddsAtomically t rs (.ok ()) (t.adding rs) where
  ok_iff    := iff_of_true rfl (admits_iff_nil_or.mp ha)
  added _   := by
    refine ⟨?_, carryOut_statements.trans (Table.insert?_of_admits ha), Table.insert?_of_admits ha,
      extends_adding ha⟩
    rw [Database.mapM_encode_eq, Database.firstTooLarge?_eq_none.mpr ha.rows]
  kept      := nofun
  invalid   := iff_of_false nofun fun ⟨r, hr, hn⟩ => hn (ha.rows r hr)
  first     := nofun
  refused   := nofun

theorem addsAtomically_of_tooLarge (h : Catalogue.firstTooLarge? rs = some (operand, n)) :
    AddsAtomically t rs (.error (.invalidRow (.tooLarge operand n))) t := by
  have hn : ¬∀ r ∈ rs, HasRow r := by
    rw [← Database.firstTooLarge?_eq_none, h]
    nofun
  exact {
    ok_iff  := iff_of_false nofun fun ha => hn (admits_iff_nil_or.mpr ha).rows
    added   := nofun
    kept    := fun _ _ => rfl
    invalid := iff_of_true ⟨_, rfl⟩ (by simpa using hn)
    first   := fun _ hf => by cases hf; exact namesFirst_of_firstTooLarge? h
    refused := fun _ _ hr => absurd hr hn
  }

theorem addsAtomically_of_not_admits (hr : ∀ r ∈ rs, HasRow r) (hn : ¬t.Admits rs) :
    AddsAtomically t rs (.error (.sql (.refused .duplicateId))) t where
  ok_iff          := iff_of_false nofun (mt admits_iff_nil_or.mpr hn)
  added           := nofun
  kept _ _        := rfl
  invalid         := iff_of_false nofun fun ⟨r, hm, hf⟩ => hf (hr r hm)
  first           := nofun
  refused e he _  := by
    cases he
    exact ⟨rfl, exists_refused (carryOut_statements.trans (Table.insert?_of_not_admits hr hn))⟩

-- Records are added all together, however many statements that takes, or the table stays as it was.
theorem write_atomic (t : Table) (rs : List Record) :
    Batched rs (statements rs) ∧
      ∃ ns x t', (Database.holding t).write rs = (ns, x, .holding t') ∧ AddsAtomically t rs x t' := by
  refine ⟨batched_statements rs, ?_⟩
  rw [Database.write, Database.add_eq]
  cases hf : Catalogue.firstTooLarge? rs with
  | some p => exact ⟨_, _, t, rfl, addsAtomically_of_tooLarge hf⟩
  | none   =>
    by_cases ha : t.Admits rs
    case pos =>
      simp only [if_pos ha]
      exact ⟨_, _, _, rfl, addsAtomically_of_admits ha⟩
    case neg =>
      simp only [if_neg ha]
      have hr := Database.firstTooLarge?_eq_none.mp hf
      exact ⟨_, _, t, rfl, addsAtomically_of_not_admits hr ha⟩

end WriteBehind.Storage
