import Mathlib.Data.List.Infix
import WriteBehind.Proofs.Storage.Insertion

namespace WriteBehind.Storage

variable {t t' : Table} {rs chunk : List Record} {cs before later : List (List Record)} {k : Nat}

structure Fresh (t : Table) (before : List (List Record)) (chunk : List Record) : Prop where
  fits     : ∀ r ∈ chunk, HasRow r
  distinct : (chunk.map (·.id)).Nodup
  absent   : ∀ r ∈ chunk, Row.key r ∉ t
  unseen   : ∀ r ∈ chunk, ∀ c ∈ before, ∀ r' ∈ c, r'.id ≠ r.id

-- The number of the first chunk that conflicts, or the number of chunks if there is none.
structure IsFirstConflict (t : Table) (cs : List (List Record)) (k : Nat) : Prop where
  le       : k ≤ cs.length
  before   : ∀ i chunk, i < k → cs[i]? = some chunk → Fresh t (cs.take i) chunk
  conflict : ∀ chunk, cs[k]? = some chunk → ¬Fresh t (cs.take k) chunk

structure Extends (t : Table) (rs : List Record) (t' : Table) : Prop where
  old  : ∀ id ∈ t, t'[id]? = t[id]?
  new  : ∀ r ∈ rs, t'[Row.key r]? = some (Row.ofRecord r)
  only : ∀ id ∈ t', id ∈ t ∨ ∃ r ∈ rs, Row.key r = id

theorem fresh_iff : Fresh t before chunk ↔ (t.adding before.flatten).Admits chunk := by
  simp only [Table.admits_iff, Table.mem_adding, not_or, not_exists, not_and, List.mem_flatten]
  constructor
  · intro f
    refine ⟨f.fits, f.distinct, fun r hr => ⟨f.absent r hr, fun r' ⟨c, hc, hm⟩ he => ?_⟩⟩
    exact f.unseen r hr c hc r' hm (Row.key_inj.mp he)
  · intro ⟨hf, hd, hn⟩
    refine ⟨hf, hd, fun r hr => (hn r hr).left, fun r hr c hc r' hm he => ?_⟩
    exact (hn r hr).right r' ⟨c, hc, hm⟩ (Row.key_inj.mpr he)

theorem extends_adding (ha : t.Admits rs) : Extends t rs (t.adding rs) where
  old _ hid  := Table.getElem?_adding_of_ne fun r hr he => ha.new r hr (he ▸ hid)
  new _ hr   := Table.getElem?_adding_of_mem ha.distinct hr
  only _ hid := Table.mem_adding.mp hid

namespace Table

-- The chunks that are admitted one after the other are those that were taken, if the next is refused.
theorem admitted_eq (ha : t.Admits cs.flatten)
    (hl : ∀ chunk ∈ later.head?, ¬(t.adding cs.flatten).Admits chunk) :
    t.admitted (cs ++ later) = cs := by
  induction cs generalizing t with
  | nil =>
    cases later with
    | nil => rfl
    | cons chunk later => exact if_neg (hl chunk rfl)
  | cons c cs hi =>
    rw [List.flatten_cons] at ha hl
    have ⟨hc, hcs⟩ := admits_append.mp ha
    rw [adding_append] at hl
    rw [List.cons_append, admitted, if_pos hc, hi hcs hl]

theorem admits_admitted : t.Admits (t.admitted cs).flatten := by
  induction cs generalizing t with
  | nil => exact admits_nil t
  | cons c cs hi =>
    rw [admitted]
    split
    next hc => exact List.flatten_cons ▸ admits_append.mpr ⟨hc, hi⟩
    next => exact admits_nil t

theorem prefix_admitted : t.admitted cs <+: cs := by
  induction cs generalizing t with
  | nil => exact List.prefix_rfl
  | cons c cs hi =>
    rw [admitted]
    split
    next => exact (List.prefix_cons_inj c).mpr hi
    next => exact List.nil_prefix

theorem not_admits_next (hk : cs[(t.admitted cs).length]? = some chunk) :
    ¬(t.adding (t.admitted cs).flatten).Admits chunk := by
  induction cs generalizing t with
  | nil => simp at hk
  | cons c cs hi =>
    rw [admitted] at hk ⊢
    split at hk
    next hc =>
      rw [if_pos hc, List.flatten_cons, adding_append]
      exact hi (by simpa using hk)
    next hc =>
      rw [if_neg hc]
      simp only [List.length_nil, List.getElem?_cons_zero, Option.some.injEq] at hk
      exact hk ▸ hc

theorem isFirstConflict_admitted : IsFirstConflict t cs (t.admitted cs).length := by
  have ht : t.admitted cs = cs.take (t.admitted cs).length := List.prefix_iff_eq_take.mp prefix_admitted
  refine ⟨prefix_admitted.length_le, fun i chunk hi hc => ?_, fun chunk hc => ?_⟩
  · rw [fresh_iff]
    have hs : (cs.take i ++ [chunk]).flatten <+: (t.admitted cs).flatten := by
      have hl : i < cs.length := (List.getElem?_eq_some_iff.mp hc).choose
      have hg : cs[i] = chunk := (List.getElem?_eq_some_iff.mp hc).choose_spec
      have hp : cs.take (i + 1) <+: cs.take (t.admitted cs).length := List.take_prefix_take_left hi
      rw [← hg, ← List.take_succ_eq_append_getElem hl, ht]
      exact hp.flatten
    obtain ⟨rest, hr⟩ := hs
    have ha : t.Admits ((cs.take i ++ [chunk]).flatten ++ rest) := hr ▸ admits_admitted
    have ha := (admits_append.mp ha).left
    rw [List.flatten_append, List.flatten_singleton] at ha
    exact (admits_append.mp ha).right
  · rw [fresh_iff, ← ht]
    exact not_admits_next hc

end Table

end WriteBehind.Storage
