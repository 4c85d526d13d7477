import WriteBehind.Proofs.Chunk.Windows
import WriteBehind.Proofs.Storage.Decoding
import WriteBehind.Storage.Writing

namespace WriteBehind.Storage

open Std (ExtTreeMap OrientedCmp)

variable {t : Table} {m : Catalogue} {r : Record} {rs : List Record} {id limit offset : UInt64}
variable {c : Call} {cs : List Call}

def Catalogue.records (m : Catalogue) : List Record := m.toList.map (·.2)

def Call.Keeps : Call → Prop
  | .add rs => ∀ r ∈ rs, Row.Keeps r
  | _       => True

def Call.HasPlainYears : Call → Prop
  | .add rs => ∀ r ∈ rs, r.HasPlainYears
  | _       => True

instance : Decidable c.HasPlainYears := by
  cases c <;> unfold Call.HasPlainYears <;> infer_instance

def Call.IsOnClock : Call → Prop
  | .add rs => ∀ r ∈ rs, r.IsOnClock
  | _       => True

instance : Decidable c.IsOnClock := by
  cases c <;> unfold Call.IsOnClock <;> infer_instance

def Call.shown : Call → Call
  | .add rs => .add (rs.map Record.shown)
  | c       => c

structure Represents (t : Table) (m : Catalogue) : Prop where
  row   : ∀ id : UInt64, t[(id.toNat : Int)]? = m[id]?.map Row.ofRecord
  key   : ∀ k ∈ t, ∃ id : UInt64, (id.toNat : Int) = k
  own   : ∀ (id : UInt64) (r : Record), m[id]? = some r → r.id = id
  kept : ∀ (id : UInt64) (r : Record), m[id]? = some r → Row.Keeps r

namespace Represents

theorem key_inj {id id' : UInt64} : (id.toNat : Int) = id'.toNat ↔ id = id' := by
  rw [Int.natCast_inj, UInt64.toNat_inj]

theorem empty : Represents ∅ ∅ where
  row _       := by simp
  key _ hk    := by simp at hk
  own _ _ h   := by simp at h
  kept _ _ h := by simp at h

theorem mem_iff (h : Represents t m) : (id.toNat : Int) ∈ t ↔ id ∈ m := by
  rw [ExtTreeMap.mem_iff_isSome_getElem?, ExtTreeMap.mem_iff_isSome_getElem?, h.row, Option.isSome_map]

theorem insert (h : Represents t m) (hr : Row.Keeps r) :
    Represents (t.adding [r]) (m.insert r.id r) where
  row id := by
    have hi : Row.key r = (id.toNat : Int) ↔ r.id = id := key_inj
    simp only [Table.getElem?_adding_one, ExtTreeMap.getElem?_insert, Std.compare_eq_iff_eq, hi, h.row]
    split <;> rfl
  key k hk := by
    cases Table.mem_adding_one.mp hk with
    | inl he => exact ⟨r.id, he⟩
    | inr hk => exact h.key k hk
  own id r' hm := by
    simp only [ExtTreeMap.getElem?_insert, Std.compare_eq_iff_eq] at hm
    split at hm
    case isTrue he => cases hm; exact he
    case isFalse   => exact h.own id r' hm
  kept id r' hm := by
    rw [ExtTreeMap.getElem?_insert] at hm
    split at hm
    case isTrue  => cases hm; exact hr
    case isFalse => exact h.kept id r' hm

theorem adding (h : Represents t m) (hr : ∀ r ∈ rs, Row.Keeps r) :
    Represents (t.adding rs) (rs.foldl (fun m r => m.insert r.id r) m) := by
  induction rs generalizing t m with
  | nil => exact h
  | cons r rs hi =>
    have ⟨hr, hrs⟩ := List.forall_mem_cons.mp hr
    exact hi (h.insert hr) hrs

theorem erase (h : Represents t m) : Represents (t.erase id.toNat) (m.erase id) where
  row id' := by
    simp only [ExtTreeMap.getElem?_erase, Std.compare_eq_iff_eq, key_inj, h.row]
    split <;> rfl
  key k hk := h.key k (ExtTreeMap.mem_of_mem_erase hk)
  own id' r hm := by
    rw [ExtTreeMap.getElem?_erase] at hm
    split at hm
    case isTrue  => cases hm
    case isFalse => exact h.own id' r hm
  kept id' r hm := by
    rw [ExtTreeMap.getElem?_erase] at hm
    split at hm
    case isTrue  => cases hm
    case isFalse => exact h.kept id' r hm

theorem admits_iff (h : Represents t m) (hf : Catalogue.firstTooLarge? rs = none) :
    t.Admits rs ↔ (rs.map (·.id)).Nodup ∧ ∀ r ∈ rs, r.id ∉ m := by
  have hn (r : Record) : Row.key r ∉ t ↔ r.id ∉ m := not_congr h.mem_iff
  simp only [Table.admits_iff, hn]
  exact and_iff_right (Database.firstTooLarge?_eq_none.mp hf)

theorem keeps_of_mem (h : Represents t m) : ∀ r ∈ m.records, Row.Keeps r := by
  intro r hr
  obtain ⟨⟨id, r⟩, hm, rfl⟩ := List.mem_map.mp hr
  exact h.kept id r (ExtTreeMap.mem_toList_iff_getElem?_eq_some.mp hm)

theorem mem_rows_iff (h : Represents t m) (p : Int × Row) :
    p ∈ t.toList ↔ p ∈ Table.rowsOf m.records := by
  obtain ⟨k, row⟩ := p
  simp only [Table.rowsOf, Catalogue.records, ExtTreeMap.mem_toList_iff_getElem?_eq_some, List.mem_map, Prod.exists,
    Prod.mk.injEq]
  constructor
  · intro hk
    obtain ⟨id, hi⟩ := h.key k (ExtTreeMap.mem_iff_isSome_getElem?.mpr (by rw [hk]; rfl))
    subst hi
    rw [h.row, Option.map_eq_some_iff] at hk
    obtain ⟨r, hm, hr⟩ := hk
    exact ⟨r, ⟨id, r, hm, rfl⟩, by rw [Row.key, h.own id r hm], hr⟩
  · rintro ⟨_, ⟨id, r, hm, rfl⟩, hk, hr⟩
    rw [← hk, Row.key, h.own id r hm, h.row, hm, Option.map_some, hr]

theorem toList_eq (h : Represents t m) : t.toList = Table.rowsOf m.records := by
  have ht : t.toList.Pairwise fun p q => compare p.1 q.1 = .lt := ExtTreeMap.ordered_keys_toList
  have hm : (Table.rowsOf m.records).Pairwise fun p q => compare p.1 q.1 = .lt := by
    rw [Table.rowsOf, Catalogue.records, List.map_map, List.pairwise_map]
    refine ExtTreeMap.ordered_keys_toList.imp_of_mem fun {p q} hp hq hl => ?_
    have hp := h.own _ _ (ExtTreeMap.mem_toList_iff_getElem?_eq_some.mp hp)
    have hq := h.own _ _ (ExtTreeMap.mem_toList_iff_getElem?_eq_some.mp hq)
    simp only [Function.comp_apply, Row.key, hp, hq, Std.compare_eq_lt, UInt64.lt_iff_toNat_lt] at hl ⊢
    exact Int.ofNat_lt.mpr hl
  have nodup {rows : List (Int × Row)} (hr : rows.Pairwise fun p q => compare p.1 q.1 = .lt) :
      rows.Nodup := hr.imp fun {p q} hl he => by simp [he] at hl
  refine List.Perm.eq_of_pairwise (fun p q _ _ hl hg => ?_) ht hm
    ((List.perm_ext_iff_of_nodup (nodup ht) (nodup hm)).mpr h.mem_rows_iff)
  exact absurd hg (OrientedCmp.not_lt_of_lt hl)

theorem size_eq (h : Represents t m) : t.size = m.size := by
  rw [← ExtTreeMap.length_toList, h.toList_eq, Table.rowsOf, List.length_map, Catalogue.records,
    List.length_map, ExtTreeMap.length_toList]

theorem call_add (h : Represents t m) (hr : ∀ r ∈ rs, Row.Keeps r) :
    ∃ t', (Database.holding t).call (.add rs) = ((m.add rs).1, .holding t') ∧
      Represents t' (m.add rs).2 := by
  rw [Database.call, Database.add_eq, Catalogue.add]
  cases hf : Catalogue.firstTooLarge? rs with
  | some p => exact ⟨t, rfl, h⟩
  | none =>
    by_cases ha : t.Admits rs
    case pos =>
      simp only [if_pos ha, if_pos ((h.admits_iff hf).mp ha)]
      exact ⟨_, rfl, h.adding hr⟩
    case neg =>
      simp only [if_neg ha, if_neg (mt (h.admits_iff hf).mpr ha)]
      exact ⟨t, rfl, h⟩

theorem call_remove (h : Represents t m) :
    ∃ t', (Database.holding t).call (.remove id) = ((m.call (.remove id)).1, .holding t') ∧
      Represents t' (m.call (.remove id)).2 := by
  rw [Database.call, Database.remove, Catalogue.call, Row.check]
  by_cases hi : Row.Fits id
  case pos =>
    rw [if_pos hi, if_pos hi]
    have hc : t.contains (id.toNat : Int) = m.contains id := by
      rw [ExtTreeMap.contains_eq_isSome_getElem?, ExtTreeMap.contains_eq_isSome_getElem?, h.row,
        Option.isSome_map]
    refine ⟨t.erase id.toNat, ?_, h.erase⟩
    rw [← hc]
    rfl
  case neg =>
    rw [if_neg hi, if_neg hi]
    exact ⟨t, rfl, h⟩

theorem call_find (h : Represents t m) :
    (Database.holding t).call (.find id) = ((m.call (.find id)).1, .holding t) := by
  rw [Database.call, Catalogue.call]
  by_cases hi : Row.Fits id
  case pos =>
    have hk : t[(id.toNat : Int)]? = m[id]?.map Row.ofRecord := h.row id
    rw [if_pos hi]
    cases hm : m[id]? with
    | none =>
      rw [hm, Option.map_none] at hk
      rw [Database.find?_of_absent hi hk]
    | some r =>
      rw [hm, Option.map_some] at hk
      have he : (Row.ofRecord r).decode id.toNat = .ok r := h.own id r hm ▸ h.kept id r hm
      rw [Database.find?_of_row hi hk, he]
      rfl
  case neg =>
    rw [Database.find?, Row.check, if_neg hi, if_neg hi]
    rfl

theorem call_page (h : Represents t m) :
    (Database.holding t).call (.page limit offset) = ((m.call (.page limit offset)).1, .holding t) := by
  rw [Database.call, Catalogue.call]
  by_cases hl : Row.Fits limit
  case neg =>
    rw [Database.page, Row.check, if_neg hl, if_pos hl]
    rfl
  by_cases ho : Row.Fits offset
  case neg =>
    rw [Database.page, Row.check, Row.check, if_pos hl, if_neg (not_not.mpr hl), if_neg ho, if_pos ho]
    rfl
  have hr : ∀ r ∈ (m.records.drop offset.toNat).take limit.toNat, Row.Keeps r :=
    fun r hr => h.keeps_of_mem r (List.mem_of_mem_drop (List.mem_of_mem_take hr))
  have hp : t.page limit.toNat offset.toNat =
      Table.rowsOf ((m.records.drop offset.toNat).take limit.toNat) := by
    rw [Table.page, h.toList_eq, Table.rowsOf, Table.rowsOf, List.map_take, List.map_drop]
  rw [Database.page_eq hl ho, hp, Table.mapM_decode hr, if_neg (not_not.mpr hl), if_neg (not_not.mpr ho)]
  rfl

theorem call_count (h : Represents t m) :
    (Database.holding t).call .count = ((m.call .count).1, .holding t) := by
  rw [Catalogue.call, ← h.size_eq]
  rfl

theorem call (h : Represents t m) (hc : c.Keeps) :
    ∃ t', (Database.holding t).call c = ((m.call c).1, .holding t') ∧ Represents t' (m.call c).2 := by
  cases c with
  | add rs            => exact h.call_add hc
  | remove id         => exact h.call_remove
  | find id           => exact ⟨t, h.call_find, h⟩
  | page limit offset => exact ⟨t, h.call_page, h⟩
  | count             => exact ⟨t, h.call_count, h⟩

end Represents

def Database.after (db : Database) : List Call → Database
  | []      => db
  | c :: cs => after (db.call c).2 cs

def Catalogue.after (m : Catalogue) : List Call → Catalogue
  | []      => m
  | c :: cs => after (m.call c).2 cs

theorem Represents.calls (h : Represents t m) (hc : ∀ c ∈ cs, c.Keeps) :
    (Database.holding t).calls cs = m.calls cs ∧
      ∃ t', (Database.holding t).after cs = .holding t' ∧ Represents t' (m.after cs) := by
  induction cs generalizing t m with
  | nil => exact ⟨rfl, t, rfl, h⟩
  | cons c cs hi =>
    have ⟨hc, hcs⟩ := List.forall_mem_cons.mp hc
    obtain ⟨t', he, h⟩ := h.call hc
    rw [Database.calls, Catalogue.calls, Database.after, Catalogue.after, he]
    exact ⟨congrArg _ (hi h hcs).left, (hi h hcs).right⟩

theorem Call.keeps_shown (hc : c.HasPlainYears) : c.shown.Keeps := by
  cases c with
  | add rs   => exact List.forall_mem_map.mpr fun r hr => Row.keeps_shown (hc r hr)
  | _        => trivial

theorem map_eq_self {α : Type} {f : α → α} {l : List α} : l.map f = l ↔ ∀ a ∈ l, f a = a := by
  have h : l.map f = l.map id ↔ ∀ a ∈ l, f a = id a := List.map_inj_left
  rwa [List.map_id] at h

theorem Call.shown_eq_self : c.shown = c ↔ c.IsOnClock := by
  cases c with
  | add rs =>
    rw [shown, IsOnClock, Call.add.injEq]
    exact map_eq_self.trans (forall₂_congr fun _ _ => Record.shown_eq_self)
  | _ => exact iff_of_true rfl trivial

theorem Call.map_shown_eq_self : cs.map shown = cs ↔ ∀ c ∈ cs, c.IsOnClock :=
  map_eq_self.trans (forall₂_congr fun _ _ => shown_eq_self)

namespace Database

theorem mapM_encode_shown (rs : List Record) :
    (rs.map Record.shown).mapM Row.encode = rs.mapM Row.encode := by
  rw [List.mapM_map]
  refine congrArg (rs.mapM ·) (funext fun r => ?_)
  simp only [Function.comp_apply, Row.encode, Row.ofRecord_shown]
  rfl

theorem call_shown (db : Database) (c : Call) : db.call c.shown = db.call c := by
  cases c with
  | add rs => rw [Call.shown, call, call, add, add, mapM_encode_shown, List.isEmpty_map]
  | _      => rfl

theorem calls_shown (db : Database) (cs : List Call) :
    db.calls (cs.map Call.shown) = db.calls cs ∧ db.after (cs.map Call.shown) = db.after cs := by
  induction cs generalizing db with
  | nil => exact ⟨rfl, rfl⟩
  | cons c cs hi =>
    have ⟨hc, ha⟩ := hi (db.call c).2
    simp only [List.map_cons, calls, after, call_shown, hc, ha, and_self]

end Database

def pages (size count : Nat) : List Call :=
  (List.range count).map fun i => .page size.toUInt64 (i * size).toUInt64

theorem keeps_pages {size count : Nat} : ∀ c ∈ pages size count, c.Keeps := by
  intro c hc
  obtain ⟨i, _, rfl⟩ := List.mem_map.mp hc
  trivial

namespace Catalogue

theorem calls_of_unchanged (h : ∀ c ∈ cs, (m.call c).2 = m) :
    m.calls cs = cs.map fun c => (m.call c).1 := by
  induction cs with
  | nil => rfl
  | cons c cs hi =>
    have ⟨hc, hcs⟩ := List.forall_mem_cons.mp h
    rw [calls, hc, hi hcs, List.map_cons]

theorem call_page {size start : Nat} (hz : size < 0x8000000000000000)
    (hs : start < 0x8000000000000000) :
    (m.call (.page size.toUInt64 start.toUInt64)).1 = .records ((m.records.drop start).take size) := by
  have toNat {n : Nat} (hn : n < 0x8000000000000000) : n.toUInt64.toNat = n :=
    UInt64.toNat_ofNat_of_lt (Nat.lt_trans hn (by decide))
  have fits {n : Nat} (hn : n < 0x8000000000000000) : Row.Fits n.toUInt64 := by
    rw [Row.Fits, toNat hn]
    exact hn
  rw [call, if_neg (not_not.mpr (fits hz)), if_neg (not_not.mpr (fits hs)), toNat hz, toNat hs, records]

theorem calls_pages {size count : Nat} (hz : size < 0x8000000000000000)
    (hc : (count - 1) * size < 0x8000000000000000) :
    ∃ rss : List (List Record), m.calls (pages size count) = rss.map .records ∧
      rss.flatten = m.records.take (count * size) := by
  have hu : ∀ c ∈ pages size count, (m.call c).2 = m := by
    intro c hc
    obtain ⟨i, _, rfl⟩ := List.mem_map.mp hc
    rfl
  refine ⟨_, ?_, Chunk.flatten_slices⟩
  rw [calls_of_unchanged hu, pages, Chunk.slices, List.map_map, List.map_map]
  refine List.map_congr_left fun i hi => call_page hz ?_
  have hl : i ≤ count - 1 := Nat.le_sub_one_of_lt (List.mem_range.mp hi)
  exact Nat.lt_of_le_of_lt (Nat.mul_le_mul_right size hl) hc

end Catalogue

def Answer.ofReceipt : Flush.Receipt → Answer
  | .ok ()   => .added
  | .error e => .failed e

theorem Database.call_add_eq_write (db : Database) (rs : List Record) :
    db.call (.add rs) = (.ofReceipt (db.write rs).2.1, (db.write rs).2.2) := by
  rw [call, write]
  cases db.add rs with
  | ok db   => rfl
  | error e => rfl

-- Calls on a new database are answered as the empty map answers what is told of them, which is all of them
-- just if a clock can show every instant. After them, consecutive pages make up all records of the map, and
-- a chunk is taken or refused as the records of a call are.
theorem calls_eq_catalogue (cs : List Call) (hc : ∀ c ∈ cs, c.HasPlainYears) :
    ∃ db, Database.migrate {} = .ok db ∧ db.calls cs = Catalogue.calls ∅ (cs.map Call.shown) ∧
      (cs.map Call.shown = cs ↔ ∀ c ∈ cs, c.IsOnClock) ∧
      (∀ size count, size < 0x8000000000000000 → (count - 1) * size < 0x8000000000000000 →
        ∃ rss : List (List Record), (db.after cs).calls (pages size count) = rss.map .records ∧
          rss.flatten = (Catalogue.after ∅ (cs.map Call.shown)).records.take (count * size)) ∧
      ∀ rs, (db.after cs).call (.add rs) =
        (.ofReceipt ((db.after cs).write rs).2.1, ((db.after cs).write rs).2.2) := by
  have hk : ∀ c ∈ cs.map Call.shown, c.Keeps :=
    List.forall_mem_map.mpr fun c h => Call.keeps_shown (hc c h)
  have ⟨he, t, ha, h⟩ := Represents.empty.calls hk
  have ⟨hs, hs'⟩ := Database.calls_shown (.holding ∅) cs
  rw [hs] at he
  rw [hs'] at ha
  refine ⟨.holding ∅, rfl, he, Call.map_shown_eq_self, fun size count hz hl => ?_,
    Database.call_add_eq_write _⟩
  rw [ha, (h.calls keeps_pages).left]
  exact Catalogue.calls_pages hz hl

-- A record of a second before a leap second, to the middle of the leap second.
def leaping : Record where
  id     := 7
  user   := 1
  kind   := 2
  start  := (Time.Instant.mk? 1483228799 0).getD .epoch
  finish := (Time.Instant.mk? 1483228799 1500000000).getD .epoch
  level  := 0

theorem calls_eq_catalogue_of_leaping :
    ∃ db, Database.migrate {} = .ok db ∧
      db.calls [.add [leaping, .uniform 3], .find 7, .add [.uniform 4, leaping], .page 1 1,
        .remove 3, .count, .find 0x8000000000000000] =
        [.added, .found (some leaping), .failed (.sql (.refused .duplicateId)), .records [leaping],
          .removed true, .number 1,
          .failed (.invalidRow (.tooLarge (.column .id) 0x8000000000000000))] := by
  have ⟨db, hm, he, hs, _⟩ := calls_eq_catalogue
    [.add [leaping, .uniform 3], .find 7, .add [.uniform 4, leaping], .page 1 1, .remove 3, .count,
      .find 0x8000000000000000] (by decide +kernel)
  rw [hs.mpr (by decide +kernel)] at he
  exact ⟨db, hm, he.trans (by decide +kernel)⟩

-- What is not on the clock is found as another record.
theorem not_calls_eq_catalogue_of_overlong : ∃ db, Database.migrate {} = .ok db ∧
    db.calls [.add [Record.overlong], .find 1] =
      [.added, .found (some { Record.overlong with start :=
        ⟨1577836831, 0, by decide, by decide, by decide⟩ })] ∧
    Catalogue.calls ∅ [.add [Record.overlong], .find 1] = [.added, .found (some Record.overlong)] ∧
    db.calls [.add [Record.overlong], .find 1] ≠
      Catalogue.calls ∅ [.add [Record.overlong], .find 1] :=
  ⟨.holding ∅, rfl, by decide +kernel, by decide +kernel, by decide +kernel⟩

end WriteBehind.Storage
