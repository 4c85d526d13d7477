import WriteBehind.Proofs.Record.Tolerance
import WriteBehind.Proofs.Storage.Decoding

namespace WriteBehind.Storage

variable {db db' : Database} {t : Table} {r : Record} {rs : List Record} {limit offset : UInt64}

-- What is given back for a record is another: when it is looked up, and on each page it is on, as long as
-- the other rows of the page can be read.
structure Returned (db : Database) (r r' : Record) : Prop where
  found  : db.find? r.id = .ok (some r')
  listed : ∀ (limit offset : UInt64) (t : Table) (i : Nat), Row.Fits limit → Row.Fits offset →
    db.table = some t → (t.page limit.toNat offset.toNat)[i]? = some (Row.key r, Row.ofRecord r) →
    (∀ p ∈ t.page limit.toNat offset.toNat, p ≠ (Row.key r, Row.ofRecord r) →
      ∃ r'', p.2.decode p.1 = .ok r'') →
    ∃ rs, db.page limit offset = .ok rs ∧ rs[i]? = some r'

structure Spoils (db : Database) (r : Record) : Prop where
  found  : ∃ c s, db.find? r.id = .error (.invalidRow (.noTimestamp c s .invalid))
  listed : ∀ (limit offset : UInt64) (t : Table), Row.Fits limit → Row.Fits offset →
    db.table = some t → (Row.key r, Row.ofRecord r) ∈ t.page limit.toNat offset.toNat →
    ∃ e, db.page limit offset = .error (.invalidRow e)

namespace Database

theorem admits_of_add (hr : r ∈ rs) (ha : db.add rs = .ok db') :
    ∃ t : Table, t.Admits rs ∧ db' = holding (t.adding rs) := by
  obtain ⟨t, rfl⟩ := eq_holding_of_add hr ha
  refine ⟨t, ?_⟩
  by_cases hd : t.Admits rs
  case pos => exact ⟨hd, Except.ok.inj (ha.symm.trans (add_of_admits hd))⟩
  case neg =>
    obtain ⟨e, he⟩ := add_of_not_admits hd
    cases he.symm.trans ha

end Database

theorem fits_of_admits (ha : t.Admits rs) (hr : r ∈ rs) : Row.Fits r.id :=
  ha.rows r hr (.column .id, r.id) List.mem_cons_self

theorem returned_of_row (hi : Row.Fits r.id) (hk : t[Row.key r]? = some (Row.ofRecord r))
    (hr : r.HasPlainYears) : Returned (.holding t) r r.shown where
  found := by
    rw [Database.find?_of_row hi hk]
    exact congrArg _ (congrArg _ (Row.decode_of_hasPlainYears hr))
  listed limit offset t' i hl ho ht hp hd := by
    cases ht
    have hd : ∀ p ∈ t.page limit.toNat offset.toNat, ∃ r', p.2.decode p.1 = .ok r' := by
      intro p hm
      by_cases he : p = (Row.key r, Row.ofRecord r)
      case pos => exact ⟨r.shown, he ▸ Row.decode_of_hasPlainYears hr⟩
      case neg => exact hd p hm he
    obtain ⟨rs, hm, hg⟩ := mapM_of_ok hd
    refine ⟨rs, ?_, hg i _ r.shown hp (Row.decode_of_hasPlainYears hr)⟩
    rw [Database.page_eq hl ho, hm]
    rfl

theorem spoils_of_row (hi : Row.Fits r.id) (hk : t[Row.key r]? = some (Row.ofRecord r))
    (hr : ¬r.HasPlainYears) : Spoils (.holding t) r where
  found := by
    obtain ⟨c, s, he⟩ := Row.decode_of_not_hasPlainYears hr
    refine ⟨c, s, ?_⟩
    rw [Database.find?_of_row hi hk]
    exact congrArg _ (congrArg _ he)
  listed limit offset t' hl ho ht hp := by
    cases ht
    obtain ⟨c, s, he⟩ := Row.decode_of_not_hasPlainYears hr
    have ⟨e, hm⟩ := mapM_of_error (g := fun (p : Int × Row) => p.2.decode p.1) hp he
    refine ⟨e, ?_⟩
    rw [Database.page_eq hl ho, hm]
    rfl

-- A record that was added is given back just if its years take no sign, and as what is told of it. A record
-- that was read from a line is told in full.
theorem returned_of_added (ha : db.add rs = .ok db') :
    ∀ r ∈ rs, (r.HasPlainYears → Returned db' r r.shown) ∧ (¬r.HasPlainYears → Spoils db' r) ∧
      (r.shown = r ↔ r.IsOnClock) ∧ ∀ line, Record.ofLine line = .ok (some r) → r.IsOnClock := by
  intro r hr
  obtain ⟨t, hd, rfl⟩ := Database.admits_of_add hr ha
  have hi : Row.Fits r.id := fits_of_admits hd hr
  have hk : (t.adding rs)[Row.key r]? = some (Row.ofRecord r) :=
    Table.getElem?_adding_of_mem hd.distinct hr
  exact ⟨returned_of_row hi hk, spoils_of_row hi hk, Record.shown_eq_self,
    fun _ => Record.isOnClock_of_ofLine⟩

-- A record whose second year is the last of four digits, at an offset that puts it into the next one.
def late : Record where
  id     := 1
  user   := 2
  kind   := 3
  start  := (Time.Instant.mk? 1609459200 0).getD .epoch
  finish := (Time.Instant.mk? 253402304399 0).getD .epoch
  level  := 4

theorem returned_of_added_of_late :
    ∃ db, (Database.holding ∅).add [.uniform 3, late] = .ok db ∧ Returned db (.uniform 3) (.uniform 3) ∧
      Spoils db late := by
  have ha : (Database.holding ∅).add [.uniform 3, late] =
      .ok (.holding (Table.adding ∅ [.uniform 3, late])) := Database.add_of_admits (by decide +kernel)
  have h := returned_of_added ha
  have ⟨hr, _, hs, _⟩ := h (.uniform 3) (by simp)
  have hr := hr (by decide +kernel)
  rw [hs.mpr (by decide +kernel)] at hr
  exact ⟨_, ha, hr, (h late (by simp)).right.left (by decide +kernel)⟩

theorem not_returned_of_late :
    Record.ofLine ("\x7b\"id\":1,\"user_id\":2,\"type\":3,\"from\":\"2021-01-01T00:00:00Z\",".toList ++
      "\"to\":\"9999-12-31T23:59:59-01:00\",\"level\":4\x7d".toList) = .ok (some late) ∧
    ∃ db, (Database.holding ∅).add [late] = .ok db ∧
      db.find? 1 = .error (.invalidRow
        (.noTimestamp .finish "+10000-01-01T00:59:59Z".toList .invalid)) ∧
      db.page 10 0 = .error (.invalidRow
        (.noTimestamp .finish "+10000-01-01T00:59:59Z".toList .invalid)) := by
  refine ⟨by decide +kernel, .holding (Table.adding ∅ [late]), ?_, ?_, ?_⟩
  · exact Database.add_of_admits (by decide +kernel)
  · decide +kernel
  · decide +kernel

end WriteBehind.Storage
