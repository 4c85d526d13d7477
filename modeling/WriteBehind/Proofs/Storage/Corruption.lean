import WriteBehind.Proofs.Storage.Readback
import WriteBehind.Storage.Calls

namespace WriteBehind.Storage

open Std (ExtTreeMap)

variable {db db' : Database} {t : Table} {id k : Int} {row : Row} {r r' : Record} {rs : List Record}
variable {limit offset : UInt64} {f : RowFault} {c : Call}

def Column.inOrder : List Column := [.id, .user, .kind, .start, .finish, .level]

structure Signed (n : Int) : Prop where
  lower : -0x8000000000000000 ≤ n
  upper : n < 0x8000000000000000

namespace Row

def negative? (c : Column) (n : Int) : Option RowFault :=
  if 0 ≤ n then none else some (.negative c n)

def noTimestamp? (c : Column) (s : List Char) : Option RowFault :=
  match Time.Strict.read s with
  | .ok _    => none
  | .error e => some (.noTimestamp c s e)

def fault? (id : Int) (row : Row) : Column → Option RowFault
  | .id     => negative? .id id
  | .user   => negative? .user row.user
  | .kind   => negative? .kind row.kind
  | .start  => noTimestamp? .start row.start
  | .finish => noTimestamp? .finish row.finish
  | .level  => negative? .level row.level

def firstFault? (id : Int) (row : Row) : Option RowFault := Column.inOrder.findSome? (row.fault? id)

structure IsSigned (id : Int) (row : Row) : Prop where
  id    : Signed id
  user  : Signed row.user
  kind  : Signed row.kind
  level : Signed row.level

structure Readable (id : Int) (row : Row) : Prop where
  id     : 0 ≤ id
  user   : 0 ≤ row.user
  kind   : 0 ≤ row.kind
  level  : 0 ≤ row.level
  start  : ∃ t, Time.Strict.read row.start = .ok t
  finish : ∃ t, Time.Strict.read row.finish = .ok t

structure Holds (id : Int) (row : Row) (r : Record) : Prop where
  id     : r.id.toNat = id
  user   : r.user.toNat = row.user
  kind   : r.kind.toNat = row.kind
  level  : r.level.toNat = row.level
  start  : Time.Strict.read row.start = .ok r.start
  finish : Time.Strict.read row.finish = .ok r.finish

end Row

inductive Reached : Database → Prop
  | new {db : Database} : Database.migrate {} = .ok db → Reached db
  | insert {db db' : Database} {id : Int} {row : Row} :
    Reached db →
    row.IsSigned id →
    db.insertRow id row = .ok db' →
    Reached db'
  | call {db : Database} (c : Call) : Reached db → Reached (db.call c).2

def IsFirstFault (f : RowFault) (rows : List (Int × Row)) : Prop :=
  ∃ pre p post, rows = pre ++ p :: post ∧ (∀ q ∈ pre, q.2.Readable q.1) ∧ p.2.firstFault? p.1 = some f

-- Each row that is no record spoils the calls that ask for it, and no others.
structure Contained (t : Table) (db : Database) : Prop where
  rows     : ∀ (k : Int) (row : Row), (k, row) ∈ t.toList ↔ t[k]? = some row
  ordered  : t.toList.Pairwise (·.1 < ·.1)
  readable : ∀ (k : Int) (row : Row), t[k]? = some row →
    ((∃ r, row.Holds k r) ↔ row.Readable k) ∧ (row.firstFault? k = none ↔ row.Readable k)
  count    : db.count = .ok t.size
  remove   : ∀ id : UInt64, Row.Fits id →
    db.remove id = .ok (t.contains id.toNat, .holding (t.erase id.toNat))
  erased   : ∀ (id : UInt64) (k : Int), (t.erase id.toNat)[k]? = if k = id.toNat then none else t[k]?
  absent   : ∀ id : UInt64, Row.Fits id → t[(id.toNat : Int)]? = none → db.find? id = .ok none
  found    : ∀ (id : UInt64) row, Row.Fits id → t[(id.toNat : Int)]? = some row →
    (∀ r, db.find? id = .ok (some r) ↔ row.Holds id.toNat r) ∧
    ∀ f, db.find? id = .error (.invalidRow f) ↔ row.firstFault? id.toNat = some f
  listed   : ∀ limit offset, Row.Fits limit → Row.Fits offset → ∀ rs,
    db.page limit offset = .ok rs ↔
      ((t.toList.drop offset.toNat).take limit.toNat).Forall₂ (fun p r => p.2.Holds p.1 r) rs
  spoilt   : ∀ limit offset, Row.Fits limit → Row.Fits offset →
    (∀ f, db.page limit offset = .error (.invalidRow f) ↔
      IsFirstFault f ((t.toList.drop offset.toNat).take limit.toNat)) ∧
    ((∃ f, db.page limit offset = .error (.invalidRow f)) ↔
      ∃ p ∈ (t.toList.drop offset.toNat).take limit.toNat, ¬p.2.Readable p.1)
  answered : ∀ limit offset, Row.Fits limit → Row.Fits offset →
    (∃ rs, db.page limit offset = .ok rs) ∨ ∃ f, db.page limit offset = .error (.invalidRow f)

theorem Signed.toNat_toUInt64 {n : Int} (hs : Signed n) (hn : 0 ≤ n) :
    (n.toNat.toUInt64.toNat : Int) = n := by
  have hl : n.toNat < 2 ^ 64 := by
    have hu := hs.upper
    omega
  have hm : n.toNat.toUInt64.toNat = n.toNat := UInt64.toNat_ofNat_of_lt hl
  rw [hm, Int.toNat_of_nonneg hn]

namespace Row

theorem negative?_eq_none {c : Column} {n : Int} : negative? c n = none ↔ 0 ≤ n := by
  simp [negative?]

theorem noTimestamp?_eq_none {c : Column} {s : List Char} :
    noTimestamp? c s = none ↔ ∃ t, Time.Strict.read s = .ok t := by
  rw [noTimestamp?]
  split <;> simp_all

theorem firstFault?_eq_none : row.firstFault? id = none ↔ row.Readable id := by
  simp only [firstFault?, Column.inOrder, List.findSome?_eq_none_iff, List.forall_mem_cons, fault?,
    negative?_eq_none, noTimestamp?_eq_none]
  constructor
  · rintro ⟨hi, hu, hk, hs, hf, hl, _⟩
    exact ⟨hi, hu, hk, hl, hs, hf⟩
  · rintro ⟨hi, hu, hk, hl, hs, hf⟩
    exact ⟨hi, hu, hk, hs, hf, hl, nofun⟩

theorem decode_of_fault (hf : row.firstFault? id = some f) : row.decode id = .error f := by
  simp only [firstFault?, Column.inOrder, List.findSome?_cons, fault?, negative?, noTimestamp?] at hf
  simp only [decode, unsigned, timestamp, bind, Except.bind]
  by_cases hi : 0 ≤ id
  case neg => simpa [hi] using hf
  by_cases hu : 0 ≤ row.user
  case neg => simpa [hi, hu] using hf
  by_cases hk : 0 ≤ row.kind
  case neg => simpa [hi, hu, hk] using hf
  cases hs : Time.Strict.read row.start with
  | error e => simpa [hi, hu, hk, hs, Except.mapError] using hf
  | ok s =>
    cases ht : Time.Strict.read row.finish with
    | error e => simpa [hi, hu, hk, hs, ht, Except.mapError] using hf
    | ok t    =>
      by_cases hl : 0 ≤ row.level
      case neg => simpa [hi, hu, hk, hs, ht, hl, Except.mapError] using hf
      case pos => simp [hi, hu, hk, hs, ht, hl] at hf

theorem decode_of_readable (hs : row.IsSigned id) (hr : row.Readable id) :
    ∃ r, row.decode id = .ok r ∧ row.Holds id r := by
  obtain ⟨s, hs'⟩ := hr.start
  obtain ⟨t, ht⟩ := hr.finish
  refine ⟨⟨id.toNat.toUInt64, row.user.toNat.toUInt64, row.kind.toNat.toUInt64, s, t,
    row.level.toNat.toUInt64⟩, ?_, ?_⟩
  · rw [decode, unsigned, if_pos hr.id, unsigned, if_pos hr.user, unsigned, if_pos hr.kind, timestamp, hs',
      timestamp, ht, unsigned, if_pos hr.level]
    rfl
  · exact ⟨hs.id.toNat_toUInt64 hr.id, hs.user.toNat_toUInt64 hr.user, hs.kind.toNat_toUInt64 hr.kind,
      hs.level.toNat_toUInt64 hr.level, hs', ht⟩

theorem Holds.unique (hr : row.Holds id r) (hr' : row.Holds id r') : r = r' := by
  have eq {n m : UInt64} {i : Int} (hn : n.toNat = i) (hm : m.toNat = i) : n = m :=
    UInt64.toNat_inj.mp (Int.natCast_inj.mp (hn.trans hm.symm))
  obtain ⟨_, _, _, _, _, _⟩ := r
  obtain ⟨_, _, _, _, _, _⟩ := r'
  cases eq hr.id hr'.id
  cases eq hr.user hr'.user
  cases eq hr.kind hr'.kind
  cases eq hr.level hr'.level
  cases hr.start.symm.trans hr'.start
  cases hr.finish.symm.trans hr'.finish
  rfl

theorem Holds.readable (hr : row.Holds id r) : row.Readable id where
  id     := hr.id ▸ Int.natCast_nonneg _
  user   := hr.user ▸ Int.natCast_nonneg _
  kind   := hr.kind ▸ Int.natCast_nonneg _
  level  := hr.level ▸ Int.natCast_nonneg _
  start  := ⟨_, hr.start⟩
  finish := ⟨_, hr.finish⟩

theorem decode_eq_ok (hs : row.IsSigned id) : row.decode id = .ok r ↔ row.Holds id r := by
  constructor
  case mp =>
    intro hd
    cases hf : row.firstFault? id with
    | some f => cases hd.symm.trans (decode_of_fault hf)
    | none   =>
      obtain ⟨r', hd', hr⟩ := decode_of_readable hs (firstFault?_eq_none.mp hf)
      cases hd.symm.trans hd'
      exact hr
  case mpr =>
    intro hr
    obtain ⟨r', hd, hr'⟩ := decode_of_readable hs hr.readable
    rw [hd, hr.unique hr']

theorem decode_eq_error (hs : row.IsSigned id) : row.decode id = .error f ↔ row.firstFault? id = some f := by
  refine ⟨fun hd => ?_, decode_of_fault⟩
  cases hf : row.firstFault? id with
  | some f' =>
    cases hd.symm.trans (decode_of_fault hf)
    rfl
  | none    =>
    obtain ⟨r, hd', _⟩ := decode_of_readable hs (firstFault?_eq_none.mp hf)
    cases hd.symm.trans hd'

end Row

def Table.IsSigned (t : Table) : Prop := ∀ (k : Int) (row : Row), t[k]? = some row → row.IsSigned k

namespace Table.IsSigned

theorem empty : IsSigned ∅ := fun _ _ hk => by simp at hk

theorem insert (hs : t.IsSigned) (hr : row.IsSigned id) : IsSigned (t.insert id row) := by
  intro k row' hk
  rw [ExtTreeMap.getElem?_insert] at hk
  split at hk
  case isTrue he =>
    cases Std.compare_eq_iff_eq.mp he
    cases hk
    exact hr
  case isFalse => exact hs k row' hk

theorem erase (hs : t.IsSigned) : IsSigned (t.erase id) := by
  intro k row' hk
  rw [ExtTreeMap.getElem?_erase] at hk
  split at hk
  case isTrue  => cases hk
  case isFalse => exact hs k row' hk

theorem ofRecord (hr : HasRow r) : (Row.ofRecord r).IsSigned (Row.key r) := by
  have signed {n : UInt64} (hn : Row.Fits n) : Signed n.toNat :=
    ⟨by omega, Int.ofNat_lt.mpr hn⟩
  have hr : ∀ p ∈ Row.operands r, Row.Fits p.2 := hr
  simp only [Row.operands, List.forall_mem_cons] at hr
  exact ⟨signed hr.1, signed hr.2.1, signed hr.2.2.1, signed hr.2.2.2.1⟩

theorem adding (hs : t.IsSigned) (hr : ∀ r ∈ rs, HasRow r) : (t.adding rs).IsSigned := by
  induction rs generalizing t with
  | nil => exact hs
  | cons r rs hi =>
    have ⟨hr, hrs⟩ := List.forall_mem_cons.mp hr
    exact hi (hs.insert (ofRecord hr)) hrs

end Table.IsSigned

namespace Database

theorem insertRow_eq : (holding t).insertRow id row =
    if id ∈ t then .error (.sql (.refused .duplicateId)) else .ok (.holding (t.insert id row)) := by
  have hi : (insertRows t [(id, row)]).2 =
      if id ∈ t then .error (.refused .duplicateId) else .ok (t.insert id row) := by
    rw [insertRows_eq, Table.insert?]
    by_cases hm : id ∈ t
    case pos => rw [if_pos hm, if_pos hm]
    case neg => rw [if_neg hm, if_neg hm]; rfl
  change ((insertRows t [(id, row)]).2.mapError Fault.sql >>= _) = _
  rw [hi]
  split <;> rfl

theorem remove_eq {id : UInt64} (hi : Row.Fits id) :
    (holding t).remove id = .ok (t.contains id.toNat, .holding (t.erase id.toNat)) := by
  rw [remove, Row.check, if_pos hi]
  rfl

end Database

namespace Reached

theorem call_holding (hs : t.IsSigned) :
    ∃ t' : Table, ((Database.holding t).call c).2 = .holding t' ∧ t'.IsSigned := by
  cases c with
  | find | page | count => exact ⟨t, rfl, hs⟩
  | add rs =>
    by_cases ha : t.Admits rs
    case pos =>
      exact ⟨t.adding rs, by rw [Database.call, Database.add_of_admits ha], hs.adding ha.rows⟩
    case neg =>
      obtain ⟨e, he⟩ := Database.add_of_not_admits ha
      exact ⟨t, by rw [Database.call, he], hs⟩
  | remove id =>
    by_cases hi : Row.Fits id
    case pos => exact ⟨t.erase id.toNat, by rw [Database.call, Database.remove_eq hi], hs.erase⟩
    case neg => exact ⟨t, by rw [Database.call, Database.remove, Row.check, if_neg hi]; rfl, hs⟩

theorem exists_table (d : Reached db) : ∃ t : Table, db = .holding t ∧ t.IsSigned := by
  induction d with
  | new hm =>
    cases hm
    exact ⟨∅, rfl, .empty⟩
  | call c _ hi =>
    obtain ⟨t, rfl, hs⟩ := hi
    exact call_holding hs
  | @insert _ _ id row _ hr hd hi =>
    obtain ⟨t, rfl, hs⟩ := hi
    rw [Database.insertRow_eq] at hd
    split at hd
    case isTrue  => cases hd
    case isFalse =>
      cases hd
      exact ⟨t.insert id row, rfl, hs.insert hr⟩

theorem insert_of_new (d : Reached (.holding t)) (hr : row.IsSigned id) (hn : id ∉ t) :
    Reached (.holding (t.insert id row)) :=
  d.insert hr (by rw [Database.insertRow_eq, if_neg hn])

end Reached

section

variable {id : UInt64}

theorem find?_eq_ok (hi : Row.Fits id) (hk : t[(id.toNat : Int)]? = some row)
    (hs : row.IsSigned id.toNat) :
    (Database.holding t).find? id = .ok (some r) ↔ row.Holds id.toNat r := by
  rw [Database.find?_of_row hi hk, ← Row.decode_eq_ok hs]
  cases row.decode id.toNat <;> simp [Except.mapError, Except.map]

theorem find?_eq_error (hi : Row.Fits id) (hk : t[(id.toNat : Int)]? = some row)
    (hs : row.IsSigned id.toNat) :
    (Database.holding t).find? id = .error (.invalidRow f) ↔ row.firstFault? id.toNat = some f := by
  rw [Database.find?_of_row hi hk, ← Row.decode_eq_error hs]
  cases row.decode id.toNat <;> simp [Except.mapError, Except.map]

end

section

variable {rows : List (Int × Row)}

theorem forall₂_holds (hs : ∀ p ∈ rows, p.2.IsSigned p.1) :
    rows.Forall₂ (fun p r => p.2.decode p.1 = .ok r) rs ↔ rows.Forall₂ (fun p r => p.2.Holds p.1 r) rs := by
  induction rows generalizing rs with
  | nil => simp
  | cons p rows hi =>
    have ⟨hp, hs⟩ := List.forall_mem_cons.mp hs
    simp only [List.forall₂_cons_left_iff, Row.decode_eq_ok hp, hi hs]

theorem isFirstFault_iff (hs : ∀ p ∈ rows, p.2.IsSigned p.1) :
    rows.mapM (fun p => p.2.decode p.1) = .error f ↔ IsFirstFault f rows := by
  rw [mapM_eq_error, IsFirstFault]
  refine exists_congr fun pre => exists_congr fun p => exists_congr fun post => ?_
  refine and_congr_right fun he => ?_
  have hp : p.2.IsSigned p.1 := hs p (by simp [he])
  refine and_congr (forall₂_congr fun q hq => ?_) (Row.decode_eq_error hp)
  have hq : q.2.IsSigned q.1 := hs q (by simp [he, hq])
  exact ⟨fun ⟨r, hd⟩ => ((Row.decode_eq_ok hq).mp hd).readable,
    fun hr => (Row.decode_of_readable hq hr).imp fun _ => And.left⟩

theorem exists_isFirstFault :
    (∃ f, IsFirstFault f rows) ↔ ∃ p ∈ rows, ¬p.2.Readable p.1 := by
  constructor
  case mp =>
    rintro ⟨f, pre, p, post, rfl, _, hf⟩
    refine ⟨p, by simp, fun hr => ?_⟩
    cases hf.symm.trans (Row.firstFault?_eq_none.mpr hr)
  case mpr =>
    induction rows with
    | nil => simp
    | cons p rows hi =>
      intro hn
      by_cases hr : p.2.Readable p.1
      case pos =>
        have hn : ∃ q ∈ rows, ¬q.2.Readable q.1 := by simpa [hr] using hn
        obtain ⟨f, pre, q, post, rfl, hp, hf⟩ := hi hn
        exact ⟨f, p :: pre, q, post, rfl, List.forall_mem_cons.mpr ⟨hr, hp⟩, hf⟩
      case neg =>
        obtain ⟨f, hf⟩ := Option.ne_none_iff_exists'.mp (mt Row.firstFault?_eq_none.mp hr)
        exact ⟨f, [], p, rows, rfl, nofun, hf⟩

end

theorem isSigned_of_mem_page {limit offset : Nat} (hs : t.IsSigned) :
    ∀ p ∈ t.page limit offset, p.2.IsSigned p.1 := by
  intro p hp
  have hm : p ∈ t.toList := List.mem_of_mem_drop (List.mem_of_mem_take hp)
  exact hs p.1 p.2 (ExtTreeMap.mem_toList_iff_getElem?_eq_some.mp hm)

theorem page_eq_ok (hl : Row.Fits limit) (ho : Row.Fits offset) (hs : t.IsSigned) :
    (Database.holding t).page limit offset = .ok rs ↔
      (t.page limit.toNat offset.toNat).Forall₂ (fun p r => p.2.Holds p.1 r) rs := by
  rw [Database.page_eq hl ho, ← forall₂_holds (isSigned_of_mem_page hs), ← mapM_eq_ok]
  cases (t.page limit.toNat offset.toNat).mapM fun p => p.2.decode p.1 <;> simp [Except.mapError]

theorem page_eq_error (hl : Row.Fits limit) (ho : Row.Fits offset) (hs : t.IsSigned) :
    (Database.holding t).page limit offset = .error (.invalidRow f) ↔
      IsFirstFault f (t.page limit.toNat offset.toNat) := by
  rw [Database.page_eq hl ho, ← isFirstFault_iff (isSigned_of_mem_page hs)]
  cases (t.page limit.toNat offset.toNat).mapM fun p => p.2.decode p.1 <;> simp [Except.mapError]

theorem contained_of_isSigned (hs : t.IsSigned) : Contained t (.holding t) where
  rows _ _             := ExtTreeMap.mem_toList_iff_getElem?_eq_some
  ordered              := ExtTreeMap.ordered_keys_toList.imp Std.compare_eq_lt.mp
  readable k row hk    := by
    refine ⟨⟨fun ⟨_, hr⟩ => hr.readable, fun hr => ?_⟩, Row.firstFault?_eq_none⟩
    exact (Row.decode_of_readable (hs k row hk) hr).imp fun _ => And.right
  count                := rfl
  remove _             := Database.remove_eq
  erased _ k           := by
    simp only [ExtTreeMap.getElem?_erase, Std.compare_eq_iff_eq, eq_comm (a := k)]
  absent _             := Database.find?_of_absent
  found _ _ hi hk      :=
    ⟨fun _ => find?_eq_ok hi hk (hs _ _ hk), fun _ => find?_eq_error hi hk (hs _ _ hk)⟩
  listed _ _ hl ho _   := page_eq_ok hl ho hs
  spoilt _ _ hl ho     := by
    refine ⟨fun _ => page_eq_error hl ho hs, ?_⟩
    simp only [page_eq_error hl ho hs]
    exact exists_isFirstFault
  answered limit offset hl ho := by
    rw [Database.page_eq hl ho]
    cases (t.page limit.toNat offset.toNat).mapM fun p => p.2.decode p.1 with
    | ok rs   => exact .inl ⟨rs, rfl⟩
    | error f => exact .inr ⟨f, rfl⟩

-- Whatever rows have been stored, each that is no record spoils only the calls that ask for it.
theorem contained_of_reached (d : Reached db) : ∃ t, db.table = some t ∧ Contained t db := by
  obtain ⟨t, rfl, hs⟩ := d.exists_table
  exact ⟨t, rfl, contained_of_isSigned hs⟩

-- A row of a record, with texts at other offsets than the one they denote.
def sound : Row := ⟨2, 3, "2020-01-01T01:00:00+01:00".toList, "2020-01-01 00:00:00z".toList, 4⟩

def corrupt : Row := ⟨2, -3, "2020-01-01".toList, "2020-01-01T00:00:00Z".toList, -4⟩

theorem contained_of_reached_of_corrupt :
    ∃ db t, Reached db ∧ Contained t db ∧ db.count = .ok 3 ∧
      db.page 2 0 = .error (.invalidRow (.negative .id (-1))) ∧
      db.page 9 1 = .error (.invalidRow (.negative .kind (-3))) ∧
      db.page 1 2 = .ok [(⟨7, 2, 3, Time.Instant.mk? 1577836800 0 |>.getD .epoch,
        Time.Instant.mk? 1577836800 0 |>.getD .epoch, 4⟩ : Record)] := by
  have hs (id : Int) (hi : Signed id) : sound.IsSigned id :=
    ⟨hi, ⟨by decide, by decide⟩, ⟨by decide, by decide⟩, ⟨by decide, by decide⟩⟩
  have hc : corrupt.IsSigned 5 :=
    ⟨⟨by decide, by decide⟩, ⟨by decide, by decide⟩, ⟨by decide, by decide⟩, ⟨by decide, by decide⟩⟩
  have d : Reached (.holding ∅) := .new rfl
  have d : Reached (.holding ((∅ : Table).insert 5 corrupt)) := d.insert_of_new hc (by decide +kernel)
  have d := d.insert_of_new (hs (-1) ⟨by decide, by decide⟩) (by decide +kernel)
  have d := d.insert_of_new (hs 7 ⟨by decide, by decide⟩) (by decide +kernel)
  obtain ⟨t, _, h⟩ := contained_of_reached d
  exact ⟨_, t, d, h, by decide +kernel, by decide +kernel, by decide +kernel, by decide +kernel⟩

end WriteBehind.Storage
