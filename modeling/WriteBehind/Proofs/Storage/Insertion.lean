import Mathlib.Data.List.Nodup
import WriteBehind.Proofs.Storage.Disk
import WriteBehind.Storage.Catalogue
import WriteBehind.Storage.Fitting

namespace WriteBehind.Storage

variable {t : Table} {r r' : Record} {rs rs' : List Record} {id : Int}

-- A record has no row if one of its numbers does not fit; the first one is told.
theorem Row.encode_eq :
    Row.encode r = match (Row.operands r).find? fun p => ¬Row.Fits p.2 with
      | some (operand, n) => .error (.tooLarge operand n)
      | none              => .ok (Row.key r, Row.ofRecord r) := by
  simp only [Row.encode, Row.check, Row.operands, List.find?_cons, List.find?_nil, bind, Except.bind]
  by_cases hi : Row.Fits r.id
  case neg => simp [hi]
  by_cases hu : Row.Fits r.user
  case neg => simp [hi, hu]
  by_cases hk : Row.Fits r.kind
  case neg => simp [hi, hu, hk]
  by_cases hl : Row.Fits r.level
  case neg => simp [hi, hu, hk, hl]
  simp [hi, hu, hk, hl, pure, Except.pure]

theorem Row.key_inj : Row.key r = Row.key r' ↔ r.id = r'.id := by
  rw [Row.key, Row.key, Int.natCast_inj, UInt64.toNat_inj]

namespace Table

theorem adding_nil : t.adding [] = t := rfl

theorem adding_cons : t.adding (r :: rs) = (t.adding [r]).adding rs := rfl

theorem adding_append : t.adding (rs ++ rs') = (t.adding rs).adding rs' := List.foldl_append

theorem mem_adding_one : id ∈ t.adding [r] ↔ Row.key r = id ∨ id ∈ t := by
  simp [adding]

theorem getElem?_adding_one :
    (t.adding [r])[id]? = if Row.key r = id then some (Row.ofRecord r) else t[id]? := by
  simp [adding, Std.ExtTreeMap.getElem?_insert]

theorem mem_adding : id ∈ t.adding rs ↔ id ∈ t ∨ ∃ r ∈ rs, Row.key r = id := by
  induction rs generalizing t with
  | nil => simp [adding_nil]
  | cons r rs hi =>
    rw [adding_cons, hi, mem_adding_one, List.exists_mem_cons_iff, or_assoc, or_left_comm]

theorem getElem?_adding_of_ne (hn : ∀ r ∈ rs, Row.key r ≠ id) : (t.adding rs)[id]? = t[id]? := by
  induction rs generalizing t with
  | nil => rfl
  | cons r rs hi =>
    have ⟨hr, hn⟩ := List.forall_mem_cons.mp hn
    rw [adding_cons, hi hn, getElem?_adding_one, if_neg hr]

theorem getElem?_adding_of_mem (hd : (rs.map (·.id)).Nodup) (hr : r ∈ rs) :
    (t.adding rs)[Row.key r]? = some (Row.ofRecord r) := by
  induction rs generalizing t with
  | nil => cases hr
  | cons r' rs hi =>
    have ⟨hn, hd⟩ := List.nodup_cons.mp hd
    rw [adding_cons]
    cases hr with
    | head =>
      rw [getElem?_adding_of_ne, getElem?_adding_one, if_pos rfl]
      exact fun x hx he => hn (List.mem_map.mpr ⟨x, hx, Row.key_inj.mp he⟩)
    | tail _ hr => exact hi hd hr

theorem admits_cons :
    t.Admits (r :: rs) ↔ HasRow r ∧ Row.key r ∉ t ∧ (t.adding [r]).Admits rs := by
  simp only [admits_iff, List.forall_mem_cons, List.map_cons, List.nodup_cons, mem_adding_one, not_or,
    List.mem_map, not_exists, not_and]
  constructor
  · rintro ⟨⟨hr, hrs⟩, ⟨hn, hd⟩, ht, hts⟩
    exact ⟨hr, ht, hrs, hd, fun x hx => ⟨fun he => hn x hx (Row.key_inj.mp he).symm, hts x hx⟩⟩
  · rintro ⟨hr, ht, hrs, hd, hts⟩
    exact ⟨⟨hr, hrs⟩, ⟨fun x hx he => (hts x hx).left (Row.key_inj.mpr he.symm), hd⟩, ht,
      fun x hx => (hts x hx).right⟩

theorem admits_append : t.Admits (rs ++ rs') ↔ t.Admits rs ∧ (t.adding rs).Admits rs' := by
  induction rs generalizing t with
  | nil => simp [admits_nil, adding_nil]
  | cons r rs hi =>
    rw [List.cons_append, admits_cons, admits_cons, hi, and_assoc, and_assoc]
    rfl

theorem size_adding (ha : t.Admits rs) : (t.adding rs).size = t.size + rs.length := by
  induction rs generalizing t with
  | nil => rfl
  | cons r rs hi =>
    have ⟨_, hn, hrs⟩ := admits_cons.mp ha
    have hs : (t.adding [r]).size = t.size + 1 := (Std.ExtTreeMap.size_insert).trans (if_neg hn)
    rw [adding_cons, hi hrs, hs, List.length_cons]
    omega

def rowsOf (rs : List Record) : List (Int × Row) := rs.map fun r => (Row.key r, Row.ofRecord r)

theorem insert?_of_admits (ha : t.Admits rs) : t.insert? (rowsOf rs) = some (t.adding rs) := by
  induction rs generalizing t with
  | nil => rfl
  | cons r rs hi =>
    have ⟨_, hn, ha⟩ := admits_cons.mp ha
    rw [rowsOf, List.map_cons, insert?, if_neg hn]
    exact hi ha

theorem insert?_of_not_admits (hr : ∀ r ∈ rs, HasRow r) (hn : ¬t.Admits rs) :
    t.insert? (rowsOf rs) = none := by
  induction rs generalizing t with
  | nil => exact absurd (admits_nil t) hn
  | cons r rs hi =>
    have ⟨hr, hrs⟩ := List.forall_mem_cons.mp hr
    rw [rowsOf, List.map_cons, insert?]
    split
    · rfl
    next ht => exact hi hrs fun ha => hn (admits_cons.mpr ⟨hr, ht, ha⟩)

end Table

namespace Database

def holding (t : Table) : Database := { table := some t }

theorem send_eq (t : Table) (batches : List (List (Int × Row))) :
    (send t batches).2 = match t.insert? batches.flatten with
      | some t => .ok t
      | none   => .error (.refused .duplicateId) := by
  induction batches generalizing t with
  | nil => rfl
  | cons batch batches hi =>
    rw [send, List.flatten_cons, Table.insert?_append]
    cases t.insert? batch with
    | none   => rfl
    | some t => exact hi t

theorem insertRows_eq (t : Table) (rows : List (Int × Row)) :
    (insertRows t rows).2 = match t.insert? rows with
      | some t => .ok t
      | none   => .error (.refused .duplicateId) := by
  rw [insertRows, send_eq, Chunk.flatten_windows (by decide)]

-- Records are refused for the first number that does not fit, without a look at the table.
theorem mapM_encode_eq :
    rs.mapM Row.encode = match Catalogue.firstTooLarge? rs with
      | some (operand, n) => .error (.tooLarge operand n)
      | none              => .ok (Table.rowsOf rs) := by
  induction rs with
  | nil => rfl
  | cons r rs hi =>
    rw [List.mapM_cons, hi, Catalogue.firstTooLarge?, Catalogue.firstTooLarge?, List.flatMap_cons,
      List.find?_append, Row.encode_eq]
    cases (Row.operands r).find? fun p => ¬Row.Fits p.2 with
    | some p => rfl
    | none =>
      rw [Option.none_or]
      cases (rs.flatMap Row.operands).find? fun p => ¬Row.Fits p.2 with
      | some p => rfl
      | none   => rfl

theorem firstTooLarge?_eq_none : Catalogue.firstTooLarge? rs = none ↔ ∀ r ∈ rs, HasRow r := by
  simp only [Catalogue.firstTooLarge?, List.find?_eq_none, List.mem_flatMap, decide_eq_true_eq, not_not,
    HasRow, forall_exists_index, and_imp]
  exact ⟨fun h r hr p hp => h p r hr hp, fun h p r hr hp => h r hr p hp⟩

theorem add_eq :
    (holding t).add rs = match Catalogue.firstTooLarge? rs with
      | some (operand, n) => .error (.invalidRow (.tooLarge operand n))
      | none =>
        if t.Admits rs then .ok (holding (t.adding rs)) else .error (.sql (.refused .duplicateId)) := by
  rw [add]
  split
  case isTrue he =>
    rw [List.isEmpty_iff.mp he]
    exact (if_pos (Table.admits_nil t)).symm
  case isFalse =>
    rw [mapM_encode_eq]
    cases hf : Catalogue.firstTooLarge? rs with
    | some p => rfl
    | none =>
      change ((insertRows t (Table.rowsOf rs)).2.mapError Fault.sql >>= _) = _
      rw [insertRows_eq]
      by_cases ha : t.Admits rs
      case pos =>
        rw [Table.insert?_of_admits ha]
        exact (if_pos ha).symm
      case neg =>
        rw [Table.insert?_of_not_admits (firstTooLarge?_eq_none.mp hf) ha]
        exact (if_neg ha).symm

theorem add_of_admits (ha : t.Admits rs) : (holding t).add rs = .ok (holding (t.adding rs)) := by
  rw [add_eq, firstTooLarge?_eq_none.mpr ha.rows]
  exact if_pos ha

theorem add_of_not_admits (hn : ¬t.Admits rs) : ∃ e, (holding t).add rs = .error e := by
  rw [add_eq]
  cases Catalogue.firstTooLarge? rs with
  | some p => exact ⟨_, rfl⟩
  | none   => exact ⟨_, if_neg hn⟩

theorem eq_holding_of_change {db : Database} (hc : db.change = .ok t) : db = holding t := by
  obtain ⟨table, isOpen, isReadOnly⟩ := db
  cases table <;> cases isOpen <;> cases isReadOnly <;> cases hc
  rfl

theorem eq_holding_of_add {db db' : Database} (hr : r ∈ rs) (ha : db.add rs = .ok db') :
    ∃ t, db = holding t := by
  have hn : rs.isEmpty = false := List.isEmpty_eq_false_iff.mpr (List.ne_nil_of_mem hr)
  cases hc : db.change with
  | error e =>
    rw [add, hn, mapM_encode_eq, hc] at ha
    cases hf : Catalogue.firstTooLarge? rs <;> rw [hf] at ha <;> cases ha
  | ok t => exact ⟨t, eq_holding_of_change hc⟩

end Database

theorem holding_of_migrated {isLocked : Bool} {j : Journal} {schema : Schema} {db : Database}
    (hm : Disk.migrated isLocked j schema = .ok db) (hw : db.isReadOnly = false) :
    ∃ t, db = .holding t := by
  cases schema with
  | records t =>
    cases hm
    exact ⟨t, congrArg (Database.mk (some t) true) hw⟩
  | foreign   =>
    rw [Disk.migrated] at hm
    split at hm <;> cases hm
  | empty     =>
    rw [Disk.migrated] at hm
    split at hm
    case isTrue  => cases hm
    case isFalse => cases hm; exact ⟨∅, rfl⟩

theorem holding_of_openDatabase {d d' : Disk} {path : List Char} {ns : List Log.Notice} {c : Connection}
    (ho : d.openDatabase path = (ns, d', .ok c)) (hw : c.database.isReadOnly = false) :
    ∃ t, c.database = .holding t := by
  cases Disk.opened_of_openDatabase ho with
  | mk _ _ _ _ hm => exact holding_of_migrated hm hw

end WriteBehind.Storage
