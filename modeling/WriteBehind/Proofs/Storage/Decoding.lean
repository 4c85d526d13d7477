import WriteBehind.Proofs.Record.Shown
import WriteBehind.Proofs.Storage.Insertion

namespace WriteBehind

variable {r : Record} {rs : List Record} {t : Storage.Table} {id limit offset : UInt64}

structure Record.HasPlainYears (r : Record) : Prop where
  start  : r.start.HasPlainYear
  finish : r.finish.HasPlainYear

theorem Record.hasPlainYears_iff :
    r.HasPlainYears ↔ r.start.HasPlainYear ∧ r.finish.HasPlainYear where
  mp  := fun ⟨start, finish⟩ => ⟨start, finish⟩
  mpr := fun ⟨start, finish⟩ => ⟨start, finish⟩

instance : Decidable r.HasPlainYears := decidable_of_iff' _ Record.hasPlainYears_iff

namespace Storage

theorem Row.ofRecord_shown (r : Record) : ofRecord r.shown = ofRecord r := by
  simp only [ofRecord, Record.shown, Time.Instant.text_shown]

theorem Row.key_shown (r : Record) : key r.shown = key r := rfl

theorem Row.unsigned_toNat {c : Column} {n : UInt64} : Row.unsigned c n.toNat = .ok n := by
  rw [unsigned, if_pos (Int.natCast_nonneg _), Int.toNat_natCast]
  exact congrArg Except.ok UInt64.ofNat_toNat

-- The first year with a sign is told.
theorem Row.decode_ofRecord :
    (Row.ofRecord r).decode (Row.key r) =
      if ¬r.start.HasPlainYear then .error (.noTimestamp .start r.start.text .invalid)
      else if ¬r.finish.HasPlainYear then .error (.noTimestamp .finish r.finish.text .invalid)
      else .ok r.shown := by
  simp only [decode, ofRecord, key, unsigned_toNat, bind, Except.bind, pure, Except.pure, timestamp]
  by_cases hs : r.start.HasPlainYear
  case neg =>
    rw [if_pos hs, Time.Strict.read_text_of_sign hs]
    rfl
  by_cases hf : r.finish.HasPlainYear
  case neg =>
    rw [if_neg (not_not.mpr hs), if_pos hf, Time.Strict.read_text hs, Time.Strict.read_text_of_sign hf]
    rfl
  rw [if_neg (not_not.mpr hs), if_neg (not_not.mpr hf), Time.Strict.read_text hs,
    Time.Strict.read_text hf]
  rfl

theorem Row.decode_of_hasPlainYears (hr : r.HasPlainYears) :
    (Row.ofRecord r).decode (Row.key r) = .ok r.shown := by
  rw [decode_ofRecord, if_neg (not_not.mpr hr.start), if_neg (not_not.mpr hr.finish)]

theorem Row.decode_of_not_hasPlainYears (hr : ¬r.HasPlainYears) :
    ∃ c s, (Row.ofRecord r).decode (Row.key r) = .error (.noTimestamp c s .invalid) := by
  rw [decode_ofRecord]
  split
  case isTrue => exact ⟨_, _, rfl⟩
  case isFalse hs =>
    split
    case isTrue => exact ⟨_, _, rfl⟩
    case isFalse hf => exact absurd ⟨not_not.mp hs, not_not.mp hf⟩ hr

def Row.Keeps (r : Record) : Prop := (ofRecord r).decode (key r) = .ok r

theorem Row.keeps_shown (hr : r.HasPlainYears) : Keeps r.shown := by
  rw [Keeps, ofRecord_shown, key_shown]
  exact decode_of_hasPlainYears hr

theorem Table.mapM_decode (hr : ∀ r ∈ rs, Row.Keeps r) :
    (rowsOf rs).mapM (fun p => p.2.decode p.1) = .ok rs := by
  rw [mapM_eq_ok, rowsOf, List.forall₂_map_left_iff, List.forall₂_same]
  exact hr

namespace Database

theorem statement_holding : (holding t).statement = .ok t := rfl

theorem find?_of_absent (hi : Row.Fits id) (hk : t[(id.toNat : Int)]? = none) :
    (holding t).find? id = .ok none := by
  simp only [find?, Row.check, if_pos hi, statement_holding, hk, Except.mapError, bind, Except.bind,
    pure, Except.pure]

theorem find?_of_row {row : Row} (hi : Row.Fits id) (hk : t[(id.toNat : Int)]? = some row) :
    (holding t).find? id = ((row.decode id.toNat).mapError .invalidRow).map some := by
  simp only [find?, Row.check, if_pos hi, statement_holding, hk, Except.mapError, bind, Except.bind,
    pure, Except.pure]
  cases row.decode id.toNat with
  | ok r    => rfl
  | error e => rfl

theorem page_eq (hl : Row.Fits limit) (ho : Row.Fits offset) :
    (holding t).page limit offset = ((t.page limit.toNat offset.toNat).mapM
      fun (p : Int × Row) => p.2.decode p.1).mapError .invalidRow := by
  rw [page, Row.check, Row.check, if_pos hl, if_pos ho]
  rfl

end Database

end Storage
end WriteBehind
