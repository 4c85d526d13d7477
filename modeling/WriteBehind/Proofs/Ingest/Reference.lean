import WriteBehind.Proofs.Ingest.Execution
import WriteBehind.Proofs.Ingest.Usual
import WriteBehind.Proofs.Storage.Reopening
import WriteBehind.Proofs.Text.Pieces

namespace WriteBehind.Ingest

open Chunk (windows)
open Storage (Connection Database Disk Extends IsFirstConflict Table)
open Text (Utf8.decode)
open Writer (Representable)

variable {p : Plan} {settings : Settings} {items : List Item} {t : Table} {s : State}
variable {bytes standard : List UInt8} {text : List Char} {disk disk' opened : Disk} {c : Connection}
variable {last : Option State}

-- What the records before a conflict make of a table, and of the counts of a report.
structure Counts (size : Nat) (items : List Item) (t : Table) (k : Nat) (r : Report) (t' : Table) :
    Prop where
  cut       : ∀ i, (windows size (records items))[i]? =
    if i * size < (records items).length then some (((records items).drop (i * size)).take size)
    else none
  conflict  : IsFirstConflict t (windows size (records items)) k
  table     : Extends t ((windows size (records items)).take k).flatten t'
  lines     : r.lines = (significant items).length
  accepted  : r.accepted = (records items).length
  invalid   : r.accepted + r.invalid = r.lines
  written   : r.written = ((windows size (records items)).take k).flatten.length
  discarded : r.written + r.discarded = r.accepted
  whole     : r.interrupted = false

structure State.Ends (p : Plan) (items : List Item) (t : Table) (s : State) : Prop where
  report   : s.reader = .done (.ok (expected p.settings items t))
  database : s.database = .holding (final p.settings items t)

theorem fault_ofBytes (ht : Utf8.decode bytes = .ok text) : fault? (Item.ofBytes bytes) = none := by
  have of_pieces {ps : List (List UInt8)} (hr : ∀ p ∈ ps, Text.Utf8.Readable p) :
      fault? (Item.ofPieces ps) = none := by
    induction ps with
    | nil => rfl
    | cons p ps ih =>
      have ⟨t, hp⟩ := (hr p List.mem_cons_self).decodeFrom 0
      have hl : Text.Lines.read p = .ok (Text.Lines.chomp t) := by
        rw [Text.Lines.read, Utf8.decode, hp]
        rfl
      rw [Item.ofPieces, hl]
      exact ih fun q hq => hr q (List.mem_cons_of_mem p hq)
  exact of_pieces (Text.Lines.readable_of_mem_pieces (Text.Utf8.readable_of_decodeFrom ht))

theorem length_records_le : (records items).length ≤ (significant items).length := by
  induction items with
  | nil => exact Nat.le_refl _
  | cons item items ih =>
    rw [← List.singleton_append, records_append, significant_append, List.length_append,
      List.length_append]
    refine Nat.add_le_add ?_ ih
    cases item with
    | fault => exact Nat.le_refl _
    | line l =>
      by_cases hv : Record.isVoid l = true
      case pos =>
        have hl : Record.ofLine l = .ok none := by rw [Record.ofLine, if_pos hv]
        simp [records_line hl, Except.toOption]
      case neg =>
        rw [records_line rfl, significant_line hv]
        exact Option.length_toList_le

theorem stored_eq {size : Nat} : stored size items t =
    ((windows size (records items)).take (t.admitted (windows size (records items))).length).flatten :=
  congrArg _ (List.prefix_iff_eq_take.mp Table.prefix_admitted)

theorem counts_expected (hz : 0 < settings.chunkSize) : ∃ k,
    Counts settings.chunkSize items t k (expected settings items t) (final settings items t) := by
  refine ⟨_, Chunk.getElem?_windows hz _, Table.isFirstConflict_admitted, ?_, rfl, rfl, ?_, ?_, ?_,
    rfl⟩
  · rw [← stored_eq, final]
    exact Storage.extends_adding Table.admits_admitted
  · exact Nat.add_sub_cancel' length_records_le
  · rw [← stored_eq]
    rfl
  · refine Nat.add_sub_cancel' ?_
    have hs : stored settings.chunkSize items t <+: (windows settings.chunkSize (records items)).flatten :=
      Table.prefix_admitted.flatten
    rw [Chunk.flatten_windows hz] at hs
    exact hs.length_le

theorem ends_of_done {h : Writer.History (List Record) Flush.Receipt} {r : Except Fault Report}
    (f : Follows p items t h s) (hi : s.interrupted = false) (hz : 0 < p.settings.chunkSize)
    (hd : p.settings.writer.drainOnClose = true) (hb : s.writer.loop ≠ .broken)
    (hr : s.reader = .done r) : s.Ends p items t := by
  have ⟨he, ht⟩ := f.done hi hz hd hb hr
  exact ⟨he ▸ hr, ht⟩

theorem ends_of_steps {ns : List Log.Notice} {r : Except Fault Report} (hz : 0 < p.settings.chunkSize)
    (hd : p.settings.writer.drainOnClose = true) (hf : fault? items = none)
    (hs : Steps p (p.reading items (.holding t)) ns s)
    (ht : Representable (s.writer.now + p.settings.writer.interval)) (hi : s.interrupted = false)
    (hr : s.reader = .done r) : s.Ends p items t := by
  have ⟨h, f⟩ := Follows.of_steps hf hs
  have reach : Writer.Reachable (Writer.inChunks p.settings.writer p.settings.chunkSize) h s.writer :=
    f.reachable
  have hb : s.writer.loop ≠ .broken := fun hl => Writer.unrepresentable_of_broken reach hl ht
  exact ends_of_done f hi hz hd hb hr

theorem ends_of_fair (e : Execution p (p.reading items (.holding t))) (hs : p.settings.check = .ok ())
    (hd : p.settings.writer.drainOnClose = true) (hf : fault? items = none) (hfair : e.Fair) :
    ∃ n, ∀ i ≥ n, (∃ r, (e.state i).reader = .done r) ∧
      (e.InTime → (e.state i).interrupted = false → (e.state i).Ends p items t) := by
  have ⟨hz, hk, _⟩ := sizes_of_check hs
  have ⟨n, r, hr⟩ := e.exists_done .start hk hfair
  refine ⟨n, fun i hi => ?_⟩
  have hr := e.done_of_le hr hi
  refine ⟨⟨r, hr⟩, fun ht hn => ?_⟩
  have ⟨h, f⟩ := e.follows hf i
  have hb := e.not_broken .start (by simp [Plan.reading, Writer.Setup.opened]) ht i
  exact ends_of_done f hn hz hd hb hr

theorem Feeds.of_runs {r : Except Fault Report} (f : Feeds p standard disk opened c items)
    (hs : p.settings.check = .ok ()) (hr : Runs p standard disk last disk' r) :
    ∃ s, last = some s ∧ disk' = opened.save { c with database := s.database } ∧ s.reader = .done r ∧
      ∃ ns, Steps p (p.reading items c.database) ns s := by
  obtain ⟨⟨_, ho⟩, ⟨_, hi⟩⟩ := f
  cases hr with
  | rejected hs'         => cases hs.symm.trans hs'
  | unopened _ ho'       => cases ho.symm.trans ho'
  | unread _ ho' hi'     =>
    cases ho.symm.trans ho'
    cases hi.symm.trans hi'
  | read _ ho' hi' st hr =>
    cases ho.symm.trans ho'
    cases hi.symm.trans hi'
    exact ⟨_, rfl, rfl, hr, _, st⟩

structure Delivers (p : Plan) (items : List Item) (t : Table) (opened : Disk) (a : Storage.Address)
    (r : Except Fault Report) (disk' : Disk) : Prop where
  report : r = .ok (expected p.settings items t)
  file   : a.InFile → opened.rowsAt? a.path = some t ∧
    disk'.rowsAt? a.path = some (final p.settings items t)
  memory : ¬a.InFile → t = ∅ ∧ disk' = opened

theorem delivers_of_feeds (f : Feeds p standard disk opened c items) (ht : c.database = .holding t)
    (hs : p.settings.check = .ok ()) (hd : p.settings.writer.drainOnClose = true)
    (hf : fault? items = none) : ∃ a, disk.Serves p.settings.database.toList opened c a ∧
      ∀ last disk' r, Runs p standard disk last disk' r → ∃ s, last = some s ∧
        (Representable (s.writer.now + p.settings.writer.interval) → s.interrupted = false →
          Delivers p items t opened a r disk') := by
  have ⟨hz, _⟩ := sizes_of_check hs
  have ⟨_, ho⟩ := f.opens
  have ⟨a, sv⟩ := Disk.exists_serves ho
  refine ⟨a, sv, fun last disk' r hr => ?_⟩
  obtain ⟨s, rfl, rfl, hr, _, st⟩ := f.of_runs hs hr
  refine ⟨s, rfl, fun hp hi => ?_⟩
  have e := ends_of_steps hz hd hf (ht ▸ st) hp hi hr
  constructor
  case report => exact Reader.done.inj (hr.symm.trans e.report)
  case file   =>
    intro ha
    have ⟨_, now, later⟩ := sv.file ha
    rw [now, later _ (by simp [e.database, Database.holding]), ht, e.database]
    exact ⟨rfl, rfl⟩
  case memory =>
    intro ha
    have ⟨he, hn⟩ := sv.memory ha
    rw [ht] at he
    exact ⟨Option.some.inj he, hn _⟩

-- A comment, a record, a line that is none, another record, and the first one once more.
def repeating : List Char :=
  let record (c : Char) : List Char :=
    ['[', c, ',', c, ',', c, ','] ++ "\"1970-01-01T00:00:00Z\",\"1970-01-01T00:00:00Z\",".toList ++
      [c, ']', '\n']
  "# c\n".toList ++ record '7' ++ "x\n".toList ++ record '8' ++ record '7'

def narrow : Plan :=
  { settings := { chunkSize := 2, writer := { capacity := 1, drainOnClose := true } } }

def narrowed : State := narrow.reading (Item.ofBytes (Text.Utf8.encode repeating)) (.holding ∅)

end WriteBehind.Ingest
