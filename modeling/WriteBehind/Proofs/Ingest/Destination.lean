import WriteBehind.Proofs.Ingest.Failure

namespace WriteBehind.Ingest

open Flush (Receipt)
open Log (Notice)
open Storage (Address Connection Database Disk Extends IsPlain Table)
open Writer (History Reachable)

variable {p : Plan} {items : List Item} {d : Database} {t : Table} {ns : List Notice}
variable {h : History (List Record) Receipt} {s : State} {r : Report}
variable {standard : List UInt8} {disk disk' opened : Disk} {last : Option State} {c : Connection}

structure Puts (opened : Disk) (a : Address) (r : Report) (disk' : Disk) : Prop where
  file   : a.InFile → ∃ t rs t', opened.rowsAt? a.path = some t ∧ disk'.rowsAt? a.path = some t' ∧
    Extends t rs t' ∧ rs.length = r.written ∧ t'.size = t.size + r.written
  memory : ¬a.InFile → disk' = opened

theorem gains_of_runs (hr : Runs p standard disk last disk' (.ok r)) :
    ∃ ns opened c t rs d, disk.openDatabase p.settings.database.toList = (ns, opened, .ok c) ∧
      c.database.table = some t ∧ t.Admits rs ∧ rs.length = r.written ∧
      d.table = some (t.adding rs) ∧ disk' = opened.save ⟨d, c.file⟩ := by
  cases hr with
  | @unread _ _ c e _ _ _ _ _ s _ _ ho _ st _ hc st' hr =>
    have i := ((Idle.start.of_steps st).close hc).of_steps st'
    have ⟨_, r', hr', he⟩ := i.reader.resolve_left (by simp [hr])
    cases (hr.symm.trans hr').trans (congrArg _ (he e rfl))
  | @read ns opened c _ items _ s _ _ ho _ st hr =>
    obtain ⟨_, _, _, _, hm, _⟩ := Disk.opened_of_openDatabase ho
    have ⟨t, ht, _⟩ := Disk.table_of_migrated hm
    have ⟨h, g⟩ := Gains.of_steps ht st
    have hl := g.attended.of_done hr
    have hw := g.reported r hr
    have reach : Reachable (Writer.inChunks p.settings.writer p.settings.chunkSize) h s.writer :=
      g.reachable
    refine ⟨ns, opened, c, t, h.acknowledged.flatten, s.database, ho, ht, g.stored.admits, ?_, ?_, rfl⟩
    · rw [← Writer.written_of_isOver reach hl, hw]
      rfl
    · rw [g.stored.database]

-- What is opened for a path is the database at the address that the path makes, and a run puts its rows
-- there: into the file at the path if the path says the same as an address, but into no file if the
-- address is one in memory.
theorem serves_of_openDatabase
    (ho : disk.openDatabase p.settings.database.toList = (ns, opened, .ok c)) :
    ∃ a, disk.Serves p.settings.database.toList opened c a ∧
      ∀ standard last disk' r, Runs p standard disk last disk' (.ok r) → Puts opened a r disk' := by
  have ⟨a, sv⟩ := Disk.exists_serves ho
  refine ⟨a, sv, fun standard last disk' r hr => ?_⟩
  obtain ⟨_, _, _, t, rs, d, ho', ht, hd, hl, hs, rfl⟩ := gains_of_runs hr
  cases ho.symm.trans ho'
  constructor
  case file =>
    intro hi
    have ⟨_, ht', hf⟩ := sv.file hi
    have hw := Storage.Table.size_adding hd
    rw [hl] at hw
    exact ⟨t, rs, _, ht'.trans ht, (hf d (by simp [hs])).trans hs, Storage.extends_adding hd, hl, hw⟩
  case memory => exact fun hi => (sv.memory hi).right d

theorem runs_of_written {n : Nat}
    (h : (run p standard disk).2.2.toOption.map (·.written) = some n) : ∃ last r,
      Runs p standard disk last (run p standard disk).2.1 (.ok r) ∧ r.written = n := by
  cases hr : (run p standard disk).2.2 with
  | error e => rw [hr] at h; cases h
  | ok r    =>
    have ⟨last, rs⟩ := runs_of_run p standard disk
    rw [hr] at h rs
    exact ⟨last, r, rs, Option.some.inj h⟩

theorem serves_of_openDatabase_of_standard : ∃ ns opened c a last disk' r,
    ({} : Disk).openDatabase narrowStandard.settings.database.toList = (ns, opened, .ok c) ∧
      Runs narrowStandard (Text.Utf8.encode repeating) {} last disk' (.ok r) ∧ r.written = 2 ∧
      ({} : Disk).Serves narrowStandard.settings.database.toList opened c a ∧ Puts opened a r disk' := by
  have hp : IsPlain narrowStandard.settings.database.toList :=
    ⟨by decide, Address.not_hasEscape (by decide), by decide, by decide, by decide⟩
  have he : (run narrowStandard (Text.Utf8.encode repeating) {}).2.2.toOption.map (·.written) = some 2 := by
    rw [run, Disk.openDatabase, Address.ofFile_of_isPlain hp]
    decide +kernel
  obtain ⟨last, r, rs, hw⟩ := runs_of_written he
  obtain ⟨ns, opened, c, _, _, _, ho, _⟩ := gains_of_runs rs
  obtain ⟨a, sv, ps⟩ := serves_of_openDatabase ho
  exact ⟨ns, opened, c, a, last, _, r, ho, rs, hw, sv, ps _ _ _ _ rs⟩

def narrowMemory : Plan :=
  { narrowStandard with settings := { narrowStandard.settings with database := ":memory:" } }

def bytes? : Storage.Node → Option (List UInt8)
  | .file bytes => some bytes
  | _           => none

theorem eq_of_bytes? {n : Storage.Node} {bytes : List UInt8} (h : bytes? n = some bytes) :
    n = .file bytes := by
  cases n with
  | file => exact congrArg _ (Option.some.inj h)
  | _    => cases h

-- Two rows are reported as written, and the file of that name is still empty.
theorem not_puts_of_memory : ∃ last disk' r,
    Runs narrowMemory (Text.Utf8.encode repeating) {} last disk' (.ok r) ∧ r.written = 2 ∧
      disk'.get? [":memory:".toList] = some (.file []) ∧ disk'.rowsAt? ":memory:".toList = none := by
  have he : (run narrowMemory (Text.Utf8.encode repeating) {}).2.2.toOption.map (·.written) = some 2 ∧
      ((run narrowMemory (Text.Utf8.encode repeating) {}).2.1.get? [":memory:".toList]).bind bytes? =
        some [] ∧
      ((run narrowMemory (Text.Utf8.encode repeating) {}).2.1.rowsAt? ":memory:".toList).isNone = true := by
    rw [run, Disk.openDatabase, narrowMemory, Address.ofFile_memory]
    decide +kernel
  obtain ⟨hw, hf, hn⟩ := he
  obtain ⟨last, r, rs, hw⟩ := runs_of_written hw
  obtain ⟨n, hg, hb⟩ := Option.bind_eq_some_iff.mp hf
  exact ⟨last, _, r, rs, hw, eq_of_bytes? hb ▸ hg, by simpa using hn⟩

end WriteBehind.Ingest
