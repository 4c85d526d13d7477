import WriteBehind.Proofs.Ingest.Course
import WriteBehind.Proofs.Storage.Admission
import WriteBehind.Proofs.Writer.Shutdown

namespace WriteBehind.Ingest

open Flush (Receipt)
open Storage (Table)
open Writer (History Reachable inChunks)

variable {p : Plan} {items : List Item} {t : Table} {h : History (List Record) Receipt} {s : State}

namespace Follows

-- The chunks that are acknowledged at the end are those that the table admits one after the other.
theorem admitted_eq (f : Follows p items t h s) (hz : 0 < p.settings.chunkSize)
    (hd : p.settings.writer.drainOnClose = true) (hl : s.writer.loop = .ended) :
    t.admitted (Chunk.windows p.settings.chunkSize h.saved) = h.acknowledged := by
  have r : Reachable (inChunks p.settings.writer p.settings.chunkSize) h s.writer := f.reachable
  have ⟨later, hw, hn⟩ := Writer.windows_of_ended hz hd r hl
  rw [hw]
  apply Table.admitted_eq f.stored.admits
  intro chunk hc
  have ⟨xs, e, hx, ht⟩ := hn chunk hc
  exact ht ▸ f.stored.refuses rfl xs chunk e [] hx

theorem report_eq (f : Follows p items t h s) (hi : s.interrupted = false)
    (hz : 0 < p.settings.chunkSize) (hd : p.settings.writer.drainOnClose = true)
    (ta : Tally items [] h s) (hl : s.writer.loop = .ended) :
    s.report p = expected p.settings items t := by
  have r : Reachable (inChunks p.settings.writer p.settings.chunkSize) h s.writer := f.reachable
  have hs : h.saved = records items := by rw [← ta.saved, List.append_nil]
  have hst : Ingest.stored p.settings.chunkSize items t = h.acknowledged.flatten := by
    rw [Ingest.stored, ← hs, f.admitted_eq hz hd hl]
  have ha : s.accepted = (records items).length := hs ▸ ta.accepted
  have hv : s.invalid = (significant items).length - (records items).length := by
    have hv := ta.invalid
    have hn := ta.lines
    simp only [List.length_nil] at hv
    omega
  have hb := Writer.balance_of_ended r hl
  have hw : s.writer.stats.written = h.acknowledged.flatten.length :=
    Writer.written_of_isOver r (by simp [hl, Writer.Loop.IsOver])
  have hdis : s.writer.stats.discarded = (records items).length - h.acknowledged.flatten.length := by
    rw [hs] at hb
    omega
  simp only [State.report, expected, hst, ta.lines, ha, hv, hw, hdis, hi]

theorem done (f : Follows p items t h s) (hi : s.interrupted = false)
    (hz : 0 < p.settings.chunkSize) (hd : p.settings.writer.drainOnClose = true)
    (hb : s.writer.loop ≠ .broken) {r : Except Fault Report} (hr : s.reader = .done r) :
    r = .ok (expected p.settings items t) ∧ s.database = .holding (final p.settings items t) := by
  cases f.reads hb hi with
  | done hr' ta hl =>
    cases hr'.symm.trans hr
    have hs : h.saved = records items := by rw [← ta.saved, List.append_nil]
    refine ⟨congrArg _ (f.report_eq hi hz hd ta hl), ?_⟩
    rw [f.stored.database, final, Ingest.stored, ← hs, f.admitted_eq hz hd hl]
    rfl
  | _ => simp_all

end Follows

end WriteBehind.Ingest
