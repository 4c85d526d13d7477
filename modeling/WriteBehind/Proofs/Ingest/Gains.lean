import Mathlib.Data.List.Induction
import WriteBehind.Proofs.Ingest.Moves
import WriteBehind.Proofs.Storage.Insertion

namespace WriteBehind.Ingest

open Flush (Receipt taken)
open Log (Notice)
open Storage (Database Table)
open Writer (History)

variable {p : Plan} {items : List Item} {d d' d'' : Database} {t : Table} {m : Move} {ns : List Notice}
variable {h os : History (List Record) Receipt} {s s' : State} {chunk : List Record} {x : Receipt}

theorem write_of_admits (ha : t.Admits chunk) :
    ∃ ns, (Database.holding t).write chunk = (ns, .ok (), .holding (t.adding chunk)) := by
  rw [Database.write, Database.add_of_admits ha]
  exact ⟨_, rfl⟩

theorem write_cases (ht : d.table = some t) (chunk : List Record) :
    (∃ ns e, d.write chunk = (ns, .error e, d) ∧ (d = .holding t → ¬t.Admits chunk)) ∨
      ∃ ns, t.Admits chunk ∧ d.write chunk = (ns, .ok (), { d with table := some (t.adding chunk) }) := by
  cases ha : d.add chunk with
  | error e =>
    have hw : d.write chunk = ([], .error e, d) := by rw [Database.write, ha]
    refine .inl ⟨[], e, hw, fun hd hn => ?_⟩
    obtain ⟨ns, hw'⟩ := write_of_admits hn
    cases hw.symm.trans (hd ▸ hw')
  | ok d'   =>
    refine .inr ?_
    cases chunk with
    | nil =>
      obtain ⟨table, _, _⟩ := d
      cases ht
      exact ⟨[], Table.admits_nil t, rfl⟩
    | cons r chunk =>
      obtain ⟨t', rfl⟩ := Database.eq_holding_of_add List.mem_cons_self ha
      cases ht
      by_cases hd : t.Admits (r :: chunk)
      case pos =>
        obtain ⟨ns, hw⟩ := write_of_admits hd
        exact ⟨ns, hd, hw⟩
      case neg =>
        obtain ⟨e, he⟩ := Database.add_of_not_admits hd
        cases he.symm.trans ha

-- The table has got what is acknowledged, and that was admitted. What was refused was not, if the database
-- can be written at all.
structure Stored (d : Database) (t : Table) (h : History (List Record) Receipt) (d' : Database) :
    Prop where
  database : d' = { d with table := some (t.adding h.acknowledged.flatten) }
  admits   : t.Admits h.acknowledged.flatten
  refuses  : d = .holding t → ∀ xs chunk e ys, h.answers = xs ++ (chunk, .error e) :: ys →
    ¬(t.adding (taken xs).flatten).Admits chunk

namespace Stored

theorem start (ht : d.table = some t) (hx : h.answers = []) : Stored d t h d := by
  have ha : h.acknowledged = [] := by rw [History.acknowledged_eq, hx]; rfl
  refine ⟨?_, ha ▸ Table.admits_nil t, by simp [hx]⟩
  obtain ⟨table, _, _⟩ := d
  cases ht
  rw [ha]
  rfl

theorem still (st : Stored d t h d') (hx : os.answers = []) : Stored d t (h ++ os) d' := by
  have ha : (h ++ os).answers = h.answers := by rw [History.answers_append, hx, List.append_nil]
  have hk : (h ++ os).acknowledged = h.acknowledged := by
    rw [History.acknowledged_eq, History.acknowledged_eq, ha]
  exact ⟨hk ▸ st.database, hk ▸ st.admits, ha ▸ st.refuses⟩

theorem question_of_concat {α : Type} {qs xs ys : List α} {q q' : α}
    (he : qs ++ [q] = xs ++ q' :: ys) : (qs = xs ∧ q = q') ∨ ∃ ys', qs = xs ++ q' :: ys' := by
  induction ys using List.reverseRecOn with
  | nil =>
    have ⟨hq, hl⟩ := List.append_inj' he rfl
    exact .inl ⟨hq, List.head_eq_of_cons_eq hl⟩
  | append_singleton ys y _ =>
    rw [← List.cons_append, ← List.append_assoc] at he
    exact .inr ⟨ys, (List.append_inj' he rfl).left⟩

theorem answer (st : Stored d t h d') (hw : d'.write chunk = (ns, x, d''))
    (hx : os.answers = [(chunk, x)]) : Stored d t (h ++ os) d'' := by
  have ha : (h ++ os).answers = h.answers ++ [(chunk, x)] := by rw [History.answers_append, hx]
  have hk : (h ++ os).acknowledged = h.acknowledged ++ taken [(chunk, x)] := by
    rw [History.acknowledged_eq, ha, Flush.taken_append]
    rfl
  -- All questions but the last have been asked before.
  have refuses (hlast : d = .holding t → x ≠ .ok () → ¬(t.adding h.acknowledged.flatten).Admits chunk)
      (hd : d = .holding t) : ∀ xs chunk e ys, (h ++ os).answers = xs ++ (chunk, .error e) :: ys →
        ¬(t.adding (taken xs).flatten).Admits chunk := by
    intro xs chunk' e ys he
    rcases question_of_concat (ha.symm.trans he) with ⟨rfl, hq⟩ | ⟨ys', hq⟩
    case inl =>
      cases hq
      exact hlast hd (by simp)
    case inr => exact st.refuses hd xs chunk' e ys' hq
  have ht : d'.table = some (t.adding h.acknowledged.flatten) := by rw [st.database]
  rcases write_cases ht chunk with ⟨ns', e, he, hn⟩ | ⟨ns', hd, he⟩
  case inl =>
    cases he.symm.trans hw
    rw [Flush.taken_error, List.append_nil] at hk
    refine ⟨hk ▸ st.database, hk ▸ st.admits, refuses fun hd _ => hn ?_⟩
    rw [st.database, hd]
    rfl
  case inr =>
    cases he.symm.trans hw
    have hf : (h ++ os).acknowledged.flatten = h.acknowledged.flatten ++ chunk := by
      rw [hk, Flush.taken_ok, List.flatten_append, List.flatten_singleton]
    refine ⟨?_, ?_, refuses fun _ hn => absurd rfl hn⟩
    · rw [hf, Table.adding_append, st.database]
    · rw [hf]
      exact Table.admits_append.mpr ⟨st.admits, hd⟩

end Stored

structure Gains (p : Plan) (d : Database) (t : Table) (h : History (List Record) Receipt)
    (s : State) : Prop extends Attends p h s where
  stored   : Stored d t h s.database
  reported : ∀ r, s.reader = .done (.ok r) → r = s.report p

theorem reported_of_reading {r : Report} (g : Reading p s os s') (hr : s'.reader = .done (.ok r)) :
    r = s'.report p := by
  have of_afterSave {rest os} {s : State} (hr : (s.afterSave rest os).reader = .done (.ok r)) : False := by
    rw [State.afterSave] at hr
    split at hr <;> cases hr
  cases g with
  | save | resume => exact (of_afterSave hr).elim
  | finish _ hw   => cases hr; rfl
  | _             => cases hr

namespace Gains

theorem start (ht : d.table = some t) :
    Gains p d t [.logged .opened, .opened 0 (.ok ())] (p.reading items d) where
  toAttends := .start
  stored    := .start ht rfl
  reported  := nofun

theorem moved (g : Gains p d t h s) (mv : Moved p s m os s') : Gains p d t (h ++ os) s' := by
  refine ⟨g.toAttends.moved mv, ?stored, ?reported⟩
  case stored =>
    cases mv with
    | cancel | pass    => exact g.stored.still rfl
    | turn he hw _     => exact g.stored.still (Writer.answers_of_step hw (isTurn_of_event he).ne_answer)
    | answer hl hd hw  => exact g.stored.answer hd (Writer.answers_of_answer hw hl)
    | reader rd        =>
      obtain ⟨hw, hd⟩ := call_of_reading rd
      rw [hd]
      rcases hw with ⟨rfl, _⟩ | ⟨_, _, _, c⟩
      · exact g.stored.still rfl
      · exact g.stored.still c.answers
  case reported =>
    intro r hr
    have turn {writer} (u : Writer.Turn p.setup s.writer os writer) (hr : s.reader = .done (.ok r)) :
        r = s'.report p := absurd u (g.attended.of_done hr).not_turn
    cases mv with
    | cancel | pass => exact g.reported r hr
    | turn _ _ u    => exact turn u hr
    | answer _ _ hw => exact turn (Writer.turn_of_answer hw) hr
    | reader rd     => exact reported_of_reading rd hr

theorem of_steps (ht : d.table = some t) (hs : Steps p (p.reading items d) ns s) : ∃ h, Gains p d t h s := by
  induction hs with
  | refl => exact ⟨_, start ht⟩
  | step _ hs ih =>
    have ⟨h, g⟩ := ih
    have ⟨os, mv⟩ := moved_of_step hs
    exact ⟨_, g.moved mv⟩

end Gains

end WriteBehind.Ingest
