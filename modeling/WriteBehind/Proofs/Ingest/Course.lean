import WriteBehind.Proofs.Ingest.Gains

namespace WriteBehind.Ingest

open Flush (Receipt)
open Log (Notice)
open Storage (Database Table)
open Writer (History Turn)

variable {p : Plan} {items past rest : List Item} {t : Table} {pending : List Record} {m : Move}
variable {h os : History (List Record) Receipt} {s s' : State} {ns : List Notice}
variable {writer : Writer.State (List Record) Receipt}

section Items

variable {l : List Char} {r : Record}

theorem records_append (xs ys : List Item) : records (xs ++ ys) = records xs ++ records ys :=
  List.filterMap_append

theorem significant_append (xs ys : List Item) :
    significant (xs ++ ys) = significant xs ++ significant ys :=
  List.filterMap_append

theorem isVoid_of_ofLine (hl : Record.ofLine l = .ok none) : Record.isVoid l = true := by
  by_contra hv
  rw [Record.ofLine, if_neg hv] at hl
  cases hr : Record.read (Text.trim l) <;> simp [hr, Except.map] at hl

theorem not_isVoid_of_ofLine {x : Except Json.Fault (Option Record)} (hl : Record.ofLine l = x)
    (hx : x ≠ .ok none) : ¬Record.isVoid l = true :=
  fun hv => hx (hl ▸ by rw [Record.ofLine, if_pos hv])

theorem records_line {x : Except Json.Fault (Option Record)} (hl : Record.ofLine l = x) :
    records [.line l] = x.toOption.join.toList := by
  subst hl
  simp only [records, List.filterMap_cons, List.filterMap_nil]
  cases (Record.ofLine l).toOption.join <;> rfl

theorem significant_line (hv : ¬Record.isVoid l = true) : significant [.line l] = [l] := by
  simp [significant, hv]

theorem significant_void (hv : Record.isVoid l = true) : significant [.line l] = [] := by
  simp [significant, hv]

theorem not_fault {text : String} (hf : fault? items = none) (hi : items = past ++ .fault text :: rest) :
    False := by
  have hn := List.findSome?_eq_none_iff.mp hf (.fault text) (by simp [hi])
  simp at hn

end Items

-- What the reader has made of the items it has dealt with: the records are accepted, but for one that
-- it holds or that waits.
structure Tally (past : List Item) (pending : List Record) (h : History (List Record) Receipt)
    (s : State) : Prop where
  saved    : h.saved ++ pending = records past
  lines    : s.lines = (significant past).length
  accepted : s.accepted = h.saved.length
  invalid  : s.accepted + pending.length + s.invalid = s.lines

inductive Reads (p : Plan) (items : List Item) (h : History (List Record) Receipt) (s : State) : Prop
  | reading {past rest : List Item} :
    s.reader = .reading rest →
    items = past ++ rest →
    Tally past [] h s →
    Reads p items h s
  | holding {past rest : List Item} {r : Record} :
    s.reader = .holding r rest →
    items = past ++ rest →
    Tally past [r] h s →
    Reads p items h s
  | saving {past rest : List Item} {r : Record} :
    s.reader = .saving rest →
    items = past ++ rest →
    Tally past [r] h s →
    s.writer.intake.waiting = [⟨State.saveTicket, r⟩] →
    Reads p items h s
  | closing :
    s.reader = .closing none →
    Tally items [] h s →
    Reads p items h s
  | done :
    s.reader = .done (.ok (s.report p)) →
    Tally items [] h s →
    s.writer.loop = .ended →
    Reads p items h s

-- Where the loop is broken or the run was interrupted, nothing is known of the reader.
structure Follows (p : Plan) (items : List Item) (t : Table) (h : History (List Record) Receipt)
    (s : State) : Prop extends Gains p (.holding t) t h s where
  reads  : s.writer.loop ≠ .broken → s.interrupted = false → Reads p items h s

theorem Tally.still (ta : Tally past pending h s) (ha : os.accepted = []) (hl : s'.lines = s.lines)
    (hc : s'.accepted = s.accepted) (hi : s'.invalid = s.invalid) : Tally past pending (h ++ os) s' := by
  have hs : (h ++ os).saved = h.saved := by
    rw [History.saved, History.accepted_append, ha, List.append_nil]
    rfl
  exact ⟨hs ▸ ta.saved, hl.trans ta.lines, hs ▸ hc.trans ta.accepted, by rw [hc, hi, hl, ta.invalid]⟩

theorem Reads.turn (rd : Reads p items h s) (u : Turn p.setup s.writer os writer) (d : Database) :
    Reads p items (h ++ os) { s with writer, database := d } := by
  have ta {past pending} (ta : Tally past pending h s) :
      Tally past pending (h ++ os) { s with writer, database := d } :=
    ta.still (Writer.silent_of_turn u).left rfl rfl rfl
  cases rd with
  | reading hr hi hta   => exact .reading hr hi (ta hta)
  | holding hr hi hta   => exact .holding hr hi (ta hta)
  | saving hr hi hta hq => exact .saving hr hi (ta hta) ((Writer.kept_of_turn u).waiting.trans hq)
  | closing hr hta      => exact .closing hr (ta hta)
  | done _ _ he         => cases u <;> simp_all

theorem Reads.still (rd : Reads p items h s) (n : Nat) (b : Bool) :
    Reads p items h { s with writer := { s.writer with now := n }, cancelled := b } := by
  have ta {past pending} (ta : Tally past pending h s) :
      Tally past pending h { s with writer := { s.writer with now := n }, cancelled := b } :=
    ⟨ta.saved, ta.lines, ta.accepted, ta.invalid⟩
  cases rd with
  | reading hr hi hta   => exact .reading hr hi (ta hta)
  | holding hr hi hta   => exact .holding hr hi (ta hta)
  | saving hr hi hta hq => exact .saving hr hi (ta hta) hq
  | closing hr hta      => exact .closing hr (ta hta)
  | done hr hta he      => exact .done hr (ta hta) he

section Reader

variable {l : List Char} {r : Record}

theorem Tally.skip {x : Except Json.Fault (Option Record)} (ta : Tally past [] h s)
    (hl : Record.ofLine l = x) (hx : x.toOption.join = none)
    (hn : s'.lines = s.lines + (significant [.line l]).length) (hc : s'.accepted = s.accepted)
    (hi : s'.invalid = s.invalid + (significant [.line l]).length) :
    Tally (past ++ [.line l]) [] h s' where
  saved    := by rw [records_append, records_line hl, hx, ta.saved]; simp
  lines    := by rw [significant_append, List.length_append, hn, ta.lines]
  accepted := hc.trans ta.accepted
  invalid  := by
    have hv := ta.invalid
    simp only [List.length_nil] at hv ⊢
    omega

theorem Tally.enter (ta : Tally past [] h s) (hl : Record.ofLine l = .ok (some r))
    (hn : s'.lines = s.lines + 1) (hc : s'.accepted = s.accepted) (hi : s'.invalid = s.invalid) :
    Tally (past ++ [.line l]) [r] h s' where
  saved    := by
    rw [records_append, records_line hl, ← ta.saved]
    simp [Except.toOption]
  lines    := by
    rw [significant_append, significant_line (not_isVoid_of_ofLine hl (by simp)), List.length_append, hn,
      ta.lines]
    rfl
  accepted := hc.trans ta.accepted
  invalid  := by
    have hv := ta.invalid
    simp only [List.length_nil, List.length_singleton] at hv ⊢
    omega

theorem Reads.saved (hx : items = past ++ rest) (ta : Tally past [r] h s) :
    Reads p items (h ++ [.saved State.saveTicket r (.ok ())])
      (State.afterSave rest [.saved State.saveTicket r (.ok ())] { s with writer }) := by
  have ha : History.saved (h ++ [.saved State.saveTicket r (.ok ())]) = h.saved ++ [r] := by
    rw [History.saved, History.accepted_append, List.map_append]
    rfl
  refine .reading rfl hx ⟨?_, ta.lines, ?_, ta.invalid⟩
  · rw [ha, List.append_nil, ta.saved]
  · rw [ha, List.length_append, ← ta.accepted]
    rfl

theorem Reads.of_reading (rd : Reads p items h s) (hr : s.reader = .reading rest) :
    ∃ past, items = past ++ rest ∧ Tally past [] h s := by
  cases rd with
  | reading hr' hx ta =>
    cases hr'.symm.trans hr
    exact ⟨_, hx, ta⟩
  | _ => simp_all

theorem Reads.read (rd : Reads p items h s) (a : Attends p h s) (hf : fault? items = none)
    (hb : s.writer.loop ≠ .broken) (hn : s'.interrupted = false) (g : Reading p s os s') :
    Reads p items (h ++ os) s' := by
  have opened (l : s.Listens) : s.writer.intake.isOpen = true := a.flow.isOpen fun hd => hb (l.loop hd)
  cases g with
  | @close os writer fault rest hr' _ hi hw =>
    obtain ⟨past, hx, ta⟩ := rd.of_reading hr'
    have ⟨l, _⟩ := a.attended.reading_or_holding (.inl ⟨_, hr'⟩)
    obtain ⟨rfl, rfl⟩ := Writer.close_of_running hw l.phase
    rcases hi with ⟨rfl, rfl⟩ | ⟨text, rest, rfl, rfl⟩
    case inl =>
      rw [List.append_nil] at hx
      subst hx
      exact .closing rfl (ta.still rfl rfl rfl rfl)
    case inr => exact absurd hx (not_fault hf)
  | interrupt | forsake => cases hn
  | void hr' _ hl =>
    obtain ⟨past, hx, ta⟩ := rd.of_reading hr'
    have hv := significant_void (isVoid_of_ofLine hl)
    rw [List.append_nil]
    exact .reading rfl (by simpa using hx) (ta.skip hl rfl (by simp [hv]) rfl (by simp [hv]))
  | invalid hr' _ hl =>
    obtain ⟨past, hx, ta⟩ := rd.of_reading hr'
    have hv := significant_line (not_isVoid_of_ofLine hl (by simp))
    rw [List.append_nil]
    exact .reading rfl (by simpa using hx) (ta.skip hl rfl (by simp [hv]) rfl (by simp [hv]))
  | record hr' _ hl =>
    obtain ⟨past, hx, ta⟩ := rd.of_reading hr'
    rw [List.append_nil]
    exact .holding rfl (by simpa using hx) (ta.enter hl rfl rfl rfl)
  | @save r rest os writer hr' _ hw =>
    have ⟨l, hq⟩ := a.attended.reading_or_holding (.inr ⟨_, _, hr'⟩)
    cases rd with
    | holding hr'' hx ta =>
      cases hr''.symm.trans hr'
      rcases (Writer.save_of_open hw l.phase (opened l)).right with ⟨rfl, _⟩ | ⟨rfl, hq'⟩
      case inl => exact .saved hx ta
      case inr =>
        rw [List.append_nil]
        exact .saving rfl hx ⟨ta.saved, ta.lines, ta.accepted, ta.invalid⟩ (hq'.trans (congrArg (· ++ [_]) hq))
    | _ => simp_all
  | @resume rest os writer hr' _ hw =>
    have ⟨l, _⟩ := a.attended.of_saving hr'
    cases rd with
    | saving hr'' hx ta hq =>
      cases hr''.symm.trans hr'
      obtain ⟨_, rfl, _⟩ := Writer.resume_of_open hw hq (opened l)
      exact .saved hx ta
    | _ => simp_all
  | fail hr' => cases rd <;> simp_all
  | @finish os writer hr' hw =>
    cases rd with
    | closing _ ta =>
      have c := Writer.call_of_join hw
      have ⟨hl, hq⟩ := Writer.loop_of_join hw
      have ha : os.accepted = [] := by
        have hq' := c.queue
        rw [hq] at hq'
        simpa using hq'
      exact .done rfl (ta.still ha rfl rfl rfl) (c.loop.trans (hl.resolve_right hb))
    | _ => simp_all

end Reader

namespace Follows

theorem start : Follows p items t [.logged .opened, .opened 0 (.ok ())]
    (p.reading items (.holding t)) where
  toGains   := .start rfl
  reads _ _ := .reading rfl (List.nil_append _).symm ⟨rfl, rfl, rfl, rfl⟩

theorem moved (f : Follows p items t h s) (hf : fault? items = none) (g : Moved p s m os s') :
    Follows p items t (h ++ os) s' := by
  refine ⟨f.toGains.moved g, fun hb hi => ?_⟩
  have hi' : s.interrupted = false := by
    by_contra hn
    exact absurd hi (by simp [(interrupted_of_moved g).left (by simpa using hn)])
  cases g with
  | cancel           => rw [List.append_nil]; exact (f.reads hb hi').still _ true
  | pass             => rw [List.append_nil]; exact (f.reads hb hi').still _ _
  | turn _ _ u       =>
    have hb' : s.writer.loop ≠ .broken := by cases u <;> simp_all
    exact (f.reads hb' hi').turn u s.database
  | answer hl _ hw   =>
    exact (f.reads (by simp [hl]) hi').turn (Writer.turn_of_answer hw) _
  | reader g         =>
    have hl : s'.writer.loop = s.writer.loop := by
      rcases (call_of_reading g).left with ⟨_, hw⟩ | ⟨_, _, _, c⟩
      · exact congrArg _ hw
      · exact c.loop
    exact (f.reads (hl ▸ hb) hi').read f.toAttends hf (hl ▸ hb) hi g

theorem step (f : Follows p items t h s) (hf : fault? items = none)
    (hs : s.step? p m = some (ns, s')) : ∃ os, Follows p items t (h ++ os) s' := by
  have ⟨os, g⟩ := moved_of_step hs
  exact ⟨os, f.moved hf g⟩

theorem of_steps (hf : fault? items = none) (hs : Steps p (p.reading items (.holding t)) ns s) :
    ∃ h, Follows p items t h s := by
  induction hs with
  | refl => exact ⟨_, start⟩
  | step _ hs hi =>
    have ⟨h, f⟩ := hi
    have ⟨os, f'⟩ := f.step hf hs
    exact ⟨h ++ os, f'⟩

end Follows

end WriteBehind.Ingest
