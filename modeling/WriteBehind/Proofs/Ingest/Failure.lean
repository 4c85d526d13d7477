import WriteBehind.Proofs.Ingest.CutOff
import WriteBehind.Proofs.Ingest.Reference

namespace WriteBehind.Ingest

open Flush (Receipt)
open Log (Notice)
open Storage (Address Connection Database Disk)
open Text.Lines (pieces)
open Writer (History Representable)

variable {p : Plan} {items tail : List Item} {d : Database} {m : Move} {ns ns' ns'' : List Notice}
variable {e : Fault}
variable {h os : History (List Record) Receipt} {s s' : State} {r : Except Fault Report}
variable {standard bytes : List UInt8} {disk disk' opened : Disk} {last : Option State} {text : String}
variable {c : Connection} {a : Address}

theorem tail_eq_nil_or_fault (items : List Item) : ∃ tail, items = before items ++ tail ∧
    ∀ l rest, tail ≠ .line l :: rest := by
  refine ⟨items.dropWhile Item.isLine, (List.takeWhile_append_dropWhile).symm, fun l rest ht => ?_⟩
  have := List.head?_dropWhile_not Item.isLine items
  rw [ht] at this
  simp [Item.isLine] at this

theorem fault_before : fault? (before items) = none := by
  refine List.findSome?_eq_none_iff.mpr fun x hx => ?_
  cases x with
  | line  => rfl
  | fault => exact absurd (List.mem_takeWhile_imp hx) (by simp [Item.isLine])

theorem ofPieces_take (ps : List (List UInt8)) :
    Item.ofPieces (ps.take (before (Item.ofPieces ps)).length) = before (Item.ofPieces ps) := by
  induction ps with
  | nil => rfl
  | cons q ps ih =>
    rw [Item.ofPieces]
    cases hq : Text.Lines.read q with
    | error e => rfl
    | ok l    =>
      have hb : before (.line l :: Item.ofPieces ps) = .line l :: before (Item.ofPieces ps) := rfl
      dsimp only
      rw [hb, List.length_cons, List.take_succ_cons, Item.ofPieces, hq]
      exact congrArg _ ih

theorem ofBytes_cut : ∃ cut, cut <+: bytes ∧
    pieces cut = (pieces bytes).take (before (Item.ofBytes bytes)).length ∧
    Item.ofBytes cut = before (Item.ofBytes bytes) := by
  have hp := Text.Lines.pieces_take (s := bytes) (before (Item.ofBytes bytes)).length
  refine ⟨((pieces bytes).take (before (Item.ofBytes bytes)).length).flatten, ?_, hp, ?_⟩
  · have hf := (List.take_prefix (before (Item.ofBytes bytes)).length (pieces bytes)).flatten
    rwa [Text.Lines.flatten_pieces] at hf
  · rw [Item.ofBytes, hp]
    exact ofPieces_take _

-- What a run does that has no input to read: it waits for its writer, which gets no records, and fails if
-- it was closed with a fault.
structure Idle (fault : Option Fault) (d : Database) (s : State) : Prop where
  queue    : s.writer.intake.queue = []
  buffer   : s.writer.loop.buffer = []
  waits    : ¬s.writer.loop.Waits
  database : s.database = d
  reader   : (fault = none ∧ s.reader = .reading [] ∨ s.reader = .closing fault) ∨
    s.writer.loop.IsOver ∧ ∃ r, s.reader = .done r ∧ ∀ e, fault = some e → r = .error e

namespace Idle

variable {fault : Option Fault} {writer : Writer.State (List Record) Receipt}

theorem start : Idle none d (p.reading [] d) := ⟨rfl, rfl, id, rfl, .inl (.inl ⟨rfl, rfl⟩)⟩

theorem call {b : Bool} (i : Idle fault d s) (c : Writer.Call s.writer os writer)
    (hq : writer.intake.queue = s.writer.intake.queue) {r : Reader} {fault' : Option Fault}
    (hr : (fault' = none ∧ r = .reading [] ∨ r = .closing fault') ∨
      writer.loop.IsOver ∧ ∃ r', r = .done r' ∧ ∀ e, fault' = some e → r' = .error e) :
    Idle fault' d { s with writer, interrupted := b, reader := r } :=
  ⟨hq.trans i.queue, c.loop ▸ i.buffer, c.loop ▸ i.waits, i.database, hr⟩

theorem close (i : Idle fault d s) (hs : s.close (some e) = some (ns, s')) : Idle (some e) d s' := by
  obtain ⟨⟨os, writer⟩, hw, hs⟩ := Option.bind_eq_some_iff.mp hs
  cases hs
  exact i.call (Writer.call_of_close hw) (Writer.queue_of_close hw) (.inl (.inr rfl))

theorem turn (i : Idle fault d s) (u : Writer.Turn p.setup s.writer os writer) :
    Idle fault d { s with writer } := by
  have hr := i.reader.resolve_right fun hd => hd.left.not_turn u
  have hb := i.buffer
  have hw := i.waits
  cases u with
  | wake    => exact ⟨i.queue, rfl, id, i.database, .inl hr⟩
  | fail    => exact ⟨rfl, rfl, id, i.database, .inl hr⟩
  | idle    => exact ⟨i.queue, rfl, id, i.database, .inl hr⟩
  | discard => exact ⟨rfl, rfl, id, i.database, .inl hr⟩
  | receive _ hq => simp [i.queue] at hq
  | answer hl    => simp [hl, Writer.Loop.Waits] at hw
  | tick hl _ _ hn =>
    simp only [hl, Writer.Loop.buffer] at hb
    exact absurd hb hn
  | drain hl _ _ hn =>
    simp only [hl, Writer.Loop.buffer] at hb
    simp [hb, i.queue] at hn

theorem step (i : Idle fault d s) (hs : s.step? p m = some (ns, s')) : Idle fault d s' := by
  have reading {items} (hr : s.reader = .reading items) : items = [] ∧ fault = none := by
    rcases i.reader with (⟨hf, h⟩ | h) | ⟨_, r, h, _⟩ <;> simp_all
  have closing {os writer} {b : Bool} (hf : fault = none)
      (hw : s.writer.close State.closeTicket = some (os, writer)) :
      Idle fault d { s with writer, interrupted := b, reader := .closing none } :=
    i.call (Writer.call_of_close hw) (Writer.queue_of_close hw) (.inl (.inr (hf ▸ rfl)))
  have joined {os writer r} (hw : s.writer.join = some (os, writer))
      (hr : ∀ e, fault = some e → r = .error e) : Idle fault d { s with writer, reader := .done r } :=
    i.call (b := s.interrupted) (Writer.call_of_join hw)
      (congrArg Writer.Intake.queue (Writer.loop_of_join hw).right)
      (.inr ⟨Writer.isOver_of_join hw, r, rfl, hr⟩)
  obtain ⟨os, g⟩ := moved_of_step hs
  cases g with
  | turn _ _ u    => exact i.turn u
  | cancel | pass => exact ⟨i.queue, i.buffer, i.waits, i.database, i.reader⟩
  | answer hl     => exact absurd (by simp [hl, Writer.Loop.Waits]) i.waits
  | reader g      =>
    cases g with
    | close hr _ hi hw =>
      obtain ⟨rfl, hf⟩ := reading hr
      obtain ⟨-, rfl⟩ := hi.resolve_right (by simp)
      exact closing hf hw
    | interrupt hr _ hw =>
      rcases hr with ⟨items, hr⟩ | ⟨x, rest, hr⟩
      · exact closing (reading hr).right hw
      · rcases i.reader with (⟨_, h⟩ | h) | ⟨_, r, h, _⟩ <;> simp_all
    | fail hr hw   => exact joined hw (by rcases i.reader with (h | h) | ⟨_, r, h, _⟩ <;> simp_all)
    | finish hr hw => exact joined hw (by rcases i.reader with (h | h) | ⟨_, r, h, _⟩ <;> simp_all)
    | void hr | invalid hr | record hr => cases (reading hr).left
    | save hr | resume hr | forsake hr =>
      rcases i.reader with (⟨_, h⟩ | h) | ⟨_, r, h, _⟩ <;> simp_all

theorem of_steps (i : Idle fault d s) (hs : Steps p s ns s') : Idle fault d s' := by
  induction hs with
  | refl         => exact i
  | step _ hs ih => exact ih.step hs

end Idle

theorem write_of_isReadOnly (chunk : List Record) (hd : d.isReadOnly = true) :
    (d.write chunk).2.2 = d := by
  rw [Database.write]
  split
  case h_2 => rfl
  case h_1 ha =>
    cases chunk with
    | nil            => cases ha; rfl
    | cons r records =>
      obtain ⟨t, rfl⟩ := Database.eq_holding_of_add List.mem_cons_self ha
      cases hd

theorem database_of_isReadOnly (hd : d.isReadOnly = true)
    (hs : Steps p (p.reading items d) ns s) : s.database = d := by
  induction hs with
  | refl => rfl
  | step _ hs ih =>
    have ⟨os, g⟩ := moved_of_step hs
    cases g with
    | reader g             => exact (call_of_reading g).right.trans ih
    | turn | pass | cancel => exact ih
    | @answer _ _ chunk _ _ _ _ _ _ _ hw =>
      have hn := write_of_isReadOnly chunk (ih ▸ hd)
      rw [hw] at hn
      exact hn.trans ih

structure CutOff (p : Plan) (d : Database) (items : List Item) (text : String) (s : State) : Prop where
  fault  : ∃ rest, items = before items ++ .fault text :: rest
  lines  : ∀ bytes, items = Item.ofBytes bytes → ∃ cut, cut <+: bytes ∧
    pieces cut = (pieces bytes).take (before items).length ∧ Item.ofBytes cut = before items
  beside : ∃ ns, Steps p (p.reading (before items) d) ns { s with reader := .done (.ok (s.report p)) }
  -- It leaves the same table if its timing is another, unless it is interrupted.
  timing : ∀ ns u r, Steps p (p.reading (before items) d) ns u → u.reader = .done r →
    Representable (s.writer.now + p.settings.writer.interval) →
    Representable (u.writer.now + p.settings.writer.interval) → u.interrupted = false →
    u.database = s.database
  -- Nothing of the lines is lost: what is reported and stored is what they come to.
  whole  : ∀ t, d = .holding t → Representable (s.writer.now + p.settings.writer.interval) →
    State.Ends p (before items) t { s with reader := .done (.ok (s.report p)) }

structure Remains (p : Plan) (opened : Disk) (c : Connection) (a : Address) (items : List Item)
    (s : State) (disk' : Disk) : Prop where
  rows   : a.InFile → ∃ t t', opened.rowsAt? a.path = some t ∧ disk'.rowsAt? a.path = some t' ∧
    c.database.table = some t ∧ s.database.table = some t' ∧
    (c.database.isReadOnly = true → t' = t) ∧
    (c.database.isReadOnly = false → Representable (s.writer.now + p.settings.writer.interval) →
      t' = final p.settings (before items) t)
  -- The whole run over the lines before the fault, from wherever they are read, succeeds, and leaves the
  -- same rows whatever its timing.
  beside : ∀ standard disk₂ opened₂ c₂, Feeds p standard disk₂ opened₂ c₂ (before items) →
    c₂.database = c.database → ∃ left,
      Runs p standard disk₂ (some { s with reader := .done (.ok (s.report p)) }) left (.ok (s.report p))
  same   : a.InFile → ∀ standard disk₂ opened₂ c₂ u left r,
    Feeds p standard disk₂ opened₂ c₂ (before items) → c₂.database = c.database →
    Runs p standard disk₂ (some u) left r →
    Representable (s.writer.now + p.settings.writer.interval) →
    Representable (u.writer.now + p.settings.writer.interval) → u.interrupted = false →
    left.rowsAt? a.path = disk'.rowsAt? a.path
  memory : ¬a.InFile → disk' = opened

def Leaves (p : Plan) (standard : List UInt8) (disk : Disk) (last : Option State) (disk' : Disk) :
    Fault → Prop
  | .settings _                => last = none ∧ disk' = disk
  | .database _                => last = none ∧ disk.KeepsTables disk'
  | .openInput _ _ | .writer _ => disk.KeepsTables disk'
  | .readInput text            => ∃ opened c a items s, Feeds p standard disk opened c items ∧
    disk.Serves p.settings.database.toList opened c a ∧ last = some s ∧
      disk' = opened.save { c with database := s.database } ∧ CutOff p c.database items text s ∧
      Remains p opened c a items s disk'

theorem exists_of_ending (he : ending tail = some e) :
    ∃ text rest, tail = .fault text :: rest ∧ e = .readInput text := by
  cases tail with
  | nil => cases he
  | cons x rest =>
    cases x with
    | line l     => cases he
    | fault text => cases he; exact ⟨text, rest, rfl, rfl⟩

theorem ending_of_endOf (he : s.endOf tail = some e) : s.interrupted = false ∧ ending tail = some e := by
  rw [State.endOf] at he
  split at he
  case isTrue     => cases he
  case isFalse hn => exact ⟨Bool.eq_false_iff.mpr hn, he⟩

theorem failed_of_steps (hs : Steps p (p.reading items d) ns s) (hr : s.reader = .done (.error e)) :
    s.writer.loop.IsOver ∧
      ((∃ text rest ns', e = .readInput text ∧ items = before items ++ .fault text :: rest ∧
          s.interrupted = false ∧
          Steps p (p.reading (before items) d) ns' { s with reader := .done (.ok (s.report p)) }) ∨
        ∃ e', e = .writer e' ∧ s.database = d) := by
  obtain ⟨tail, hi, ht⟩ := tail_eq_nil_or_fault items
  obtain ⟨h, r, ns', b, st⟩ := Paired.of_steps hi ht hs
  have reach : Writer.Reachable (Writer.inChunks p.settings.writer p.settings.chunkSize) h s.writer :=
    b.reachable
  refine ⟨b.attended.of_done hr, ?_⟩
  cases b.beside with
  | done hr' =>
    have he : Except.error e = (s.endOf tail).elim (.ok (s.report p)) .error :=
      Reader.done.inj (hr.symm.trans hr')
    cases hn : s.endOf tail with
    | none    => rw [hn] at he; cases he
    | some e' =>
      rw [hn] at he
      cases he
      obtain ⟨whole, he⟩ := ending_of_endOf hn
      obtain ⟨text, rest, rfl, rfl⟩ := exists_of_ending he
      exact .inl ⟨text, rest, ns', rfl, hi, whole, st⟩
  | refused hr' hl =>
    cases hr.symm.trans hr'
    have ⟨_, ha, _⟩ := (Writer.Stands.of_reachable reach).of_broken hl
    exact .inr ⟨_, rfl, b.untouched ha⟩
  | reading hr' | holding hr' | saving hr' | closing hr' => cases hr.symm.trans hr'

theorem cutOff_of_steps {path : List Char} {rest : List Item} (hz : 0 < p.settings.chunkSize)
    (hd : p.settings.writer.drainOnClose = true) (ho : disk.openDatabase path = (ns', opened, .ok c))
    (hi : items = before items ++ .fault text :: rest)
    (hs : Steps p (p.reading items c.database) ns s) (hn : s.interrupted = false)
    (st : Steps p (p.reading (before items) c.database) ns''
      { s with reader := .done (.ok (s.report p)) }) : CutOff p c.database items text s where
  fault         := ⟨rest, hi⟩
  lines _ hb    := hb ▸ ofBytes_cut
  beside        := ⟨_, st⟩
  whole t ht hp := ends_of_steps hz hd fault_before (ht ▸ st) hp hn rfl
  timing ns u r su hu hp hp' hn' := by
    cases hw : c.database.isReadOnly with
    | true  => rw [database_of_isReadOnly hw su, database_of_isReadOnly hw hs]
    | false =>
      obtain ⟨t, ht⟩ := Storage.holding_of_openDatabase ho hw
      rw [ht] at st su
      have he := (ends_of_steps hz hd fault_before st hp hn rfl).database
      exact (ends_of_steps hz hd fault_before su hp' hn' hu).database.trans he.symm

theorem remains_of_cutOff (f : Feeds p standard disk opened c items)
    (sv : disk.Serves p.settings.database.toList opened c a) (hc : p.settings.check = .ok ())
    (hs : Steps p (p.reading items c.database) ns s) (cut : CutOff p c.database items text s) :
    Remains p opened c a items s (opened.save { c with database := s.database }) := by
  have table (ha : a.InFile) : ∃ t h, c.database.table = some t ∧ Gains p c.database t h s := by
    obtain ⟨t, ht⟩ := Option.isSome_iff_exists.mp (sv.file ha).left
    obtain ⟨h, g⟩ := Gains.of_steps ht hs
    exact ⟨t, h, ht, g⟩
  constructor
  case rows =>
    intro ha
    obtain ⟨t, h, ht, g⟩ := table ha
    have ⟨_, now, later⟩ := sv.file ha
    have hd := g.stored.database
    refine ⟨t, _, now.trans ht, ?_, ht, congrArg Database.table hd, fun hw => ?_, fun hw hp => ?_⟩
    · rw [later _ (by simp [hd]), hd]
    · have hd' := database_of_isReadOnly hw hs
      have := hd.symm.trans hd'
      exact Option.some.inj ((congrArg Database.table this).trans ht)
    · obtain ⟨_, ho⟩ := f.opens
      obtain ⟨t', ht'⟩ := Storage.holding_of_openDatabase ho hw
      cases Option.some.inj ((congrArg Database.table ht').symm.trans ht)
      have e := (cut.whole t ht' hp).database
      exact Option.some.inj ((congrArg Database.table hd).symm.trans (congrArg Database.table e))
  case beside =>
    intro standard₂ disk₂ opened₂ c₂ f₂ he
    obtain ⟨_, st⟩ := cut.beside
    obtain ⟨_, ho₂⟩ := f₂.opens
    obtain ⟨_, hi₂⟩ := f₂.reads
    exact ⟨_, .read hc ho₂ hi₂ (he ▸ st) rfl⟩
  case same =>
    intro ha standard₂ disk₂ opened₂ c₂ u left r f₂ he hr hp hp' hi
    obtain ⟨_, hu, rfl, hr, _, su⟩ := f₂.of_runs hc hr
    cases hu
    obtain ⟨t, h, _, g⟩ := table ha
    obtain ⟨_, ho₂⟩ := f₂.opens
    obtain ⟨a₂, sv₂⟩ := Disk.exists_serves ho₂
    cases sv.address.symm.trans sv₂.address
    have hd := cut.timing _ _ _ (he ▸ su) hr hp hp' hi
    have hs : s.database.table.isSome := by simp [g.stored.database]
    rw [(sv.file ha).right.right _ hs, hd]
    exact (sv₂.file ha).right.right _ hs
  case memory => exact fun ha => (sv.memory ha).right _

theorem openInput_eq_error {settings : Settings} (h : openInput settings disk standard = .error e) :
    ∃ path text, e = .openInput path text := by
  rw [openInput] at h
  split at h
  case isTrue => cases h
  case isFalse =>
    split at h
    case h_1 => cases h
    case h_2 => cases h; exact ⟨_, _, rfl⟩

-- Whatever happens in whatever order, a run that fails has stopped its loop, and leaves what its fault
-- stands for.
theorem leaves_of_failed (hd : p.settings.writer.drainOnClose = true)
    (hr : Runs p standard disk last disk' (.error e)) :
    (∀ s ∈ last, s.writer.loop.IsOver) ∧ Leaves p standard disk last disk' e := by
  have kept {ns opened r} (ho : disk.openDatabase p.settings.database.toList = (ns, opened, r)) :
      disk.KeepsTables opened := by
    have hk := disk.keepsTables_openDatabase p.settings.database.toList
    rwa [ho] at hk
  have saved {ns opened c} (ho : disk.openDatabase p.settings.database.toList = (ns, opened, .ok c)) :
      disk.KeepsTables (opened.save c) :=
    (kept ho).trans (Disk.opened_of_openDatabase ho).keepsTables
  cases hr with
  | rejected hs    => exact ⟨by simp, rfl, rfl⟩
  | unopened hs ho => exact ⟨by simp, rfl, kept ho⟩
  | @unread _ _ c e' _ _ _ _ _ s _ hs ho hi st hn hc st' hr =>
    have i := (((Idle.start).of_steps st).close hc).of_steps st'
    have ⟨hl, r, hr', he⟩ := i.reader.resolve_left (by simp [hr])
    cases hr.symm.trans hr'
    cases he e' rfl
    obtain ⟨path, text, rfl⟩ := openInput_eq_error hi
    refine ⟨by simpa using hl, ?_⟩
    simp only [Leaves, i.database]
    exact saved ho
  | @read _ _ c _ items _ s _ hs ho hi st hr =>
    obtain ⟨hl, ⟨text, rest, ns', rfl, ht, hn, st'⟩ | ⟨e', rfl, hs'⟩⟩ := failed_of_steps st hr
    case inl =>
      have ⟨hz, _⟩ := sizes_of_check hs
      have ⟨a, sv⟩ := Disk.exists_serves ho
      have f : Feeds p standard disk _ c items := ⟨⟨_, ho⟩, ⟨_, hi⟩⟩
      have cut := cutOff_of_steps hz hd ho ht st hn st'
      exact ⟨by simpa using hl, _, _, a, _, _, f, sv, rfl, rfl, cut, remains_of_cutOff f sv hs st cut⟩
    case inr =>
      refine ⟨by simpa using hl, ?_⟩
      simp only [Leaves, hs']
      exact saved ho

-- The same as `narrow`, but with records that are read from the standard input, and a byte after them
-- that is no text.
def narrowStandard : Plan :=
  { narrow with settings := { narrow.settings with file := "-" } }

def spoilt : List UInt8 := Text.Utf8.encode repeating ++ [255]

def unread? : Except Fault Report → Option String
  | .error (.readInput text) => some text
  | _                        => none

theorem eq_of_unread? {x : Except Fault Report} {text : String} (h : unread? x = some text) :
    x = .error (.readInput text) := by
  unfold unread? at h
  split at h
  case h_1 => cases h; rfl
  case h_2 => cases h

theorem leaves_of_failed_of_spoilt : ∃ last disk' text,
    Runs narrowStandard spoilt {} last disk' (.error (.readInput text)) ∧
      (∀ s ∈ last, s.writer.loop.IsOver) ∧
      Leaves narrowStandard spoilt {} last disk' (.readInput text) := by
  have hp : Storage.IsPlain narrowStandard.settings.database.toList :=
    ⟨by decide, Storage.Address.not_hasEscape (by decide), by decide, by decide, by decide⟩
  have ha := Storage.Address.ofFile_of_isPlain hp
  have he : (unread? (run narrowStandard spoilt {}).2.2).isSome = true := by
    rw [run, Disk.openDatabase, ha]
    decide +kernel
  obtain ⟨text, hx⟩ := Option.isSome_iff_exists.mp he
  have hx := eq_of_unread? hx
  obtain ⟨last, hr⟩ := runs_of_run narrowStandard spoilt {}
  rw [hx] at hr
  exact ⟨last, _, text, hr, leaves_of_failed rfl hr⟩

end WriteBehind.Ingest
