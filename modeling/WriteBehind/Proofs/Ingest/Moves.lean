import WriteBehind.Ingest.Reference
import WriteBehind.Proofs.Writer.Conservation
import WriteBehind.Proofs.Writer.Progress

namespace WriteBehind.Ingest

open Flush (Receipt)
open Log (Notice)
open Storage (Database)
open Writer (History Reachable Turn)

variable {p : Plan} {items rest : List Item} {m : Move} {ns : List Notice}
variable {h os : History (List Record) Receipt} {s s' : State}
variable {writer : Writer.State (List Record) Receipt}

inductive Reading (p : Plan) (s : State) : History (List Record) Receipt → State → Prop
  | close {os : History (List Record) Receipt} {writer : Writer.State (List Record) Receipt}
      {fault} {items : List Item} :
    s.reader = .reading items →
    s.cancelled = false →
    items = [] ∧ fault = none ∨
      (∃ text rest, items = .fault text :: rest ∧ fault = some (.readInput text)) →
    s.writer.close State.closeTicket = some (os, writer) →
    Reading p s os { s with writer, reader := .closing fault }
  | interrupt {os : History (List Record) Receipt} {writer : Writer.State (List Record) Receipt} :
    (∃ items, s.reader = .reading items) ∨ (∃ r rest, s.reader = .holding r rest) →
    s.cancelled = true →
    s.writer.close State.closeTicket = some (os, writer) →
    Reading p s os { s with writer, interrupted := true, reader := .closing none }
  | void {l} {rest : List Item} :
    s.reader = .reading (.line l :: rest) →
    s.cancelled = false →
    Record.ofLine l = .ok none →
    Reading p s [] { s with reader := .reading rest }
  | invalid {l e} {rest : List Item} :
    s.reader = .reading (.line l :: rest) →
    s.cancelled = false →
    Record.ofLine l = .error e →
    Reading p s []
      { s with reader := .reading rest, lines := s.lines + 1, invalid := s.invalid + 1 }
  | record {l r} {rest : List Item} :
    s.reader = .reading (.line l :: rest) →
    s.cancelled = false →
    Record.ofLine l = .ok (some r) →
    Reading p s [] { s with reader := .holding r rest, lines := s.lines + 1 }
  | save {r} {rest : List Item} {os : History (List Record) Receipt}
      {writer : Writer.State (List Record) Receipt} :
    s.reader = .holding r rest →
    s.cancelled = false →
    s.writer.save State.saveTicket r = some (os, writer) →
    Reading p s os ({ s with writer }.afterSave rest os)
  | resume {rest : List Item} {os : History (List Record) Receipt}
      {writer : Writer.State (List Record) Receipt} :
    s.reader = .saving rest →
    s.cancelled = false →
    s.writer.resume State.saveTicket = some (os, writer) →
    Reading p s os ({ s with writer }.afterSave rest os)
  | forsake {rest : List Item} {os : History (List Record) Receipt}
      {writer : Writer.State (List Record) Receipt} :
    s.reader = .saving rest →
    s.cancelled = true →
    s.writer.giveUp State.saveTicket = some (os, writer) →
    Reading p s os { s with writer, interrupted := true, reader := .reading rest }
  | fail {e} {os : History (List Record) Receipt} {writer : Writer.State (List Record) Receipt} :
    s.reader = .closing (some e) →
    s.writer.join = some (os, writer) →
    Reading p s os { s with writer, reader := .done (.error e) }
  | finish {os : History (List Record) Receipt} {writer : Writer.State (List Record) Receipt} :
    s.reader = .closing none →
    s.writer.join = some (os, writer) →
    Reading p s os { s with writer, reader := .done (.ok ({ s with writer }.report p)) }

theorem reading_of_read (hs : s.read p = some (ns, s')) : ∃ os, Reading p s os s' := by
  have of_interrupt (hr : (∃ items, s.reader = .reading items) ∨ ∃ r rest, s.reader = .holding r rest)
      (hc : s.cancelled = true) (hs : s.interrupt = some (ns, s')) : ∃ os, Reading p s os s' := by
    obtain ⟨⟨os, writer⟩, hw, hs⟩ := Option.bind_eq_some_iff.mp hs
    cases hs
    exact ⟨os, .interrupt hr hc hw⟩
  have of_close {items fault} (hr : s.reader = .reading items) (hc : s.cancelled = false)
      (hi : items = [] ∧ fault = none ∨
        (∃ text rest, items = .fault text :: rest ∧ fault = some (.readInput text)))
      (hs : s.close fault = some (ns, s')) : ∃ os, Reading p s os s' := by
    obtain ⟨⟨os, writer⟩, hw, hs⟩ := Option.bind_eq_some_iff.mp hs
    cases hs
    exact ⟨os, .close hr hc hi hw⟩
  simp only [State.read] at hs
  split at hs
  case h_1 items hr =>
    split at hs
    case isTrue hc  => exact of_interrupt (.inl ⟨items, hr⟩) hc hs
    case isFalse hc =>
      have hc := Bool.eq_false_iff.mpr hc
      split at hs
      case h_1 => exact of_close hr hc (.inl ⟨rfl, rfl⟩) hs
      case h_2 => exact of_close hr hc (.inr ⟨_, _, rfl, rfl⟩) hs
      case h_3 =>
        split at hs
        case h_1 hl => cases hs; exact ⟨[], .void hr hc hl⟩
        case h_2 hl => cases hs; exact ⟨[], .record hr hc hl⟩
        case h_3 hl => cases hs; exact ⟨[], .invalid hr hc hl⟩
  case h_2 r rest hr =>
    split at hs
    case isTrue hc  => exact of_interrupt (.inr ⟨r, rest, hr⟩) hc hs
    case isFalse hc =>
      obtain ⟨⟨os, writer⟩, hw, hs⟩ := Option.bind_eq_some_iff.mp hs
      cases hs
      exact ⟨os, .save hr (Bool.eq_false_iff.mpr hc) hw⟩
  case h_3 rest hr =>
    split at hs
    case isTrue hc  =>
      obtain ⟨⟨os, writer⟩, hw, hs⟩ := Option.bind_eq_some_iff.mp hs
      cases hs
      exact ⟨os, .forsake hr hc hw⟩
    case isFalse hc =>
      obtain ⟨⟨os, writer⟩, hw, hs⟩ := Option.bind_eq_some_iff.mp hs
      cases hs
      exact ⟨os, .resume hr (Bool.eq_false_iff.mpr hc) hw⟩
  case h_4 fault hr =>
    obtain ⟨⟨os, writer⟩, hw, hs⟩ := Option.bind_eq_some_iff.mp hs
    cases fault with
    | none   => cases hs; exact ⟨os, .finish hr hw⟩
    | some e => cases hs; exact ⟨os, .fail hr hw⟩
  case h_5 => cases hs

theorem afterSave_eq (s : State) : (s.afterSave rest os).writer = s.writer ∧
    (s.afterSave rest os).database = s.database ∧ (s.afterSave rest os).cancelled = s.cancelled ∧
    (s.afterSave rest os).interrupted = s.interrupted := by
  rw [State.afterSave]
  split <;> exact ⟨rfl, rfl, rfl, rfl⟩

theorem call_of_reading (g : Reading p s os s') :
    (os = [] ∧ s'.writer = s.writer ∨
      ∃ e, e ≠ .release ∧ s.writer.step? p.setup e = some (os, s'.writer) ∧
        Writer.Call s.writer os s'.writer) ∧
      s'.database = s.database := by
  cases g with
  | void | invalid | record => exact ⟨.inl ⟨rfl, rfl⟩, rfl⟩
  | close _ _ _ hw    => exact ⟨.inr ⟨.close _, by simp, hw, Writer.call_of_close hw⟩, rfl⟩
  | interrupt _ _ hw  => exact ⟨.inr ⟨.close _, by simp, hw, Writer.call_of_close hw⟩, rfl⟩
  | forsake _ _ hw    => exact ⟨.inr ⟨.giveUp _, by simp, hw, Writer.call_of_giveUp hw⟩, rfl⟩
  | fail _ hw         => exact ⟨.inr ⟨.join, by simp, hw, Writer.call_of_join hw⟩, rfl⟩
  | finish _ hw       => exact ⟨.inr ⟨.join, by simp, hw, Writer.call_of_join hw⟩, rfl⟩
  | save _ _ hw       =>
    rw [(afterSave_eq _).left, (afterSave_eq _).right.left]
    exact ⟨.inr ⟨.save _ _, by simp, hw, Writer.call_of_save hw⟩, rfl⟩
  | resume _ _ hw     =>
    rw [(afterSave_eq _).left, (afterSave_eq _).right.left]
    exact ⟨.inr ⟨.resume _, by simp, hw, Writer.call_of_resume hw⟩, rfl⟩

def Move.event? : Move → Option (Writer.Event Receipt)
  | .wake    => some .wake
  | .receive => some .receive
  | .stop    => some .stop
  | .tick    => some .tick
  | _        => none

theorem isTurn_of_event {e : Writer.Event Receipt} (he : m.event? = some e) : e.IsTurn := by
  cases m <;> cases he <;> trivial

inductive Moved (p : Plan) (s : State) : Move → History (List Record) Receipt → State → Prop
  | reader {os : History (List Record) Receipt} {s' : State} :
    Reading p s os s' →
    Moved p s .reader os s'
  | cancel : Moved p s .cancel [] { s with cancelled := true }
  | turn {m : Move} {e} {os : History (List Record) Receipt}
      {writer : Writer.State (List Record) Receipt} :
    m.event? = some e →
    s.writer.step? p.setup e = some (os, writer) →
    Turn p.setup s.writer os writer →
    Moved p s m os { s with writer }
  | answer {aim buffer chunk go ns x d} {os : History (List Record) Receipt}
      {writer : Writer.State (List Record) Receipt} :
    s.writer.loop = .writing aim buffer chunk go →
    s.database.write chunk = (ns, x, d) →
    s.writer.answer ns x = some (os, writer) →
    Moved p s .answer os { s with writer, database := d }
  | pass {n : Nat} :
    Moved p s (.pass n) [] { s with writer := { s.writer with now := s.writer.now + n } }

theorem moved_of_step (hs : s.step? p m = some (ns, s')) : ∃ os, Moved p s m os s' := by
  have of_turn {e : Writer.Event Receipt} (he : m.event? = some e)
      (hs : s.loop p e = some (ns, s'))
      (hu : ∀ os writer, s.writer.step? p.setup e = some (os, writer) →
        Turn p.setup s.writer os writer) : ∃ os, Moved p s m os s' := by
    obtain ⟨⟨os, writer⟩, hw, hs⟩ := Option.bind_eq_some_iff.mp hs
    cases hs
    exact ⟨os, .turn he hw (hu os writer hw)⟩
  cases m with
  | reader  =>
    have ⟨os, g⟩ := reading_of_read hs
    exact ⟨os, .reader g⟩
  | cancel  => cases hs; exact ⟨[], .cancel⟩
  | wake    => exact of_turn rfl hs fun _ _ hw => Writer.turn_of_wake hw
  | receive => exact of_turn rfl hs fun _ _ hw => Writer.turn_of_receive hw
  | stop    => exact of_turn rfl hs fun _ _ hw => Writer.turn_of_stop hw
  | tick    => exact of_turn rfl hs fun _ _ hw => Writer.turn_of_tick hw
  | answer  =>
    simp only [State.step?, State.answer] at hs
    split at hs
    case h_2 => cases hs
    case h_1 hl =>
      obtain ⟨⟨os, writer⟩, hw, hs⟩ := Option.bind_eq_some_iff.mp hs
      cases hs
      exact ⟨os, .answer hl rfl hw⟩
  | pass    => cases hs; exact ⟨[], .pass⟩

theorem writer_of_moved (g : Moved p s m os s') :
    os = [] ∧ s'.writer = s.writer ∨
      ∃ e, e ≠ .release ∧ s.writer.step? p.setup e = some (os, s'.writer) := by
  cases g with
  | cancel         => exact .inl ⟨rfl, rfl⟩
  | turn he hw _   => exact .inr ⟨_, (isTurn_of_event he).ne_release, hw⟩
  | answer _ _ hw  => exact .inr ⟨.answer _ _, by simp, hw⟩
  | @pass n        => exact .inr ⟨.pass n, by simp, rfl⟩
  | reader g       =>
    rcases (call_of_reading g).left with hw | ⟨e, he, hw, _⟩
    case inl => exact .inl hw
    case inr => exact .inr ⟨e, he, hw⟩

-- Whether the run was interrupted only changes when the reader sees that it was told to stop.
theorem interrupted_of_moved (g : Moved p s m os s') :
    (s.interrupted = true → s'.interrupted = true) ∧
    (s'.interrupted = true → s.interrupted = true ∨ s.cancelled = true) ∧
    s'.cancelled = (s.cancelled || decide (m = .cancel)) := by
  cases g with
  | reader g =>
    cases g with
    | save | resume => simp +contextual [afterSave_eq]
    | _             => simp +contextual [*]
  | @turn m e os writer he => cases m <;> cases he <;> simp +contextual
  | _                      => simp +contextual

structure State.Listens (s : State) : Prop where
  phase : s.writer.phase = .running
  loop  : s.writer.loop.IsDone → s.writer.loop = .broken

inductive State.Attended (s : State) : Prop
  | reading {rest : List Item} :
    s.reader = .reading rest →
    s.Listens →
    s.writer.intake.waiting = [] →
    Attended s
  | holding {r : Record} {rest : List Item} :
    s.reader = .holding r rest →
    s.Listens →
    s.writer.intake.waiting = [] →
    Attended s
  | saving {r : Record} {rest : List Item} :
    s.reader = .saving rest →
    s.Listens →
    s.writer.intake.waiting = [⟨State.saveTicket, r⟩] →
    Attended s
  | closing {fault : Option Fault} :
    s.reader = .closing fault →
    s.writer.phase = .closed →
    s.writer.closing = some State.closeTicket →
    s.writer.intake.waiting = [] →
    Attended s
  | done {r : Except Fault Report} :
    s.reader = .done r →
    s.writer.loop.IsOver →
    s.writer.intake.waiting = [] →
    Attended s

-- What holds whatever the input, the database and the signals.
structure Attends (p : Plan) (h : History (List Record) Receipt) (s : State) : Prop where
  reachable : Reachable p.setup h s.writer
  isHeld    : s.writer.isHeld = true
  present   : s.writer.loop ≠ .absent
  told      : s.interrupted = true → s.cancelled = true
  attended  : s.Attended

namespace State

-- What comes of a save. A loop that has crashed is the only one that lets none in.
theorem Listens.afterSave {w : Writer.State (List Record) Receipt} (l : s.Listens)
    (f : Writer.Flow h s.writer) (c : Writer.Call s.writer os w) (hp : w.phase = .running)
    (hx : (saved? os = none ∧ ∃ r, w.intake.waiting = [⟨saveTicket, r⟩]) ∨
      (saved? os = some (.ok ()) ∧ w.intake.waiting = []) ∨
      ∃ e, saved? os = some (.error e) ∧ s.writer.intake.isOpen = false ∧ w.intake.waiting = []) :
    (State.afterSave rest os { s with writer := w }).Attended := by
  have l' : Listens { s with writer := w } := ⟨hp, fun hd => c.loop.trans (l.loop (c.loop ▸ hd))⟩
  rw [State.afterSave]
  rcases hx with ⟨hx, _, hq⟩ | ⟨hx, hq⟩ | ⟨e, hx, ho, hq⟩
  · rw [hx]
    exact .saving rfl ⟨l'.phase, l'.loop⟩ hq
  · rw [hx]
    exact .reading rfl ⟨l'.phase, l'.loop⟩ hq
  · have hb : w.loop = .broken := c.loop.trans (l.loop (f.shut.mpr ho))
    rw [hx]
    exact .done rfl (by simp [hb, Writer.Loop.IsOver]) hq

theorem Attended.reading_or_holding (a : s.Attended)
    (hr : (∃ items, s.reader = .reading items) ∨ ∃ r rest, s.reader = .holding r rest) :
    s.Listens ∧ s.writer.intake.waiting = [] := by
  cases a with
  | reading _ l hq | holding _ l hq => exact ⟨l, hq⟩
  | _                               => simp_all

theorem Attended.of_saving (a : s.Attended) (hr : s.reader = .saving rest) :
    s.Listens ∧ ∃ r, s.writer.intake.waiting = [⟨saveTicket, r⟩] := by
  cases a with
  | saving _ l hq => exact ⟨l, _, hq⟩
  | _             => simp_all

theorem Attended.of_closing {fault : Option Fault} (a : s.Attended) (hr : s.reader = .closing fault) :
    s.writer.phase = .closed ∧ s.writer.closing = some closeTicket ∧ s.writer.intake.waiting = [] := by
  cases a with
  | closing _ hp hc hq => exact ⟨hp, hc, hq⟩
  | _                  => simp_all

theorem Attended.of_done {r : Except Fault Report} (a : s.Attended) (hr : s.reader = .done r) :
    s.writer.loop.IsOver := by
  cases a with
  | done _ hl => exact hl
  | _         => simp_all

theorem Attended.read (a : s.Attended) (f : Writer.Flow h s.writer) (g : Reading p s os s') :
    s'.Attended := by
  cases g with
  | close hr _ _ hw =>
    have ⟨l, hq⟩ := a.reading_or_holding (.inl ⟨_, hr⟩)
    obtain ⟨rfl, rfl⟩ := Writer.close_of_running hw l.phase
    exact .closing rfl rfl rfl hq
  | interrupt hr _ hw =>
    have ⟨l, hq⟩ := a.reading_or_holding hr
    obtain ⟨rfl, rfl⟩ := Writer.close_of_running hw l.phase
    exact .closing rfl rfl rfl hq
  | void hr | invalid hr =>
    have ⟨l, hq⟩ := a.reading_or_holding (.inl ⟨_, hr⟩)
    exact .reading rfl ⟨l.phase, l.loop⟩ hq
  | record hr =>
    have ⟨l, hq⟩ := a.reading_or_holding (.inl ⟨_, hr⟩)
    exact .holding rfl ⟨l.phase, l.loop⟩ hq
  | save hr _ hw =>
    have ⟨l, hq⟩ := a.reading_or_holding (.inr ⟨_, _, hr⟩)
    have c := Writer.call_of_save hw
    cases Writer.acts_of_save hw with
    | refuse _ hf  => simp [l.phase, Writer.Phase.refusal?] at hf
    | fail _ _ hn  => exact l.afterSave f c l.phase (.inr (.inr ⟨_, rfl, hn, hq⟩))
    | enter        => exact l.afterSave f c l.phase (.inr (.inl ⟨rfl, hq⟩))
    | wait         => exact l.afterSave f c l.phase (.inl ⟨rfl, _, congrArg (· ++ [_]) hq⟩)
  | resume hr _ hw =>
    obtain ⟨l, _, hq⟩ := a.of_saving hr
    have c := Writer.call_of_resume hw
    have hi := Writer.waiter_of_head hq
    cases Writer.acts_of_resume hw with
    | resume hi'     =>
      cases hi'.symm.trans hi
      exact l.afterSave f c l.phase (.inr (.inl ⟨rfl, by simp [hq]⟩))
    | shutOut hi' hn =>
      cases hi'.symm.trans hi
      exact l.afterSave f c l.phase (.inr (.inr ⟨_, rfl, hn, by simp [hq]⟩))
  | forsake hr _ hw =>
    obtain ⟨l, _, hq⟩ := a.of_saving hr
    have hi := Writer.waiter_of_head hq
    cases Writer.acts_of_giveUp hw with
    | giveUp hi' => cases hi'.symm.trans hi; exact .reading rfl ⟨l.phase, l.loop⟩ (by simp [hq])
  | fail hr hw | finish hr hw =>
    obtain ⟨_, _, hq⟩ := a.of_closing hr
    exact .done rfl (Writer.isOver_of_join hw) ((congrArg _ (Writer.loop_of_join hw).right).trans hq)

theorem Attended.turn (a : s.Attended) (hh : s.writer.isHeld = true)
    (u : Turn p.setup s.writer os writer) (d : Database) :
    Attended { s with writer, database := d } := by
  have k := Writer.kept_of_turn u
  have ho : ¬s.writer.loop.IsOver := fun ho => ho.not_turn u
  have listens (l : s.Listens) : Listens { s with writer, database := d } := by
    refine ⟨k.phase.trans l.phase, fun hd => ?_⟩
    by_contra hb
    have hn : ¬s.writer.loop.IsDone := fun hd => ho (by simp [l.loop hd, Writer.Loop.IsOver])
    have hs : ¬s.writer.Stops := by simp [Writer.State.Stops, l.phase, hh]
    exact Writer.not_isDone_of_turn u hs hn hb hd
  cases a with
  | reading hr l hq     => exact .reading hr (listens l) (k.waiting.trans hq)
  | holding hr l hq     => exact .holding hr (listens l) (k.waiting.trans hq)
  | saving hr l hq      => exact .saving hr (listens l) (k.waiting.trans hq)
  | closing hr hp hc hq => exact .closing hr (k.phase.trans hp) (k.closing.trans hc) (k.waiting.trans hq)
  | done _ hl           => exact absurd hl ho

theorem Attended.still (a : s.Attended) {n : Nat} {b : Bool} :
    Attended { s with writer := { s.writer with now := n }, cancelled := b } := by
  cases a with
  | reading hr l hq     => exact .reading hr ⟨l.phase, l.loop⟩ hq
  | holding hr l hq     => exact .holding hr ⟨l.phase, l.loop⟩ hq
  | saving hr l hq      => exact .saving hr ⟨l.phase, l.loop⟩ hq
  | closing hr hp hc hq => exact .closing hr hp hc hq
  | done hr hl hq       => exact .done hr hl hq

end State

namespace Attends

theorem start {d : Database} :
    Attends p [.logged .opened, .opened 0 (.ok ())] (p.reading items d) where
  reachable := Writer.Run.single (e := .start 0) rfl
  isHeld    := rfl
  present   := by simp [Plan.reading, Writer.Setup.opened]
  told      := nofun
  attended  := .reading rfl ⟨rfl, fun hd => hd.elim⟩ rfl

theorem flow (a : Attends p h s) : Writer.Flow h s.writer := .of_reachable a.reachable

theorem moved (a : Attends p h s) (g : Moved p s m os s') : Attends p (h ++ os) s' := by
  have hr : Reachable p.setup (h ++ os) s'.writer ∧ s'.writer.isHeld = true := by
    rcases writer_of_moved g with ⟨rfl, hw⟩ | ⟨e, he, hs⟩
    case inl => rw [List.append_nil, hw]; exact ⟨a.reachable, a.isHeld⟩
    case inr => exact ⟨.step a.reachable hs, (Writer.isHeld_of_step hs he).trans a.isHeld⟩
  have ⟨_, hi, hc⟩ := interrupted_of_moved g
  refine ⟨hr.left, hr.right, ?present, fun h => ?told, ?attended⟩
  case told => rw [hc, (hi h).elim a.told id, Bool.true_or]
  case present =>
    cases g with
    | cancel | pass => exact a.present
    | turn _ _ u    => exact (Writer.begun_of_turn u).left
    | answer _ _ hw => exact (Writer.begun_of_turn (w := p.setup) (Writer.turn_of_answer hw)).left
    | reader g      =>
      rcases (call_of_reading g).left with ⟨_, hw⟩ | ⟨_, _, _, c⟩
      · exact hw ▸ a.present
      · exact c.loop ▸ a.present
  case attended =>
    cases g with
    | cancel | pass => exact a.attended.still
    | turn _ _ u    => exact a.attended.turn a.isHeld u s.database
    | answer _ _ hw => exact a.attended.turn (p := p) a.isHeld (Writer.turn_of_answer hw) _
    | reader g      => exact a.attended.read a.flow g

theorem step (a : Attends p h s) (hs : s.step? p m = some (ns, s')) : ∃ os, Attends p (h ++ os) s' := by
  have ⟨os, g⟩ := moved_of_step hs
  exact ⟨os, a.moved g⟩

theorem close {fault : Option Fault} (a : Attends p h s)
    (hr : (∃ items, s.reader = .reading items) ∨ ∃ r rest, s.reader = .holding r rest)
    (hs : s.close fault = some (ns, s')) : ∃ os, Attends p (h ++ os) s' := by
  have ⟨l, hq⟩ := a.attended.reading_or_holding hr
  obtain ⟨⟨os, writer⟩, hw, hs⟩ := Option.bind_eq_some_iff.mp hs
  cases hs
  have st := a.reachable.step (e := .close State.closeTicket) hw
  obtain ⟨rfl, rfl⟩ := Writer.close_of_running hw l.phase
  exact ⟨_, st, a.isHeld, a.present, a.told, .closing rfl rfl rfl hq⟩

end Attends

end WriteBehind.Ingest
