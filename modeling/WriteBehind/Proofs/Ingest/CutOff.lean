import WriteBehind.Proofs.Ingest.Moves

namespace WriteBehind.Ingest

open Flush (Receipt)
open Log (Notice)
open Writer (History Turn)

variable {p : Plan} {items tail xs : List Item} {d : Storage.Database} {m : Move} {ns : List Notice}
variable {h os : History (List Record) Receipt} {s s' : State} {r : Reader}
variable {writer : Writer.State (List Record) Receipt}

def Item.isLine : Item → Bool
  | .line _  => true
  | .fault _ => false

def before (items : List Item) : List Item := items.takeWhile Item.isLine

def ending : List Item → Option Fault
  | .fault text :: _ => some (.readInput text)
  | _                => none

theorem exists_of_line {l : List Char} {rest : List Item} (ht : ∀ l rest, tail ≠ .line l :: rest)
    (h : .line l :: rest = xs ++ tail) : ∃ ys, xs = .line l :: ys ∧ rest = ys ++ tail := by
  cases xs with
  | nil       => exact absurd h.symm (ht l rest)
  | cons x xs => cases h; exact ⟨xs, rfl, rfl⟩

theorem ending_of_close {fault : Option Fault} (hx : ∀ x ∈ xs, x.isLine = true)
    (h : xs ++ tail = [] ∧ fault = none ∨
      ∃ text rest, xs ++ tail = .fault text :: rest ∧ fault = some (.readInput text)) :
    xs = [] ∧ fault = ending tail := by
  cases xs with
  | nil =>
    rcases h with ⟨rfl, rfl⟩ | ⟨text, rest, rfl, rfl⟩
    · exact ⟨rfl, rfl⟩
    · exact ⟨rfl, rfl⟩
  | cons x xs =>
    rcases h with ⟨h, _⟩ | ⟨text, rest, h, _⟩
    · cases h
    · cases h
      exact absurd (hx _ List.mem_cons_self) (by simp [Item.isLine])

namespace State

def endOf (tail : List Item) (s : State) : Option Fault :=
  if s.interrupted then none else ending tail

theorem endOf_of_not_interrupted (hi : s.interrupted = false) : s.endOf tail = ending tail := by
  simp [endOf, hi]

-- A save is refused only by a loop that has crashed.
theorem Listens.broken_of_save {t : Writer.Ticket} {x : Record} (l : s.Listens)
    (f : Writer.Flow h s.writer) (hs : s.writer.save t x = some (os, writer)) :
    ∀ e, saved? os = some (.error e) → writer.loop = .broken := by
  cases Writer.acts_of_save hs with
  | refuse _ hf  => simp [l.phase, Writer.Phase.refusal?] at hf
  | fail _ _ hn  => exact fun _ _ => l.loop (f.shut.mpr hn)
  | enter | wait => simp [saved?]

theorem Listens.broken_of_resume {t : Writer.Ticket} (l : s.Listens) (f : Writer.Flow h s.writer)
    (hs : s.writer.resume t = some (os, writer)) :
    ∀ e, saved? os = some (.error e) → writer.loop = .broken := by
  cases Writer.acts_of_resume hs with
  | resume       => simp [saved?]
  | shutOut _ hn => exact fun _ _ => l.loop (f.shut.mpr hn)

end State

-- Where the reader stands that has no more than the lines before `tail` to read.
inductive Beside (p : Plan) (tail : List Item) (s : State) : Reader → Prop
  | reading {xs : List Item} :
    s.reader = .reading (xs ++ tail) →
    (∀ x ∈ xs, x.isLine = true) →
    Beside p tail s (.reading xs)
  | holding {x : Record} {xs : List Item} :
    s.reader = .holding x (xs ++ tail) →
    (∀ x ∈ xs, x.isLine = true) →
    Beside p tail s (.holding x xs)
  | saving {xs : List Item} :
    s.reader = .saving (xs ++ tail) →
    (∀ x ∈ xs, x.isLine = true) →
    Beside p tail s (.saving xs)
  | closing :
    s.reader = .closing (s.endOf tail) →
    Beside p tail s (.closing none)
  | done :
    s.reader = .done ((s.endOf tail).elim (.ok (s.report p)) .error) →
    Beside p tail s (.done (.ok (s.report p)))
  | refused {e : Writer.Fault} :
    s.reader = .done (.error (.writer e)) →
    s.writer.loop = .broken →
    Beside p tail s (.done (.error (.writer e)))

namespace Beside

theorem turn (b : Beside p tail s r) (a : Attends p h s) (u : Turn p.setup s.writer os writer)
    (d : Storage.Database) : Beside p tail { s with writer, database := d } r := by
  have undone {x} (hr : s.reader = .done x) : False := (a.attended.of_done hr).not_turn u
  cases b with
  | reading hr hx => exact .reading hr hx
  | holding hr hx => exact .holding hr hx
  | saving hr hx  => exact .saving hr hx
  | closing hr    => exact .closing hr
  | done hr       => exact (undone hr).elim
  | refused hr    => exact (undone hr).elim

theorem still (b : Beside p tail s r) (n : Nat) (c : Bool) :
    Beside p tail { s with writer := { s.writer with now := n }, cancelled := c } r := by
  cases b with
  | reading hr hx => exact .reading hr hx
  | holding hr hx => exact .holding hr hx
  | saving hr hx  => exact .saving hr hx
  | closing hr    => exact .closing hr
  | done hr       => exact .done hr
  | refused hr hl => exact .refused hr hl

theorem afterSave (p : Plan) (tail : List Item) (hx : ∀ x ∈ xs, x.isLine = true)
    (hb : ∀ e, State.saved? os = some (.error e) → s.writer.loop = .broken) (r₀ : Reader) :
    ∃ r, Beside p tail (s.afterSave (xs ++ tail) os) r ∧
      State.afterSave xs os { s with reader := r₀ }
        = { s.afterSave (xs ++ tail) os with reader := r } := by
  simp only [State.afterSave]
  cases hs : State.saved? os with
  | none => exact ⟨_, .saving rfl hx, rfl⟩
  | some x =>
    cases x with
    | ok      => exact ⟨_, .reading rfl hx, rfl⟩
    | error e => exact ⟨_, .refused rfl (hb e hs), rfl⟩

theorem read_of_join (hr : s.reader = .closing none) (hw : s.writer.join = some (os, writer)) :
    ∃ ns, s.read p
      = some (ns, { s with writer, reader := .done (.ok (State.report p { s with writer })) }) := by
  simp only [State.read, hr, hw]
  exact ⟨_, rfl⟩

theorem at_line {l : List Char} {rest : List Item} (b : Beside p tail s r)
    (ht : ∀ l rest, tail ≠ .line l :: rest) (hr : s.reader = .reading (.line l :: rest)) :
    ∃ ys, r = .reading (.line l :: ys) ∧ rest = ys ++ tail ∧ ∀ y ∈ ys, y.isLine = true := by
  cases b with
  | @reading xs hr' hx =>
    obtain ⟨ys, rfl, rfl⟩ := exists_of_line ht (Reader.reading.inj (hr.symm.trans hr'))
    exact ⟨ys, rfl, rfl, fun y hm => hx y (List.mem_cons_of_mem _ hm)⟩
  | _ => simp_all

theorem at_close {fault : Option Fault} (b : Beside p tail s r) (hr : s.reader = .closing fault) :
    r = .closing none ∧ s.endOf tail = fault := by
  cases b with
  | closing hr' => exact ⟨rfl, Reader.closing.inj (hr'.symm.trans hr)⟩
  | _           => simp_all

theorem read (b : Beside p tail s r) (ht : ∀ l rest, tail ≠ .line l :: rest) (a : Attends p h s)
    (g : Reading p s os s') : ∃ r' ns, Beside p tail s' r' ∧
      State.read p { s with reader := r } = some (ns, { s' with reader := r' }) := by
  cases g with
  | @close os writer fault items hr hc hi hw =>
    have hn : s.interrupted = false := Bool.eq_false_iff.mpr fun h => by simp [a.told h] at hc
    cases b with
    | @reading xs hr' hx =>
      cases hr.symm.trans hr'
      obtain ⟨rfl, rfl⟩ := ending_of_close hx hi
      refine ⟨_, History.notices os,
        .closing (congrArg Reader.closing (State.endOf_of_not_interrupted hn).symm), ?_⟩
      simp only [State.read, hc, State.close, hw]
      rfl
    | _ => simp_all
  | @interrupt os writer hr hc hw =>
    refine ⟨.closing none, History.notices os, .closing rfl, ?_⟩
    cases b with
    | reading | holding => simp only [State.read, hc, State.interrupt, State.close, hw]; rfl
    | _                 => simp_all
  | @void l rest hr hc hl =>
    obtain ⟨ys, rfl, rfl, hy⟩ := b.at_line ht hr
    refine ⟨_, [], .reading rfl hy, ?_⟩
    simp only [State.read, hc, hl]
    rfl
  | @invalid l e rest hr hc hl =>
    obtain ⟨ys, rfl, rfl, hy⟩ := b.at_line ht hr
    refine ⟨_, [.skipped (s.lines + 1) (e.message (Text.trim l))], .reading rfl hy, ?_⟩
    simp only [State.read, hc, hl]
    rfl
  | @record l x rest hr hc hl =>
    obtain ⟨ys, rfl, rfl, hy⟩ := b.at_line ht hr
    refine ⟨_, [], .holding rfl hy, ?_⟩
    simp only [State.read, hc, hl]
    rfl
  | @save x rest os writer hr hc hw =>
    obtain ⟨l, _⟩ := a.attended.reading_or_holding (.inr ⟨_, _, hr⟩)
    cases b with
    | @holding _ xs hr' hx =>
      cases hr.symm.trans hr'
      obtain ⟨r', b', he⟩ := @afterSave xs os { s with writer } p tail hx (l.broken_of_save a.flow hw)
        (.holding x xs)
      refine ⟨r', History.notices os, b', ?_⟩
      have hs : State.read p { s with reader := .holding x xs } = some (History.notices os,
          State.afterSave xs os { s with writer, reader := .holding x xs }) := by
        simp only [State.read, hc, hw]
        rfl
      exact hs.trans (congrArg (fun s => some (History.notices os, s)) he)
    | _ => simp_all
  | @resume rest os writer hr hc hw =>
    obtain ⟨l, _⟩ := a.attended.of_saving hr
    cases b with
    | @saving xs hr' hx =>
      cases hr.symm.trans hr'
      obtain ⟨r', b', he⟩ := @afterSave xs os { s with writer } p tail hx (l.broken_of_resume a.flow hw)
        (.saving xs)
      refine ⟨r', History.notices os, b', ?_⟩
      have hs : State.read p { s with reader := .saving xs } = some (History.notices os,
          State.afterSave xs os { s with writer, reader := .saving xs }) := by
        simp only [State.read, hc, hw]
        rfl
      exact hs.trans (congrArg (fun s => some (History.notices os, s)) he)
    | _ => simp_all
  | @forsake rest os writer hr hc hw =>
    cases b with
    | @saving xs hr' hx =>
      cases hr.symm.trans hr'
      refine ⟨_, History.notices os, .reading rfl hx, ?_⟩
      simp only [State.read, hc, hw]
      rfl
    | _ => simp_all
  | fail hr hw =>
    obtain ⟨rfl, he⟩ := b.at_close hr
    obtain ⟨ns, hs⟩ := read_of_join (p := p) (s := { s with reader := .closing none }) rfl hw
    exact ⟨_, ns, .done (congrArg (fun f => Reader.done (Option.elim f _ _)) he.symm), hs⟩
  | finish hr hw =>
    obtain ⟨rfl, he⟩ := b.at_close hr
    obtain ⟨ns, hs⟩ := read_of_join (p := p) (s := { s with reader := .closing none }) rfl hw
    exact ⟨_, ns, .done (congrArg (fun f => Reader.done (Option.elim f _ _)) he.symm), hs⟩

theorem step (b : Beside p tail s r) (ht : ∀ l rest, tail ≠ .line l :: rest) (a : Attends p h s)
    (g : Moved p s m os s') : ∃ r' ns, Beside p tail s' r' ∧
      State.step? p { s with reader := r } m = some (ns, { s' with reader := r' }) := by
  cases g with
  | reader g => exact b.read ht a g
  | cancel   => exact ⟨r, [], b.still _ true, rfl⟩
  | @turn m e os writer he hw u =>
    refine ⟨r, History.notices os, b.turn a u s.database, ?_⟩
    cases m with
    | wake | receive | stop | tick => cases he; simp only [State.step?, State.loop, hw]; rfl
    | _                            => cases he
  | @answer aim buffer chunk go ns x d os writer hl hd hw =>
    refine ⟨r, History.notices os, b.turn a (Writer.turn_of_answer hw) d, ?_⟩
    simp only [State.step?, State.answer, hl, hd, State.loop, Writer.State.step?, hw]
    rfl
  | @pass n => exact ⟨r, _, b.still _ _, rfl⟩

end Beside

structure Paired (p : Plan) (tail : List Item) (d : Storage.Database)
    (h : History (List Record) Receipt) (s : State) (r : Reader) : Prop extends Attends p h s where
  untouched : h.answers = [] → s.database = d
  beside    : Beside p tail s r

namespace Paired

theorem start (hi : items = before items ++ tail) :
    Paired p tail d [.logged .opened, .opened 0 (.ok ())] (p.reading items d)
      (.reading (before items)) where
  toAttends   := .start
  untouched _ := rfl
  beside      := .reading (congrArg _ hi) (fun _ hx => List.mem_takeWhile_imp hx)

theorem step (b : Paired p tail d h s r) (ht : ∀ l rest, tail ≠ .line l :: rest)
    (hs : s.step? p m = some (ns, s')) :
    ∃ os r' ns', Paired p tail d (h ++ os) s' r' ∧
      State.step? p { s with reader := r } m = some (ns', { s' with reader := r' }) := by
  have ⟨os, g⟩ := moved_of_step hs
  have ⟨r', ns', b', hu⟩ := b.beside.step ht b.toAttends g
  refine ⟨os, r', ns', ⟨b.toAttends.moved g, fun ha => ?_, b'⟩, hu⟩
  rw [History.answers_append] at ha
  have ⟨hn, hx⟩ := List.append_eq_nil_iff.mp ha
  cases g with
  | reader g             => exact (call_of_reading g).right.trans (b.untouched hn)
  | answer hl _ hw       => simp [Writer.answers_of_answer hw hl] at hx
  | turn | pass | cancel => exact b.untouched hn

theorem of_steps (hi : items = before items ++ tail) (ht : ∀ l rest, tail ≠ .line l :: rest)
    (hs : Steps p (p.reading items d) ns s) :
    ∃ h r ns', Paired p tail d h s r ∧
      Steps p (p.reading (before items) d) ns' { s with reader := r } := by
  induction hs with
  | refl => exact ⟨_, _, _, start hi, .refl⟩
  | step _ hs ih =>
    have ⟨h, r, ns, b, st⟩ := ih
    have ⟨os, r', ns', b', hu⟩ := b.step ht hs
    exact ⟨h ++ os, r', ns ++ ns', b', .step st hu⟩

end Paired

end WriteBehind.Ingest
