import WriteBehind.Proofs.Ingest.Reference

namespace WriteBehind.Ingest

open Log (Notice)
open Text (trim)

variable {p : Plan} {items items' rest rest' : List Item} {l l' : List Char} {t : Storage.Table}
variable {s s' : State} {r : Reader} {m : Move} {ns : List Notice}

def content? (l : List Char) : Option (List Char) :=
  if Record.isVoid l then none else some (trim l)

def contents (items : List Item) : List (List Char) := (significant items).map trim

theorem content?_congr (h : trim l = trim l') : content? l = content? l' := by
  have hv : Record.isVoid l = Record.isVoid l' := by rw [Record.isVoid, Record.isVoid, h]
  rw [content?, content?, hv, h]

theorem eq_trim_of_content? {x : List Char} (h : content? l = some x) : x = trim l := by
  rw [content?] at h
  split at h <;> cases h
  rfl

theorem ofLine_of_content? : Record.ofLine l = match content? l with
    | none   => .ok none
    | some x => (Record.read x).map some := by
  rw [Record.ofLine, content?]
  split <;> rfl

theorem contents_line : contents (.line l :: items) = (content? l).toList ++ contents items := by
  rw [contents, ← List.singleton_append, significant_append, List.map_append, content?]
  split
  case isTrue hv  => rw [significant_void hv]; rfl
  case isFalse hv => rw [significant_line hv]; rfl

theorem records_eq : records items = (contents items).filterMap fun x => (Record.read x).toOption := by
  induction items with
  | nil => rfl
  | cons item items ih =>
    rw [← List.singleton_append, records_append, ih]
    cases item with
    | fault  => rfl
    | line l =>
      rw [records_line rfl, List.singleton_append, contents_line, List.filterMap_append, ofLine_of_content?]
      congr 1
      cases content? l with
      | none   => rfl
      | some x => cases hx : Record.read x <;> simp [hx, Except.map, Except.toOption]

theorem expected_congr (settings : Settings) (t : Storage.Table) (h : contents items = contents items') :
    expected settings items t = expected settings items' t ∧
      final settings items t = final settings items' t := by
  have hr : records items = records items' := by rw [records_eq, records_eq, h]
  have hl : (significant items).length = (significant items').length := by
    have hl := congrArg List.length h
    rwa [contents, contents, List.length_map, List.length_map] at hl
  simp only [expected, final, stored, hr, hl, and_self]

structure Alike (items items' : List Item) : Prop where
  contents : contents items = contents items'
  left     : fault? items = none
  right    : fault? items' = none

theorem Alike.symm (a : Alike items items') : Alike items' items := ⟨a.contents.symm, a.right, a.left⟩

-- Readers that stand in the same place, but for what is empty there.
inductive Reader.Beside : Reader → Reader → Prop
  | reading {rest rest' : List Item} :
    Alike rest rest' →
    Beside (.reading rest) (.reading rest')
  | holding {r : Record} {rest rest' : List Item} :
    Alike rest rest' →
    Beside (.holding r rest) (.holding r rest')
  | saving {rest rest' : List Item} :
    Alike rest rest' →
    Beside (.saving rest) (.saving rest')
  | closing {fault : Option Fault} : Beside (.closing fault) (.closing fault)
  | done {x : Except Fault Report} : Beside (.done x) (.done x)

theorem fault_of_cons {item : Item} (hf : fault? (item :: rest) = none) :
    ∃ l, item = .line l ∧ fault? rest = none := by
  cases item with
  | line l => exact ⟨l, rfl, hf⟩
  | fault  => cases hf

namespace Steps

theorem single (hs : s.step? p m = some (ns, s')) : Steps p s ns s' := by
  simpa using step refl hs

theorem to_content (hf : fault? items = none) (hc : s.cancelled = false) :
    (contents items = [] ∧
        Steps p { s with reader := .reading items } [] { s with reader := .reading [] }) ∨
      ∃ l rest, content? l ≠ none ∧ contents items = trim l :: contents rest ∧ fault? rest = none ∧
        Steps p { s with reader := .reading items } []
          { s with reader := .reading (.line l :: rest) } := by
  induction items with
  | nil => exact .inl ⟨rfl, refl⟩
  | cons item items ih =>
    obtain ⟨l, rfl, hf⟩ := fault_of_cons hf
    rw [contents_line]
    cases hl : content? l with
    | some x =>
      refine .inr ⟨l, items, by simp [hl], ?_, hf, refl⟩
      rw [eq_trim_of_content? hl]
      rfl
    | none =>
      have ho : Record.ofLine l = .ok none := by rw [ofLine_of_content?, hl]
      have hs : State.step? p { s with reader := .reading (.line l :: items) } .reader
          = some ([], { s with reader := .reading items }) := by
        simp only [State.step?, State.read, hc, ho]
        rfl
      rcases ih hf with ⟨hx, st⟩ | ⟨l', rest, hl', hx, hf', st⟩
      · exact .inl ⟨hx, (single hs).trans st⟩
      · exact .inr ⟨l', rest, hl', hx, hf', (single hs).trans st⟩

end Steps

theorem afterSave_beside (a : Alike rest rest') (os : Writer.History (List Record) Flush.Receipt)
    (s : State) (r₀ r : Reader) :
    ∃ r', (State.afterSave rest os { s with reader := r₀ }).reader.Beside r' ∧
      State.afterSave rest' os { s with reader := r }
        = { State.afterSave rest os { s with reader := r₀ } with reader := r' } := by
  simp only [State.afterSave]
  cases State.saved? os with
  | none   => exact ⟨_, .saving a, rfl⟩
  | some x =>
    cases x with
    | ok    => exact ⟨_, .reading a, rfl⟩
    | error => exact ⟨_, .done, rfl⟩

theorem read_of_content (a : Alike rest rest') (ht : trim l = trim l') (hl : content? l ≠ none)
    (hc : s.cancelled = false) (hr : s.reader = .reading (.line l :: rest))
    (hs : s.read p = some (ns, s')) : ∃ r', s'.reader.Beside r' ∧
      State.read p { s with reader := .reading (.line l' :: rest') }
        = some (ns, { s' with reader := r' }) := by
  have ho : Record.ofLine l' = Record.ofLine l := by
    rw [ofLine_of_content?, ofLine_of_content?, content?_congr ht]
  simp only [State.read, hr, hc, ho, ← ht, Bool.false_eq_true, if_false] at hs ⊢
  cases hx : Record.ofLine l with
  | error e =>
    simp only [hx] at hs
    cases hs
    exact ⟨_, .reading a, rfl⟩
  | ok x =>
    cases x with
    | none   => exact absurd (if_pos (isVoid_of_ofLine hx)) hl
    | some r =>
      simp only [hx] at hs
      cases hs
      exact ⟨_, .holding a, rfl⟩

theorem close_beside {fault : Option Fault} (hs : s.close fault = some (ns, s')) (r : Reader) :
    s'.reader = .closing fault ∧ State.close fault { s with reader := r } = some (ns, s') := by
  obtain ⟨⟨os, writer⟩, hw, hs⟩ := Option.bind_eq_some_iff.mp hs
  cases hs
  refine ⟨rfl, ?_⟩
  simp only [State.close, hw]
  rfl

namespace Reader.Beside

theorem of_close {fault : Option Fault} (h : s'.reader = .closing fault) :
    s'.reader.Beside s'.reader := h ▸ .closing

theorem read_of_alike (a : Alike items items') (hc : s.cancelled = false)
    (hr : s.reader = .reading items) (hs : s.read p = some (ns, s')) : ∃ r', s'.reader.Beside r' ∧
      Steps p { s with reader := .reading items' } ns { s' with reader := r' } := by
  cases items with
  | nil =>
    simp only [State.read, hr, hc, Bool.false_eq_true, if_false] at hs
    obtain ⟨hr, hs⟩ := close_beside hs (.reading [])
    rcases Steps.to_content a.right hc with ⟨_, st⟩ | ⟨l, rest, _, hx, _⟩
    case inr => exact absurd (a.contents.trans hx) (by simp [contents, significant])
    refine ⟨_, of_close hr, st.trans (.single (m := .reader) ?_)⟩
    simpa only [State.step?, State.read, hc, Bool.false_eq_true, if_false] using hs
  | cons item rest =>
    obtain ⟨l, rfl, hf⟩ := fault_of_cons a.left
    have hx := a.contents
    rw [contents_line] at hx
    cases hl : content? l with
    | none =>
      -- An empty line is a move of this reader alone.
      have ho : Record.ofLine l = .ok none := by rw [ofLine_of_content?, hl]
      simp only [State.read, hr, ho] at hs
      rw [if_neg (by simp [hc])] at hs
      cases hs
      rw [hl] at hx
      exact ⟨.reading items', .reading ⟨hx, hf, a.right⟩, .refl⟩
    | some x =>
      rw [hl, eq_trim_of_content? hl] at hx
      rcases Steps.to_content a.right hc with ⟨hn, _⟩ | ⟨l', rest', _, hx', hf', st⟩
      case inl => exact absurd (hx.trans hn) (by simp)
      obtain ⟨ht, hx⟩ := List.cons_eq_cons.mp (hx.trans hx')
      obtain ⟨r', b, hs⟩ := read_of_content ⟨hx, hf, hf'⟩ ht (by simp [hl]) hc hr hs
      exact ⟨r', b, st.trans (.single (m := .reader) hs)⟩

theorem read_of_cancelled (b : s.reader.Beside r) (hc : s.cancelled = true)
    (hr : (∃ items, s.reader = .reading items) ∨ ∃ x rest, s.reader = .holding x rest)
    (hs : s.read p = some (ns, s')) : ∃ r', s'.reader.Beside r' ∧
      State.read p { s with reader := r } = some (ns, { s' with reader := r' }) := by
  have of_interrupt (hs : s.interrupt = some (ns, s')) : s'.reader.Beside s'.reader ∧
      State.interrupt { s with reader := r } = some (ns, s') := by
    obtain ⟨hr, hs⟩ := close_beside hs r
    exact ⟨of_close hr, hs⟩
  rcases hr with ⟨items, hr⟩ | ⟨x, rest, hr⟩
  all_goals
    simp only [State.read, hr, hc, if_true] at hs
    obtain ⟨b', hs⟩ := of_interrupt hs
    refine ⟨s'.reader, b', ?_⟩
    rw [hr] at b
    cases b
    simpa only [State.read, hc, if_true] using hs

theorem read_of_holding {x : Record} (a : Alike rest rest') (hc : s.cancelled = false)
    (hr : s.reader = .holding x rest) (hs : s.read p = some (ns, s')) : ∃ r', s'.reader.Beside r' ∧
      State.read p { s with reader := .holding x rest' } = some (ns, { s' with reader := r' }) := by
  have hn : ¬s.cancelled = true := by simp [hc]
  simp only [State.read, hr] at hs ⊢
  rw [if_neg hn] at hs ⊢
  obtain ⟨⟨os, writer⟩, hw, hs⟩ := Option.bind_eq_some_iff.mp hs
  cases hs
  obtain ⟨r', b, hb⟩ := afterSave_beside a os { s with writer } (.holding x rest) (.holding x rest')
  refine ⟨r', b, ?_⟩
  simp only [hw]
  exact congrArg (fun s => some (Writer.History.notices os, s)) hb

theorem read_of_saving (a : Alike rest rest') (hr : s.reader = .saving rest)
    (hs : s.read p = some (ns, s')) : ∃ r', s'.reader.Beside r' ∧
      State.read p { s with reader := .saving rest' } = some (ns, { s' with reader := r' }) := by
  simp only [State.read, hr] at hs ⊢
  split at hs
  case isTrue hc =>
    obtain ⟨⟨os, writer⟩, hw, hs⟩ := Option.bind_eq_some_iff.mp hs
    cases hs
    refine ⟨_, .reading a, ?_⟩
    simp only [hw, if_pos hc]
    rfl
  case isFalse hc =>
    obtain ⟨⟨os, writer⟩, hw, hs⟩ := Option.bind_eq_some_iff.mp hs
    cases hs
    obtain ⟨r', b, hb⟩ := afterSave_beside a os { s with writer } (.saving rest) (.saving rest')
    refine ⟨r', b, ?_⟩
    simp only [hw, if_neg hc]
    exact congrArg (fun s => some (Writer.History.notices os, s)) hb

theorem read (b : s.reader.Beside r) (hs : s.read p = some (ns, s')) :
    ∃ r', s'.reader.Beside r' ∧
      Steps p { s with reader := r } ns { s' with reader := r' } := by
  have single (h : ∃ r', s'.reader.Beside r' ∧
      State.read p { s with reader := r } = some (ns, { s' with reader := r' })) :
      ∃ r', s'.reader.Beside r' ∧ Steps p { s with reader := r } ns { s' with reader := r' } := by
    obtain ⟨r', b, hs⟩ := h
    exact ⟨r', b, .single (m := .reader) hs⟩
  cases hr : s.reader with
  | reading items =>
    rcases s.cancelled.eq_false_or_eq_true with hc | hc
    case inl => exact single (b.read_of_cancelled hc (.inl ⟨_, hr⟩) hs)
    case inr =>
      rw [hr] at b
      cases b with
      | reading a => exact read_of_alike a hc hr hs
  | holding x rest =>
    rcases s.cancelled.eq_false_or_eq_true with hc | hc
    case inl => exact single (b.read_of_cancelled hc (.inr ⟨_, _, hr⟩) hs)
    case inr =>
      rw [hr] at b
      cases b with
      | holding a => exact single (read_of_holding a hc hr hs)
  | saving rest   =>
    rw [hr] at b
    cases b with
    | saving a => exact single (read_of_saving a hr hs)
  | closing fault =>
    rw [hr] at b
    cases b with
    | closing =>
      refine ⟨s'.reader, ?_, .single (m := .reader) ?_⟩
      case refine_2 => rwa [State.step?, ← hr]
      simp only [State.read, hr] at hs
      obtain ⟨⟨os, writer⟩, hw, hs⟩ := Option.bind_eq_some_iff.mp hs
      cases fault <;> cases hs <;> exact .done
  | done          => simp [State.read, hr] at hs

theorem loop (b : s.reader.Beside r) {e : Writer.Event Flush.Receipt}
    (hs : s.loop p e = some (ns, s')) :
    s'.reader.Beside r ∧ State.loop p e { s with reader := r } = some (ns, { s' with reader := r }) := by
  obtain ⟨⟨os, writer⟩, hw, hs⟩ := Option.bind_eq_some_iff.mp hs
  cases hs
  simp only [State.loop, hw]
  exact ⟨b, rfl⟩

theorem step (b : s.reader.Beside r) (hs : s.step? p m = some (ns, s')) :
    ∃ r', s'.reader.Beside r' ∧
      Steps p { s with reader := r } ns { s' with reader := r' } := by
  have of_loop {s : State} {e} (b : s.reader.Beside r) (hs : s.loop p e = some (ns, s'))
      (hm : ∀ s : State, s.step? p m = s.loop p e) : ∃ r', s'.reader.Beside r' ∧
      Steps p { s with reader := r } ns { s' with reader := r' } := by
    obtain ⟨b, hs⟩ := b.loop hs
    exact ⟨r, b, .single (m := m) (by rw [hm, hs])⟩
  cases m with
  | reader    => exact b.read hs
  | cancel    => cases hs; exact ⟨r, b, .single (m := .cancel) rfl⟩
  | wake      => exact of_loop b hs fun _ => rfl
  | receive   => exact of_loop b hs fun _ => rfl
  | stop      => exact of_loop b hs fun _ => rfl
  | tick      => exact of_loop b hs fun _ => rfl
  | pass n    => exact of_loop b hs fun _ => rfl
  | answer    =>
    simp only [State.step?, State.answer] at hs
    split at hs
    case h_2 => cases hs
    case h_1 aim buffer chunk go hl =>
      have b : State.reader { s with database := (s.database.write chunk).2.2 } |>.Beside r := b
      obtain ⟨b, hs⟩ := b.loop hs
      refine ⟨r, b, .single (m := .answer) ?_⟩
      simp only [State.step?, State.answer, hl]
      exact hs

theorem steps (b : s.reader.Beside r) (hs : Steps p s ns s') :
    ∃ r', s'.reader.Beside r' ∧
      Steps p { s with reader := r } ns { s' with reader := r' } := by
  induction hs with
  | refl => exact ⟨r, b, .refl⟩
  | step _ hs ih =>
    obtain ⟨r', b', st⟩ := ih
    obtain ⟨r'', b'', st'⟩ := b'.step hs
    exact ⟨r'', b'', st.trans st'⟩

end Reader.Beside

-- Inputs that hold the same have the same runs, as far as these come to an end.
theorem steps_iff_of_alike (a : Alike items items') {d : Storage.Database} {x : Except Fault Report}
    (hx : s.reader = .done x) :
    Steps p (p.reading items d) ns s ↔ Steps p (p.reading items' d) ns s := by
  have to_other {items items'} (a : Alike items items') (hs : Steps p (p.reading items d) ns s) :
      Steps p (p.reading items' d) ns s := by
    obtain ⟨r, b, st⟩ := Reader.Beside.steps (r := .reading items') (.reading a) hs
    rw [hx] at b
    cases b
    rwa [← hx] at st
  exact ⟨to_other a, to_other a.symm⟩

end WriteBehind.Ingest
