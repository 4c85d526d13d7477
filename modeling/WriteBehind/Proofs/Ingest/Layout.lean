import WriteBehind.Ingest.Layout
import WriteBehind.Proofs.Ingest.Contents
import WriteBehind.Proofs.Ingest.Failure
import WriteBehind.Proofs.Text.Lines

namespace WriteBehind.Ingest

open Storage (Connection Disk Table)
open Text (trim)
open Text.Utf8 (encode)
open Writer (Representable)

variable {p : Plan} {l l' : Layout} {ls : List (List Char × LineEnd)} {s : List Char} {e : LineEnd}
variable {settings : Settings} {disk disk' opened opened' : Disk} {c : Connection}
variable {standard standard' : List UInt8}

namespace Layout

def items (l : Layout) : List Item := Item.ofBytes (encode l.text)

def bare (l : Layout) : List (List Char) := l.lines.map (·.1) ++ [l.last]

theorem exists_layout (s : List Char) : ∃ l : Layout, l.IsCut ∧ l.text = s := by
  induction s with
  | nil => exact ⟨⟨[], []⟩, ⟨by simp, by simp⟩, rfl⟩
  | cons c s ih =>
    obtain ⟨⟨ls, last⟩, ⟨hls, hl⟩, rfl⟩ := ih
    by_cases hc : c = '\n'
    case pos =>
      subst hc
      exact ⟨⟨([], .lf) :: ls, last⟩, ⟨by simpa using hls, hl⟩, rfl⟩
    case neg =>
      cases ls with
      | nil        => exact ⟨⟨[], c :: last⟩, ⟨by simp, by simp [hl, Ne.symm hc]⟩, rfl⟩
      | cons le ls =>
        obtain ⟨hle, hls⟩ := List.forall_mem_cons.mp hls
        refine ⟨⟨(c :: le.1, le.2) :: ls, last⟩, ⟨?_, hl⟩, rfl⟩
        exact List.forall_mem_cons.mpr ⟨by simp [hle, Ne.symm hc], hls⟩

theorem trim_lineEnd (s : List Char) (e : LineEnd) : trim (s ++ e.text) = trim s := by
  have he : ∀ c ∈ e.text, Text.isBlank c = true := by cases e <;> simp [LineEnd.text, Text.isBlank]
  have ht := Text.trim_append (a := []) (s := s) (by simp) he
  rwa [List.nil_append] at ht

theorem ofBytes_line (hs : '\n' ∉ s) (e : LineEnd) (t : List Char) : ∃ x, trim x = trim s ∧
    Item.ofBytes (encode (s ++ e.text ++ t)) = .line x :: Item.ofBytes (encode t) := by
  have of_lineFeed {s : List Char} (hs : '\n' ∉ s) :
      Item.ofBytes (encode (s ++ '\n' :: t))
        = .line (Text.Lines.chomp (s ++ ['\n'])) :: Item.ofBytes (encode t) := by
    rw [Item.ofBytes, Text.Lines.pieces_encode_line hs, Item.ofPieces, Text.Lines.read_encode]
    rfl
  cases e with
  | lf   =>
    refine ⟨Text.Lines.chomp (s ++ LineEnd.lf.text), ?_, ?_⟩
    · rw [Text.Lines.trim_chomp, trim_lineEnd]
    · rw [List.append_assoc]
      exact of_lineFeed hs
  | crlf =>
    refine ⟨Text.Lines.chomp (s ++ LineEnd.crlf.text), ?_, ?_⟩
    · rw [Text.Lines.trim_chomp, trim_lineEnd]
    · have hs' : '\n' ∉ s ++ ['\r'] := by simp [hs]
      have hf := of_lineFeed hs'
      simpa [LineEnd.text] using hf

theorem contents_ofBytes_last (hs : '\n' ∉ s) :
    Ingest.contents (Item.ofBytes (encode s)) = (content? s).toList := by
  rw [Item.ofBytes, Text.Lines.pieces_encode_last hs]
  split
  case isTrue he => rw [he]; rfl
  case isFalse   =>
    rw [Item.ofPieces, Text.Lines.read_encode]
    simp only [Item.ofPieces, contents_line, content?_congr (Text.Lines.trim_chomp s)]
    exact List.append_nil _

theorem contents_items (hl : l.IsCut) : contents l.items = l.bare.filterMap content? := by
  obtain ⟨ls, last⟩ := l
  obtain ⟨hls, hl : '\n' ∉ last⟩ := hl
  induction ls with
  | nil =>
    rw [items, text, List.flatMap_nil, List.nil_append, contents_ofBytes_last hl, bare, List.map_nil,
      List.nil_append, List.filterMap_cons, List.filterMap_nil]
    cases content? last <;> rfl
  | cons le ls ih =>
    obtain ⟨hle, hls⟩ := List.forall_mem_cons.mp hls
    obtain ⟨x, hx, ho⟩ := ofBytes_line hle le.2 (Layout.text ⟨ls, last⟩)
    have ht : Layout.text ⟨le :: ls, last⟩ = le.1 ++ le.2.text ++ Layout.text ⟨ls, last⟩ := by
      simp [text]
    have ih : contents (Item.ofBytes (encode (Layout.text ⟨ls, last⟩))) = _ := ih hls
    rw [items, ht, ho, contents_line, ih, content?_congr hx, bare, bare, List.map_cons, List.cons_append,
      List.filterMap_cons]
    cases content? le.1 <;> rfl

theorem fault_items (l : Layout) : fault? l.items = none :=
  fault_ofBytes (Text.Utf8.decode_encode l.text)

theorem isCut_iff : l.IsCut ↔ ∀ s ∈ l.bare, '\n' ∉ s := by
  simp [IsCut, bare, or_imp, forall_and]

theorem content?_pad {t u : List Char} (ht : Padding t) (hu : Padding u) :
    content? (t ++ s ++ u) = content? s :=
  content?_congr (Text.trim_append (fun c hc => (ht c hc).left) fun c hc => (hu c hc).left)

theorem notMem_pad {t u : List Char} (ht : Padding t) (hu : Padding u) :
    '\n' ∉ t ++ s ++ u ↔ '\n' ∉ s := by
  have not_in {t : List Char} (ht : Padding t) : '\n' ∉ t := fun h => (ht _ h).right rfl
  simp [not_in ht, not_in hu]

inductive Resembles : List (List Char) → List (List Char) → Prop
  | same {xs : List (List Char)} :
    Resembles xs xs
  | insert {xs ys : List (List Char)} {s : List Char} :
    content? s = none → '\n' ∉ s →
    Resembles (xs ++ ys) (xs ++ s :: ys)
  | replace {xs ys : List (List Char)} {s s' : List Char} :
    content? s' = content? s → ('\n' ∉ s' ↔ '\n' ∉ s) →
    Resembles (xs ++ s :: ys) (xs ++ s' :: ys)

theorem Edit.resembles (e : Edit l l') : Resembles l.bare l'.bare := by
  cases e with
  | @insert as bs s e last hv hn =>
    have h : Resembles (as.map (·.1) ++ (bs.map (·.1) ++ [last]))
        (as.map (·.1) ++ s :: (bs.map (·.1) ++ [last])) := .insert (if_pos hv) hn
    simpa [bare] using h
  | @pad as bs s t u e last ht hu =>
    have h : Resembles (as.map (·.1) ++ s :: (bs.map (·.1) ++ [last]))
        (as.map (·.1) ++ (t ++ s ++ u) :: (bs.map (·.1) ++ [last])) :=
      .replace (content?_pad ht hu) (notMem_pad ht hu)
    simpa [bare] using h
  | padLast ht hu => exact .replace (content?_pad ht hu) (notMem_pad ht hu)
  | @lineEnd as bs s e e' last =>
    have h : Layout.bare ⟨as ++ (s, e) :: bs, last⟩ = Layout.bare ⟨as ++ (s, e') :: bs, last⟩ := by
      simp [bare]
    exact h ▸ .same
  | @finish ls s e =>
    have h : Resembles (ls.map (·.1) ++ [s] ++ []) (ls.map (·.1) ++ [s] ++ [[]]) :=
      .insert rfl (by simp)
    simpa [bare] using h

theorem Resembles.keeps {xs ys : List (List Char)} (h : Resembles xs ys) :
    ((∀ s ∈ xs, '\n' ∉ s) ↔ ∀ s ∈ ys, '\n' ∉ s) ∧ xs.filterMap content? = ys.filterMap content? := by
  cases h with
  | same          => exact ⟨Iff.rfl, rfl⟩
  | insert hc hn  => simp [or_imp, forall_and, List.filterMap_append, hc, hn]
  | replace hc hn => simp [or_imp, forall_and, List.filterMap_append, List.filterMap_cons, hc, hn]

theorem Edits.keeps (e : l.Edits l') :
    (l.IsCut ↔ l'.IsCut) ∧ l.bare.filterMap content? = l'.bare.filterMap content? := by
  simp only [isCut_iff]
  induction e with
  | refl        => exact ⟨Iff.rfl, rfl⟩
  | edit _ e ih => exact ⟨ih.left.trans e.resembles.keeps.left, ih.right.trans e.resembles.keeps.right⟩
  | undo _ e ih =>
    exact ⟨ih.left.trans e.resembles.keeps.left.symm, ih.right.trans e.resembles.keeps.right.symm⟩

theorem Edits.alike (e : l.Edits l') (hl : l.IsCut) : Alike l.items l'.items where
  contents := by rw [contents_items hl, contents_items (e.keeps.left.mp hl), e.keeps.right]
  left     := fault_items l
  right    := fault_items l'

end Layout

theorem runs_iff {items : List Item} {s : State} {last : Disk} {r : Except Fault Report}
    (f : Feeds p standard disk opened c items) : Runs p standard disk (some s) last r ↔
      p.settings.check = .ok () ∧ last = opened.save { c with database := s.database } ∧
        s.reader = .done r ∧ ∃ ns, Steps p (p.reading items c.database) ns s := by
  constructor
  case mp =>
    intro h
    have hs : p.settings.check = .ok () := by cases h <;> assumption
    obtain ⟨_, hl, hd, hr, st⟩ := f.of_runs hs h
    cases hl
    exact ⟨hs, hd, hr, st⟩
  case mpr =>
    rintro ⟨hs, rfl, hr, _, st⟩
    obtain ⟨⟨_, ho⟩, ⟨_, hi⟩⟩ := f
    exact .read hs ho hi st hr

-- Whatever goes on next, a run that is done and was not interrupted has come to one report and one table.
-- If nothing is put off for ever, it is done at some time.
structure ComesTo (p : Plan) (items : List Item) (t : Table) (report : Report) (t' : Table) : Prop where
  finite   : ∀ ns s r, Steps p (p.reading items (.holding t)) ns s →
    Representable (s.writer.now + p.settings.writer.interval) → s.interrupted = false →
    s.reader = .done r → r = .ok report ∧ s.database = .holding t'
  infinite : ∀ e : Execution p (p.reading items (.holding t)), e.Fair →
    ∃ n, ∀ i ≥ n, (∃ r, (e.state i).reader = .done r) ∧
      (e.InTime → (e.state i).interrupted = false →
        (e.state i).reader = .done (.ok report) ∧ (e.state i).database = .holding t')

theorem comesTo_expected {items : List Item} (t : Table) (hf : fault? items = none)
    (hs : p.settings.check = .ok ()) (hd : p.settings.writer.drainOnClose = true) :
    ComesTo p items t (expected p.settings items t) (final p.settings items t) := by
  have ⟨hz, _⟩ := sizes_of_check hs
  constructor
  case finite =>
    intro ns s r st ht hi hr
    have e := ends_of_steps hz hd hf st ht hi hr
    exact ⟨Reader.done.inj (hr.symm.trans e.report), e.database⟩
  case infinite =>
    intro e hfair
    have ⟨n, ends⟩ := ends_of_fair e hs hd hf hfair
    refine ⟨n, fun i hi => ⟨(ends i hi).left, fun ht hn => ?_⟩⟩
    have e' := (ends i hi).right ht hn
    exact ⟨e'.report, e'.database⟩

-- Whatever is edited in the layout of a text, the runs over it end as they did: one by one with the same
-- notices, report and table, and if the writer drains all with one report and one table.
theorem ends_of_edits (p : Plan) (hl : l.IsCut) (he : l.Edits l') :
    (∀ s : List Char, ∃ k : Layout, k.IsCut ∧ k.text = s) ∧
    (∀ d ns s r, s.reader = .done r →
      (Steps p (p.reading l.items d) ns s ↔ Steps p (p.reading l'.items d) ns s)) ∧
    (∀ standard disk opened standard' disk' opened' c, Feeds p standard disk opened c l.items →
      Feeds p standard' disk' opened' c l'.items → ∀ s r,
        (Runs p standard disk (some s) (opened.save { c with database := s.database }) r ↔
          Runs p standard' disk' (some s) (opened'.save { c with database := s.database }) r)) ∧
    (p.settings.check = .ok () → p.settings.writer.drainOnClose = true →
      ∀ t, ∃ report t', ComesTo p l.items t report t' ∧ ComesTo p l'.items t report t') := by
  have a := he.alike hl
  refine ⟨Layout.exists_layout, fun d ns s r hr => steps_iff_of_alike a hr, ?runs, ?drains⟩
  case runs =>
    intro standard disk opened standard' disk' opened' c f f' s r
    rw [runs_iff f, runs_iff f']
    refine and_congr_right fun _ => and_congr (by simp) (and_congr_right fun hr => ?_)
    exact exists_congr fun ns => steps_iff_of_alike a hr
  case drains =>
    intro hs hd t
    refine ⟨_, _, comesTo_expected t (Layout.fault_items l) hs hd, ?_⟩
    have ⟨hr, ht⟩ := expected_congr p.settings t a.contents
    rw [hr, ht]
    exact comesTo_expected t (Layout.fault_items l') hs hd

def first : List Char :=
  "[7,7,7,\"1970-01-01T00:00:00Z\",\"1970-01-01T00:00:00Z\",7]".toList

def second : List Char :=
  "[8,8,8,\"1970-01-01T00:00:00Z\",\"1970-01-01T00:00:00Z\",8]".toList

def laid : Layout where
  lines := [("# c".toList, .lf), (first, .lf), (['x'], .lf), (second, .lf), (first, .lf)]

-- The same with an empty line in the place of the comment, blanks around a record, another line end, and
-- no end of the last line.
def relaid : Layout where
  lines := [(['\t', ' '], .crlf), (['\u3000'] ++ first ++ ['\u0085', '\r'], .lf), (['x'], .crlf),
    (second, .lf)]
  last  := first

theorem edits_relaid : laid.Edits relaid := by
  have bare : Layout.Edits laid ⟨[(first, .lf), (['x'], .lf), (second, .lf), (first, .lf)], []⟩ :=
    .undo .refl (@Layout.Edit.insert [] _ _ _ _ (by decide) (by decide))
  have empty := bare.edit (@Layout.Edit.insert [] _ ['\t', ' '] .crlf _ (by decide) (by decide))
  have wide : Layout.Padding ['\u3000'] := by simp [Layout.Padding, Text.isBlank]
  have next : Layout.Padding ['\u0085', '\r'] := by simp [Layout.Padding, Text.isBlank]
  have padded := empty.edit (@Layout.Edit.pad [_] _ _ _ _ _ _ wide next)
  have ended := padded.edit (@Layout.Edit.lineEnd [_, _] _ _ _ .crlf _)
  exact ended.undo (.finish (e := .lf))

theorem ends_of_edits_of_relaid : laid.text = repeating ∧ relaid.text ≠ laid.text ∧
    (∃ ns r, (narrowed.run narrow 17).2.reader = .done r ∧
      Steps narrow (narrow.reading relaid.items (.holding ∅)) ns (narrowed.run narrow 17).2) ∧
    ∃ report t', ComesTo narrow laid.items ∅ report t' ∧ ComesTo narrow relaid.items ∅ report t' := by
  have text : laid.text = repeating := by decide +kernel
  have ⟨_, ends, _, drains⟩ := ends_of_edits narrow (Layout.isCut_iff.mpr (by decide)) edits_relaid
  refine ⟨text, by decide +kernel, ?_, drains (by decide) rfl ∅⟩
  have done : (narrowed.run narrow 17).2.reader.toDo = 0 := by decide +kernel
  have st : Steps narrow (narrow.reading laid.items (.holding ∅)) (narrowed.run narrow 17).1
      (narrowed.run narrow 17).2 := by
    rw [Layout.items, text]
    exact .of_run 17 _
  cases hr : (narrowed.run narrow 17).2.reader with
  | done r => exact ⟨_, r, rfl, (ends _ _ _ r hr).mp st⟩
  | _      => simp [hr, Reader.toDo] at done

end WriteBehind.Ingest
