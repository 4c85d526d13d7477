import WriteBehind.Ingest.Run
import WriteBehind.Storage.Fitting

namespace WriteBehind.Ingest

open Log (Notice)
open Storage (Disk Table)

def significant (items : List Item) : List (List Char) :=
  items.filterMap fun
    | .line l => if Record.isVoid l then none else some l
    | .fault _ => none

def records (items : List Item) : List Record :=
  items.filterMap fun
    | .line l => (Record.ofLine l).toOption.join
    | .fault _ => none

def fault? (items : List Item) : Option String :=
  items.findSome? fun
    | .fault text => some text
    | .line _ => none

def stored (size : Nat) (items : List Item) (t : Table) : List Record :=
  (t.admitted (Chunk.windows size (records items))).flatten

def expected (settings : Settings) (items : List Item) (t : Table) : Report :=
  let written := (stored settings.chunkSize items t).length
  { lines := (significant items).length
    accepted := (records items).length
    invalid := (significant items).length - (records items).length
    written
    discarded := (records items).length - written
    interrupted := false
    database := settings.database }

def final (settings : Settings) (items : List Item) (t : Table) : Table :=
  t.adding (stored settings.chunkSize items t)

inductive Steps (p : Plan) (s : State) : List Notice → State → Prop
  | refl : Steps p s [] s
  | step {ns s' m ns' s''} :
    Steps p s ns s' → s'.step? p m = some (ns', s'') → Steps p s (ns ++ ns') s''

namespace Steps

variable {p : Plan} {s s' s'' : State} {ns ns' : List Notice}

theorem trans (a : Steps p s ns s') (b : Steps p s' ns' s'') : Steps p s (ns ++ ns') s'' := by
  induction b with
  | refl => simpa using a
  | step _ hs ih => simpa using step ih hs

theorem of_run (fuel : Nat) (s : State) : Steps p s (s.run p fuel).1 (s.run p fuel).2 := by
  induction fuel generalizing s with
  | zero => exact refl
  | succ fuel ih =>
    simp only [State.run]
    split
    · exact refl
    next ns s' h =>
      obtain ⟨m, _, hm⟩ := List.exists_of_findSome?_eq_some h
      simpa using trans (step refl hm) (ih s')

end Steps

-- The ways in which a whole run can go, whatever goes on next in it: the state in which it is done, if it
-- has started its writer, the disk after it, and how it ends.
inductive Runs (p : Plan) (standard : List UInt8) (disk : Disk) :
    Option State → Disk → Except Fault Report → Prop
  | rejected {e} :
    p.settings.check = .error e →
    Runs p standard disk none disk (.error (.settings e))
  | unopened {ns disk' e} :
    p.settings.check = .ok () →
    disk.openDatabase p.settings.database.toList = (ns, disk', .error e) →
    Runs p standard disk none disk' (.error (.database e))
  | unread {ns disk' c e ns' s ns'' s' ns₃ s'' r} :
    p.settings.check = .ok () →
    disk.openDatabase p.settings.database.toList = (ns, disk', .ok c) →
    openInput p.settings disk' standard = .error e →
    Steps p (p.reading [] c.database) ns' s → s.reader = .reading [] →
    s.close (some e) = some (ns'', s') →
    Steps p s' ns₃ s'' → s''.reader = .done r →
    Runs p standard disk (some s'') (disk'.save { c with database := s''.database }) r
  | read {ns disk' c ns' items ns'' s r} :
    p.settings.check = .ok () →
    disk.openDatabase p.settings.database.toList = (ns, disk', .ok c) →
    openInput p.settings disk' standard = .ok (ns', items) →
    Steps p (p.reading items c.database) ns'' s → s.reader = .done r →
    Runs p standard disk (some s) (disk'.save { c with database := s.database }) r

structure Feeds (p : Plan) (standard : List UInt8) (disk opened : Disk) (c : Storage.Connection)
    (items : List Item) : Prop where
  opens : ∃ ns, disk.openDatabase p.settings.database.toList = (ns, opened, .ok c)
  reads : ∃ ns, openInput p.settings opened standard = .ok (ns, items)

end WriteBehind.Ingest
