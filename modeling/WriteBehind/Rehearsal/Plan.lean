import WriteBehind.Rehearsal.World

namespace WriteBehind.Rehearsal

open Writer (Occurrence)

variable {Op Ans σ : Type}

inductive Act
  | start
  | close
  | save (rs : List Record)
  | saveWithin (rs : List Record) (nanos : Nat)
  | spawn (job : Job)
  | join
  | sleep (nanos : Nat)
  | refuse (ids : List UInt64)
  | drop

def patience : Nat := 1000000000

namespace World

variable (g : Stage Op Ans σ)

def newTask (job : Job) (w : World Op Ans σ) : Task × World Op Ans σ :=
  ({ ticket := w.tickets, job }, { w with tickets := w.tickets + 1 })

def enter (a : Act) (w : World Op Ans σ) : Front × World Op Ans σ :=
  match a with
  | .start =>
    let t := w.tickets
    match { w with tickets := t + 1 }.apply g (.start t) with
    | some (os, w) => (.done (((resultIn? t os).map .ended).getD .nothing), w)
    | none => (.done .nothing, w)
  | .close =>
    let (t, w) := w.newTask .close
    (.task t none, w)
  | .save rs =>
    let (t, w) := w.newTask (.save 0 rs)
    (.task t none, w)
  | .saveWithin rs nanos =>
    let (t, w) := w.newTask (.save 0 rs)
    (.task t (some (w.state.now + nanos)), w)
  | .spawn job =>
    let (t, w) := w.newTask job
    (.done .nothing, { w with tasks := w.tasks ++ [t] })
  | .join => (.join, w)
  | .sleep nanos => (.sleep (w.state.now + nanos), w)
  | .refuse ids => (.done .nothing, { w with desk := g.desk.refuse ids w.desk })
  | .drop => (.done .nothing, { w with isDropped := true })

def act (a : Act) (w : World Op Ans σ) : Result × List (Occurrence Op Ans) × World Op Ans σ :=
  let (f, w) := enter g a { w with past := [] }
  -- A call in front is made before anything else goes on.
  let (f, w) := match f with
    | .task .. => (w.front? g f).getD (f, w)
    | _ => (f, w)
  let (f, w) := settle g patience f w
  let r := match f with
    | .done r => r
    | _ => .nothing
  (r, w.past.reverse, w)

end World
end WriteBehind.Rehearsal
