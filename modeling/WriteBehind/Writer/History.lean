import WriteBehind.Writer.Step

namespace WriteBehind.Writer

open Flush (Outcome Receipt)
open Log (Notice)

variable {Op Ans : Type}

abbrev History (Op Ans : Type) := List (Occurrence Op Ans)

namespace History

def accepted (h : History Op Ans) : List (Ticket × Record) :=
  h.filterMap fun
    | .saved t r (.ok _) => some (t, r)
    | _ => none

def received (h : History Op Ans) : List Record :=
  h.filterMap fun
    | .received r => some r
    | _ => none

def attempts (h : History Op Ans) : List (Aim × List Record) :=
  h.filterMap fun
    | .begun aim rs => some (aim, rs)
    | _ => none

def outcomes (h : History Op Ans) : List Outcome :=
  h.filterMap fun
    | .settled _ o => some o
    | _ => none

def answers (h : History Op Ans) : List (Op × Ans) :=
  h.filterMap fun
    | .answered op a => some (op, a)
    | _ => none

def ticks (h : History Op Ans) : List (Nat × Nat) :=
  h.filterMap fun
    | .ticked due time => some (due, time)
    | _ => none

def notices (h : History Op Ans) : List Notice :=
  h.filterMap fun
    | .logged n => some n
    | _ => none

def acknowledged (h : History (List Record) Receipt) : List (List Record) :=
  h.answers.filterMap fun
    | (chunk, .ok _) => some chunk
    | (_, .error _) => none

def sinceAttempt (h : History Op Ans) : History Op Ans :=
  (h.reverse.takeWhile fun o => !(o matches .begun ..)).reverse

end History

inductive Run (w : Setup Op Ans) (s : State Op Ans) : History Op Ans → State Op Ans → Prop
  | refl : Run w s [] s
  | step {h s' e os s''} :
    Run w s h s' → s'.step? w e = some (os, s'') → Run w s (h ++ os) s''

namespace Run

variable {w : Setup Op Ans} {s s' s'' : State Op Ans} {h h' : History Op Ans}

theorem single {e : Event Ans} (hs : s.step? w e = some (h, s')) : Run w s h s' := by
  simpa using step refl hs

theorem trans (r : Run w s h s') (r' : Run w s' h' s'') : Run w s (h ++ h') s'' := by
  induction r' with
  | refl => simpa using r
  | step _ hs ih => simpa using step ih hs

end Run

def Reachable (w : Setup Op Ans) (h : History Op Ans) (s : State Op Ans) : Prop :=
  Run w w.start h s

namespace Reachable

variable {w : Setup Op Ans} {h : History Op Ans} {s : State Op Ans}

theorem induct {P : History Op Ans → State Op Ans → Prop} (start : P [] w.start)
    (keep : ∀ h s e os s', Reachable w h s → P h s → s.step? w e = some (os, s') → P (h ++ os) s')
    (r : Reachable w h s) : P h s := by
  induction r with
  | refl => exact start
  | step r hs ih => exact keep _ _ _ _ _ r ih hs

end Reachable
end WriteBehind.Writer
