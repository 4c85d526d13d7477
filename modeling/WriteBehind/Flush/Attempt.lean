import WriteBehind.Log.Notice

namespace WriteBehind.Flush

open Log (Notice)

inductive Attempt (Op Ans : Type)
  | done (o : Outcome)
  | crash
  | log (n : Notice) (rest : Attempt Op Ans)
  | ask (op : Op) (next : Ans → Attempt Op Ans)

structure Policy (Op Ans : Type) where
  flush : List Record → Attempt Op Ans
  drain : List Record → Attempt Op Ans

namespace Attempt

variable {Op Ans σ : Type}

inductive Pause (Op Ans : Type)
  | done (o : Outcome)
  | crash
  | ask (op : Op) (next : Ans → Attempt Op Ans)

def pause : Attempt Op Ans → List Notice × Pause Op Ans
  | done o => ([], .done o)
  | crash => ([], .crash)
  | ask op next => ([], .ask op next)
  | log n rest => (n :: rest.pause.1, rest.pause.2)

inductive Event (Op Ans : Type)
  | logged (n : Notice)
  | answered (op : Op) (a : Ans)

-- Runs an attempt, with answers that depend on a state, change it and may be logged. Without an
-- outcome it crashed.
def run (answer : Op → σ → List Notice × Ans × σ) :
    Attempt Op Ans → σ → List (Event Op Ans) × Option Outcome × σ
  | done o, s => ([], some o, s)
  | crash, s => ([], none, s)
  | log n rest, s =>
    let (es, o, s) := rest.run answer s
    (.logged n :: es, o, s)
  | ask op next, s =>
    let (ns, a, s) := answer op s
    let (es, o, s) := (next a).run answer s
    (ns.map .logged ++ .answered op a :: es, o, s)

end Attempt
end WriteBehind.Flush
