import WriteBehind.Command.Options
import WriteBehind.Ingest.Run
import WriteBehind.Log.Filter
import WriteBehind.Log.Line

namespace WriteBehind.Command

open Log (Notice)
open Storage (Disk)

structure Surroundings where
  environment : List (String × String) := []
  standardInput : List UInt8 := []
  disk : Disk := {}
  clock : String := "00:00:00.000"
  time : Int := 0

structure Output where
  status : Nat
  standardOutput : List String := []
  standardError : List String := []

namespace Surroundings

variable (w : Surroundings)

def value? (name : String) : Option String := (w.environment.find? (·.1 = name)).map (·.2)

-- Whether colours are asked for. No terminal is assumed.
def isColoured : Bool := (w.value? "CLICOLOR_FORCE").any (· ≠ "0")

def line (f : Log.Format) (n : Notice) : String :=
  match f with
  | .plain => Log.plainLine w.isColoured w.clock n.level n.source.name n.message
  | .json => String.ofList
      (Log.jsonLine w.time n.level n.source.name.toList n.message.toList)

def logLines (s : Ingest.Settings) (ns : List Notice) : List String :=
  let (warnings, f) := Log.Filter.parse ((w.value? "RUST_LOG").getD "").toList
  let f := f.forProgram s.level
  let shown := ns.filter fun n => f.shows n.source.name.toList n.level n.message.toList
  warnings ++ shown.map (w.line s.format)

end Surroundings

def summary (r : Ingest.Report) : List String :=
  let plural := if r.lines = 1 then "" else "s"
  [s!"Saved {r.written} of {r.lines} experience{plural} " ++
      s!"({r.invalid} invalid, {r.discarded} discarded)",
    s!"Results saved in {r.database}"]

def run (s : Ingest.Settings) (w : Surroundings) : Disk × Output :=
  let (ns, disk, result) := Ingest.run { settings := s } w.standardInput w.disk
  let log := w.logLines s ns
  match result with
  | .ok r => (disk, { status := 0, standardOutput := summary r, standardError := log })
  | .error e =>
    (disk, { status := 1, standardError := log ++ [s!"experience_saver error: {e.message}"] })

end WriteBehind.Command
