import Std.Time.DateTime.Timestamp
import WriteBehind.Command.Run
import WriteBehind.Storage.Address
import WriteBehind.Storage.Image

namespace WriteBehind.Main

open Storage (Disk Node Path Image.read Image.write)

def probe (path : String) : IO (Option Node) := do
  match ← (IO.FS.readBinFile path).toBaseIO with
  | .ok bytes => return some (Image.read bytes.toList)
  | .error (.inappropriateType _ 21 _) => return some .folder
  | .error _ => return none

def ways (s : List Char) : List Path :=
  ((Disk.names s).foldl (fun (ps, p) n =>
    let p := if n = [] ∨ n = ['.'] then p else if n = Disk.parent then Disk.up p else p ++ [n]
    (ps ++ [p], p)) ([Disk.origin s], Disk.origin s)).1

def path (p : Path) : String :=
  match p with
  | ['/'] :: ns => "/" ++ "/".intercalate (ns.map String.ofList)
  | ns => "/".intercalate (ns.map String.ofList)

def touched (s : Ingest.Settings) : List Path :=
  let database := s.database.toList
  let address := match Storage.Address.ofFile database with
    | .ok a => ways a.path
    | .error _ => []
  (ways s.file.toList ++ ways database ++ address).eraseDups

def load (ps : List Path) : IO Disk :=
  ps.foldlM (fun d p => do
    if (d.get? p).isSome then return d
    match ← probe (path p) with
    | some n => return d.put p n
    | none => return d) {}

def store (ps : List Path) (old new : Disk) : IO Unit :=
  ps.forM fun p => do
    match new.get? p with
    | some (.database j (.records t)) => IO.FS.writeFile (path p) (Image.write j t)
    | some (.file []) => if (old.get? p).isNone then IO.FS.writeFile (path p) ""
    | _ => return

def usage : String :=
  "Buffers experience records and writes them to a database in chunks.\n\n" ++
  "Usage: experience_saver [OPTIONS] <FILE>\n\n" ++
  "Options:\n" ++
  String.join (Command.Key.all.map fun k => s!"      --{k.name} <VALUE>\n") ++
  "      --discard-on-close\n  -h, --help"

def explain : Command.Fault → String
  | .unknownArgument => "error: unexpected argument found"
  | .badChoice => "error: a value is missing or no possible value"
  | .badNumber => "error: a value is no number"
  | .missingFile => "error: the file to read is missing"
  | .unwantedValue => "error: a flag takes no value"
  | .repeated => "error: an option cannot be used multiple times"
  | .help => usage

def clock (millis : Int) : String :=
  let t := (millis % 86400000).toNat
  let digits (size n : Nat) : String := String.ofList (Time.padded size n)
  s!"{digits 2 (t / 3600000)}:{digits 2 (t / 60000 % 60)}:{digits 2 (t / 1000 % 60)}" ++
  s!".{digits 3 (t % 1000)}"

def run (s : Ingest.Settings) : IO UInt32 := do
  let time := (← Std.Time.Timestamp.now).toMillisecondsSinceUnixEpoch.toInt
  let names := ["RUST_LOG", "CLICOLOR_FORCE"]
  let environment ← names.filterMapM fun n => do return (← IO.getEnv n).map fun v => (n, v)
  let standardInput ← if s.file = "-" then (← IO.getStdin).readBinToEnd else pure ByteArray.empty
  let ps := touched s
  let disk ← load ps
  let (new, out) := Command.run s
    { environment, standardInput := standardInput.toList, disk, clock := clock time, time }
  store ps disk new
  out.standardError.forM IO.eprintln
  out.standardOutput.forM IO.println
  return out.status.toUInt32

end WriteBehind.Main

def main (args : List String) : IO UInt32 := do
  match WriteBehind.Command.settings args with
  | .ok s => WriteBehind.Main.run s
  | .error .help =>
    IO.println WriteBehind.Main.usage
    return 0
  | .error e =>
    IO.eprintln (WriteBehind.Main.explain e)
    return e.status.toUInt32
