import WriteBehind.Ingest.Settings

namespace WriteBehind.Command

inductive Fault
  | unknownArgument
  | badChoice
  | badNumber
  | missingFile
  | unwantedValue
  | repeated
  | help
deriving DecidableEq, Repr

def Fault.status : Fault → Nat
  | help => 0
  | _ => 2

inductive Key
  | level
  | format
  | database
  | capacity
  | chunkSize
  | interval
deriving DecidableEq, Repr

def Key.all : List Key := [.level, .format, .database, .capacity, .chunkSize, .interval]

def Key.name : Key → String
  | level => "log-level"
  | format => "log-format"
  | database => "db-path"
  | capacity => "capacity"
  | chunkSize => "chunk-size"
  | interval => "flush-interval-ms"

inductive Switch
  | key (k : Key)
  | discard
  | help

def Switch.ofName? (name : String) : Option Switch :=
  if name = "discard-on-close" then some .discard
  else if name = "help" then some .help
  else (Key.all.find? (·.name = name)).map .key

def natural? (text : String) : Option Nat :=
  let digits := match text.toList with
    | '+' :: s => s
    | s => s
  if digits.isEmpty || !digits.all Char.isDigit then none
  else
    let n := Nat.ofDigitChars 10 digits 0
    if n < UInt64.size then some n else none

inductive Pending
  | none
  | key (k : Key) (value : Option String)
  | file (name : String)

structure Draft where
  file : Option String := none
  level : Option Log.Level := none
  format : Option Log.Format := none
  database : Option String := none
  capacity : Option Nat := none
  chunkSize : Option Nat := none
  interval : Option Nat := none
  discard : Bool := false
  pending : Pending := .none
  -- Whether `--` was read, after which there are no options.
  trailing : Bool := false

namespace Draft

def once {α : Type} (old : Option α) (fault : Fault) (new : Option α) : Except Fault (Option α) :=
  if old.isSome then .error .repeated
  else match new with
    | some a => .ok (some a)
    | none => .error fault

def path? (text : String) : Option String := if text.isEmpty then none else some text

def give (d : Draft) (k : Key) (value : Option String) : Except Fault Draft :=
  match value with
  | none => .error .badChoice
  | some text =>
    match k with
    | .level => do
      let level ← once d.level .badChoice (Log.Level.all.find? (·.choice = text))
      return { d with level }
    | .format => do
      let format ← once d.format .badChoice (Log.Format.all.find? (·.choice = text))
      return { d with format }
    | .database => do return { d with database := ← once d.database .badChoice (path? text) }
    | .capacity => do return { d with capacity := ← once d.capacity .badNumber (natural? text) }
    | .chunkSize => do return { d with chunkSize := ← once d.chunkSize .badNumber (natural? text) }
    | .interval => do return { d with interval := ← once d.interval .badNumber (natural? text) }

def resolve (d : Draft) : Except Fault Draft :=
  match d.pending with
  | .none => .ok d
  | .key k value => { d with pending := .none }.give k value
  | .file name => do
    return { d with pending := .none, file := ← once none .badChoice (path? name) }

def positional (d : Draft) (text : String) : Except Fault Draft :=
  match d.pending, d.trailing with
  | .key k none, false => .ok { d with pending := .key k (some text) }
  | .file _, _ => .error .unknownArgument
  | _, _ =>
    if d.file.isSome then .error .unknownArgument
    else do return { ← d.resolve with pending := .file text }

def long (d : Draft) (name : String) (value : Option String) : Except Fault Draft :=
  match Switch.ofName? name, value with
  | none, _ => .error .unknownArgument
  | some (.key k), none => do return { ← d.resolve with pending := .key k none }
  | some (.key k), some text => do (← d.resolve).give k (some text)
  | some .discard, none => do
    let d ← d.resolve
    if d.discard then throw .repeated
    return { d with discard := true }
  | some .help, none => do
    let _ ← d.resolve
    throw .help
  | some _, some _ => .error .unwantedValue

def take (d : Draft) (arg : String) : Except Fault Draft :=
  if d.trailing then d.positional arg
  else match arg.toList with
    | ['-', '-'] => .ok { d with trailing := true }
    | '-' :: '-' :: s =>
      let name := s.takeWhile (· ≠ '=')
      let value := match s.drop name.length with
        | [] => none
        | _ :: v => some (String.ofList v)
      d.long (String.ofList name) value
    | '-' :: 'h' :: _ => do
      let _ ← d.resolve
      throw .help
    | '-' :: _ :: _ => .error .unknownArgument
    | _ => d.positional arg

def finish (d : Draft) : Except Fault Ingest.Settings := do
  let d ← d.resolve
  match d.file with
  | none => throw .missingFile
  | some file =>
    let usual : Ingest.Settings := { file }
    return { usual with
      database := d.database.getD usual.database
      level := d.level.getD usual.level
      format := d.format.getD usual.format
      chunkSize := d.chunkSize.getD usual.chunkSize
      writer :=
        { capacity := d.capacity.getD usual.writer.capacity
          interval := (d.interval.map (· * 1000000)).getD usual.writer.interval
          drainOnClose := !d.discard } }

end Draft

def settings (args : List String) : Except Fault Ingest.Settings := do
  (← args.foldlM Draft.take {}).finish

end WriteBehind.Command
