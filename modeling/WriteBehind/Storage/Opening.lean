import WriteBehind.Log.Notice
import WriteBehind.Storage.Address
import WriteBehind.Storage.Database
import WriteBehind.Storage.Disk

namespace WriteBehind.Storage

open Log (Notice)

structure Connection where
  database : Database
  file : Option Path

namespace Disk

def ensure (d : Disk) (path : List Char) : List Notice × Disk × Except Fault Unit :=
  match d.create path with
  | .ok d => ([.fileCreated], d, .ok ())
  | .error .taken => ([.fileExists], d, .ok ())
  | .error e => ([.fileFailed e.message], d, .error (.fileCreation e.message))

def connect (d : Disk) (a : Address) : Except SqlFault (Disk × Option Path) :=
  if (a.system.any fun s => s ∉ ["unix".toList, "unix-none".toList, "unix-dotfile".toList,
      "unix-excl".toList]) then
    .error (.refused (.noSystem (String.ofList (a.system.getD []))))
  else if a.inMemory ∨ a.path = [] then .ok (d, none)
  else match d.lookup a.path with
    | .ok (_, .folder) => .error (.refused .cannotOpen)
    | .ok (p, _) => .ok (d, some p)
    | .error _ =>
      match a.mode, d.create a.path with
      | .create, .ok d => match d.lookup a.path with
        | .ok (p, _) => .ok (d, some p)
        | .error _ => .error (.refused .cannotOpen)
      | _, _ => .error (.refused .cannotOpen)

-- The tables of a file that keeps its journal beside it from now on. Where the file must not change, the engine
-- leaves the journal as it is and says nothing.
def journaled (d : Disk) (a : Address) (file : Option Path) :
    Except SqlFault (Disk × Journal × Schema) :=
  match file with
  | none => .ok (d, .delete, .empty)
  | some p =>
    let schema? : Option (Journal × Schema) := match d.get? p with
      | some (.file []) => some (.delete, .empty)
      | some (.database journal schema) => some (journal, schema)
      | _ => none
    match schema? with
    | none => .error (.refused .notADatabase)
    | some (journal, schema) =>
      if a.isImmutable then .ok (d, journal, schema)
      else if a.mode = .readOnly ∧ journal ≠ .wal then .error (.refused .readOnly)
      else .ok (d.put p (.database .wal schema), .wal, schema)

-- Whether nothing can be written. What is kept in memory is never immutable.
def locked (a : Address) (file : Option Path) : Bool :=
  a.mode = .readOnly || (a.isImmutable && file.isSome)

-- The database with its table, made if it is missing. A foreign one whose journal is beside it was opened
-- before, so it has the table in which the migrations are kept.
def migrated (locked : Bool) (journal : Journal) : Schema → Except Fault Database
  | .records t => .ok { table := some t, isReadOnly := locked }
  | .empty =>
    if locked then .error (.migration none (.refused .readOnly))
    else .ok { table := some ∅ }
  | .foreign =>
    if locked ∧ journal ≠ .wal then .error (.migration none (.refused .readOnly))
    else .error (.migration (some 1) (.refused (.noColumn "user_id")))

def journal? (d : Disk) (p : Path) : Option Journal :=
  match d.get? p with
  | some (.database j _) => some j
  | _ => none

def save (d : Disk) (c : Connection) : Disk :=
  match c.file, c.database.table with
  | some p, some t => d.put p (.database ((d.journal? p).getD .wal) (.records t))
  | _, _ => d

def openDatabase (d : Disk) (path : List Char) :
    List Notice × Disk × Except Fault Connection :=
  let (ns, d, r) := d.ensure path
  match r with
  | .error e => (ns, d, .error e)
  | .ok () =>
    match (do let a ← Address.ofFile path; return (a, ← d.connect a)) with
    | .error e => (ns ++ [.connectFailed e], d, .error (.sql e))
    | .ok (a, d, file) =>
      match d.journaled a file with
      | .error e => (ns ++ [.journalFailed e], d, .error (.sql e))
      | .ok (d, journal, schema) =>
        match migrated (locked a file) journal schema with
        | .error e => (ns ++ [.migrationFailed e], d, .error e)
        | .ok database =>
          let c : Connection := ⟨database, file⟩
          (ns, d.save c, .ok c)

end Disk
end WriteBehind.Storage
