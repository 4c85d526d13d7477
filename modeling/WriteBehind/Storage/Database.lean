import WriteBehind.Chunk
import WriteBehind.Storage.Table

namespace WriteBehind.Storage

structure Database where
  table : Option Table := none
  isOpen : Bool := true
  isReadOnly : Bool := false

namespace Database

-- The most rows that one statement inserts: six values each, at most 32766 in all.
def rowsPerStatement : Nat := 32766 / 6

variable (db : Database)

def statement : Except SqlFault Table :=
  if !db.isOpen then .error .closed
  else match db.table with
    | none => .error (.refused .noTable)
    | some t => .ok t

def change : Except SqlFault Table := do
  let t ← db.statement
  if db.isReadOnly then throw (.refused .readOnly)
  return t

def send (t : Table) : List (List (Int × Row)) → List (List (Int × Row)) × Except SqlFault Table
  | [] => ([], .ok t)
  | batch :: batches =>
    match t.insert? batch with
    | some t => let (sent, result) := send t batches; (batch :: sent, result)
    | none => ([batch], .error (.refused .duplicateId))

def insertRows (t : Table) (rows : List (Int × Row)) :
    List (List (Int × Row)) × Except SqlFault Table :=
  send t (Chunk.windows rowsPerStatement rows)

def add (rs : List Record) : Except Fault Database :=
  if rs.isEmpty then .ok db
  else do
    let rows ← (rs.mapM Row.encode).mapError .invalidRow
    let t ← db.change.mapError .sql
    let t ← (insertRows t rows).2.mapError .sql
    return { db with table := some t }

def page (limit offset : UInt64) : Except Fault (List Record) := do
  (Row.check .limit limit).mapError .invalidRow
  (Row.check .offset offset).mapError .invalidRow
  let t ← db.statement.mapError .sql
  ((t.page limit.toNat offset.toNat).mapM fun (p : Int × Row) => p.2.decode p.1).mapError .invalidRow

def find? (id : UInt64) : Except Fault (Option Record) := do
  (Row.check (.column .id) id).mapError .invalidRow
  let t ← db.statement.mapError .sql
  match t[(id.toNat : Int)]? with
  | none => return none
  | some row => return some (← (row.decode id.toNat).mapError .invalidRow)

def remove (id : UInt64) : Except Fault (Bool × Database) := do
  (Row.check (.column .id) id).mapError .invalidRow
  let t ← db.change.mapError .sql
  return (t.contains id.toNat, { db with table := some (t.erase id.toNat) })

def count : Except Fault Nat := do return (← db.statement.mapError .sql).size

def migrate : Except Fault Database :=
  if !db.isOpen then .error (.migration none .closed)
  else .ok { db with table := some (db.table.getD ∅) }

def close : Database := { db with isOpen := false }

def insertRow (id : Int) (row : Row) : Except Fault Database := do
  let t ← db.change.mapError .sql
  return { db with table := some (← (insertRows t [(id, row)]).2.mapError .sql) }

def rows : Except Fault (List (Int × Row)) := do return (← db.statement.mapError .sql).toList

end Database
end WriteBehind.Storage
