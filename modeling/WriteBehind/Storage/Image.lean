import WriteBehind.Json.Value
import WriteBehind.Record.Line
import WriteBehind.Storage.Disk
import WriteBehind.Text.Lines

namespace WriteBehind.Storage.Image

def heading (j : Journal) : List Char := "# experiences, journal ".toList ++ j.name.toList

def row (id : Int) (r : Row) : Json.Value :=
  .object [
    ("id".toList, .integer id),
    ("user_id".toList, .integer r.user),
    ("type".toList, .integer r.kind),
    ("from".toList, .text r.start),
    ("to".toList, .text r.finish),
    ("level".toList, .integer r.level)]

def lines (j : Journal) (t : Table) : List (List Char) :=
  heading j :: t.toList.map fun p => (row p.1 p.2).write

def write (j : Journal) (t : Table) : String :=
  String.join ((lines j t).map fun l => String.ofList l ++ "\n")

def readRow (line : List Char) : Option (Int × Row) := do
  let r ← (Record.ofLine line).toOption
  (Row.encode (← r)).toOption

def readLines : List (List Char) → Option (Journal × Table)
  | [] => none
  | first :: rest => do
    let j ← [Journal.delete, Journal.wal].find? (heading · = first)
    let rows ← rest.mapM readRow
    return (j, ← (∅ : Table).insert? rows)

def read (bytes : List UInt8) : Node :=
  let node? := do
    let ls ← ((Text.Lines.pieces bytes).mapM Text.Lines.read).toOption
    readLines ls
  match node? with
  | some (j, t) => .database j (.records t)
  | none => .file bytes

end WriteBehind.Storage.Image
