import WriteBehind.Ingest.Machine
import WriteBehind.Storage.Opening

namespace WriteBehind.Ingest

open Log (Notice)
open Storage (Disk)

def openInput (settings : Settings) (disk : Disk) (standard : List UInt8) :
    Except Fault (List Notice × List Item) :=
  if settings.file = "-" then .ok ([.readingInput], Item.ofBytes standard)
  else match disk.lookup settings.file.toList with
    | .ok (_, node) => .ok ([], Item.ofNode node)
    | .error e => .error (.openInput settings.file e.message)

def moves (items : List Item) : Nat := 6 * items.length + 20

def run (p : Plan) (standard : List UInt8) (disk : Disk) :
    List Notice × Disk × Except Fault Report :=
  match p.settings.check with
  | .error e => ([], disk, .error (.settings e))
  | .ok () =>
    let (ns, disk, opened) := disk.openDatabase p.settings.database.toList
    match opened with
    | .error e => (ns, disk, .error (.database e))
    | .ok c =>
      let ns := ns ++ [.opened]
      let (ns', s) := match openInput p.settings disk standard with
        | .ok (ns', items) =>
          let (ns'', s) := (p.reading items c.database).run p (moves items)
          (ns' ++ ns'', s)
        | .error e =>
          let s := p.reading [] c.database
          match s.close (some e) with
          | some (_, s) => s.run p (moves [])
          | none => ([], s)
      let result := match s.reader with
        | .done r => r
        | _ => .error (.writer .closed)
      (ns ++ ns', disk.save { c with database := s.database }, result)

end WriteBehind.Ingest
