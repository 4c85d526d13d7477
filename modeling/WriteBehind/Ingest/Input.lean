import WriteBehind.Storage.Disk
import WriteBehind.Text.Lines

namespace WriteBehind.Ingest

inductive Item
  | line (s : List Char)
  | fault (text : String)
deriving DecidableEq

namespace Item

def ofPieces : List (List UInt8) → List Item
  | [] => []
  | p :: ps =>
    match Text.Lines.read p with
    | .ok s => line s :: ofPieces ps
    | .error e => [fault e.message]

def ofBytes (bytes : List UInt8) : List Item := ofPieces (Text.Lines.pieces bytes)

-- The items of a node. A folder can be opened, but not read; a database holds no lines.
def ofNode : Storage.Node → List Item
  | .folder => [fault Storage.DiskFault.isAFolder.message]
  | .file bytes => ofBytes bytes
  | .database .. => []

end Item
end WriteBehind.Ingest
