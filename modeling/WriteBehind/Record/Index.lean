import Std.Data.ExtTreeMap
import WriteBehind.Chunk
import WriteBehind.Record

namespace WriteBehind.Record

def index (rs : List Record) : Except Chunk.Fault (Std.ExtTreeMap UInt64 Record) :=
  if rs.isEmpty then .error .empty else .ok (rs.foldl (fun m r => m.insert r.id r) ∅)

end WriteBehind.Record
