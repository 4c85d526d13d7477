import WriteBehind.Flush.Chunked
import WriteBehind.Storage.Database

namespace WriteBehind.Storage.Database

def write (chunk : List Record) (db : Database) : List Log.Notice × Flush.Receipt × Database :=
  match db.add chunk with
  | .ok db => (if chunk.isEmpty then [] else [.inserted chunk.length], .ok (), db)
  | .error e => ([], .error e, db)

end WriteBehind.Storage.Database
