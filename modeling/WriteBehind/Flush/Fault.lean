import WriteBehind.Chunk
import WriteBehind.Record
import WriteBehind.Storage.Fault

namespace WriteBehind.Flush

inductive Fault
  | chunking (cause : Chunk.Fault)
  | sink (chunk : Nat) (left : List Record) (cause : Storage.Fault)
deriving DecidableEq

namespace Fault

def message : Fault → String
  | chunking e => s!"cannot chunk buffer: {e.message}"
  | sink i left e =>
    s!"failed to write chunk {i} ({left.length} records left unwritten): {e.message}"

def isTooSmall : Fault → Bool
  | chunking (.tooSmall ..) => true
  | _ => false

end Fault

abbrev Outcome := Except Fault (List Record)

end WriteBehind.Flush
