import WriteBehind.Record.Reader
import WriteBehind.Text.Blank

namespace WriteBehind.Record

def isVoid (line : List Char) : Bool :=
  match Text.trim line with
  | [] => true
  | c :: _ => c = '#'

-- The record on a line, if it holds something. Faults are placed in the trimmed line.
def ofLine (line : List Char) : Except Json.Fault (Option Record) :=
  if isVoid line then .ok none else (read (Text.trim line)).map some

end WriteBehind.Record
