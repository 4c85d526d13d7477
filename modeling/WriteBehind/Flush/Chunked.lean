import WriteBehind.Flush.Attempt

namespace WriteBehind.Flush

abbrev Receipt := Except Storage.Fault Unit

abbrev ChunkAttempt := Attempt (List Record) Receipt

-- Writes the chunks of the records in order, the next one having the number `index`. A chunk that is not full
-- is kept if short ones are deferred.
def writeChunks (size : Nat) (records : List Record) (defersShort : Bool) (remainder : List Record)
    (index : Nat) : List (List Record) → ChunkAttempt
  | [] => .done (.ok remainder)
  | chunk :: chunks =>
    if defersShort ∧ chunk.length ≠ size then
      writeChunks size records defersShort (remainder ++ chunk) (index + 1) chunks
    else .ask chunk fun
      | .ok () => .log (.wroteChunk index chunk.length)
        (writeChunks size records defersShort remainder (index + 1) chunks)
      | .error e => .done (.error (.sink index (remainder ++ records.drop (index * size)) e))

def chunked (size : Nat) : Policy (List Record) Receipt where
  flush rs :=
    match Chunk.split size rs with
    | .error e => .done (.error (.chunking e))
    | .ok chunks => writeChunks size rs true [] 0 chunks
  drain rs :=
    if size = 0 then .done (.error (.chunking .zeroSize))
    else writeChunks size rs false [] 0 (Chunk.windows size rs)

def Outcome.left (rs : List Record) : Outcome → List Record
  | .ok rest => rest
  | .error (.sink _ rest _) => rest
  | .error (.chunking _) => rs

end WriteBehind.Flush
