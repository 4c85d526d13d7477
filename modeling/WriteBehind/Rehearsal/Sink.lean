import WriteBehind.Flush.Chunked

namespace WriteBehind.Rehearsal

open Flush (Receipt)

structure Sink where
  failCalls : List Nat := []
  failIds : List UInt64 := []
  fault : Storage.Fault := .sql .timedOut
  delay : Nat := 0
  calls : Nat := 0

def Sink.write (chunk : List Record) (s : Sink) : List Log.Notice × Receipt × Sink :=
  let refused := s.failCalls.contains s.calls || chunk.any (s.failIds.contains ·.id)
  ([], if refused then .error s.fault else .ok (), { s with calls := s.calls + 1 })

end WriteBehind.Rehearsal
