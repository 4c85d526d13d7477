import WriteBehind.Json.Value
import WriteBehind.Time.Instant

namespace WriteBehind

structure Record where
  id : UInt64
  user : UInt64
  kind : UInt64
  start : Time.Instant
  finish : Time.Instant
  level : UInt64
deriving DecidableEq, Inhabited

namespace Record

def uniform (n : UInt64) : Record := ⟨n, n, n, .epoch, .epoch, n⟩

def display (r : Record) : String :=
  s!"Experience\x7bId: {r.id}, UserId: {r.user}, Type: {r.kind}, " ++
  s!"From: {String.ofList r.start.offsetText}, To: {String.ofList r.finish.offsetText}, " ++
  s!"Level: {r.level}\x7d"

def toJson (r : Record) : Json.Value :=
  .object [
    ("id".toList, .integer r.id.toNat),
    ("user_id".toList, .integer r.user.toNat),
    ("type".toList, .integer r.kind.toNat),
    ("from".toList, .text r.start.text),
    ("to".toList, .text r.finish.text),
    ("level".toList, .integer r.level.toNat)]

def line (r : Record) : List Char := r.toJson.write

end Record
end WriteBehind
