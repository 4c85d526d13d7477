import WriteBehind.Storage.Calls

namespace WriteBehind.Storage

abbrev Catalogue := Std.ExtTreeMap UInt64 Record

namespace Catalogue

variable (m : Catalogue)

def firstTooLarge? (rs : List Record) : Option (Operand × UInt64) :=
  (rs.flatMap Row.operands).find? fun p => ¬ Row.Fits p.2

def refused (operand : Operand) (n : UInt64) : Answer :=
  .failed (.invalidRow (.tooLarge operand n))

def add (rs : List Record) : Answer × Catalogue :=
  match firstTooLarge? rs with
  | some (operand, n) => (refused operand n, m)
  | none =>
    if (rs.map (·.id)).Nodup ∧ ∀ r ∈ rs, r.id ∉ m then
      (.added, rs.foldl (fun m r => m.insert r.id r) m)
    else (.failed (.sql (.refused .duplicateId)), m)

def call : Call → Answer × Catalogue
  | .add rs => m.add rs
  | .remove id =>
    if Row.Fits id then (.removed (m.contains id), m.erase id) else (refused (.column .id) id, m)
  | .find id =>
    (if Row.Fits id then .found m[id]? else refused (.column .id) id, m)
  | .page limit offset =>
    (if ¬ Row.Fits limit then refused .limit limit
      else if ¬ Row.Fits offset then refused .offset offset
      else .records (((m.toList.map (·.2)).drop offset.toNat).take limit.toNat), m)
  | .count => (.number m.size, m)

def calls (m : Catalogue) : List Call → List Answer
  | [] => []
  | c :: cs => (m.call c).1 :: calls (m.call c).2 cs

end Catalogue
end WriteBehind.Storage
