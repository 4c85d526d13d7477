import Std.Data.ExtTreeMap
import WriteBehind.Storage.Row

namespace WriteBehind.Storage

abbrev Table := Std.ExtTreeMap Int Row

namespace Table

def insert? (t : Table) : List (Int × Row) → Option Table
  | [] => some t
  | (id, row) :: rows => if id ∈ t then none else insert? (t.insert id row) rows

def page (t : Table) (limit offset : Nat) : List (Int × Row) :=
  (t.toList.drop offset).take limit

end Table
end WriteBehind.Storage
