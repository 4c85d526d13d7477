import WriteBehind.Storage.Database

namespace WriteBehind.Storage

inductive Call
  | add (rs : List Record)
  | remove (id : UInt64)
  | find (id : UInt64)
  | page (limit offset : UInt64)
  | count

inductive Answer
  | added
  | removed (wasThere : Bool)
  | found (r : Option Record)
  | records (rs : List Record)
  | number (n : Nat)
  | failed (e : Fault)
deriving DecidableEq

namespace Database

def call (db : Database) : Call → Answer × Database
  | .add rs => match db.add rs with
    | .ok db => (.added, db)
    | .error e => (.failed e, db)
  | .remove id => match db.remove id with
    | .ok (b, db) => (.removed b, db)
    | .error e => (.failed e, db)
  | .find id => (match db.find? id with
    | .ok r => .found r
    | .error e => .failed e, db)
  | .page limit offset => (match db.page limit offset with
    | .ok rs => .records rs
    | .error e => .failed e, db)
  | .count => (match db.count with
    | .ok n => .number n
    | .error e => .failed e, db)

def calls (db : Database) : List Call → List Answer
  | [] => []
  | c :: cs => (db.call c).1 :: calls (db.call c).2 cs

end Database
end WriteBehind.Storage
