import WriteBehind.Record
import WriteBehind.Storage.Fault
import WriteBehind.Time.Strict

namespace WriteBehind.Storage

structure Row where
  user : Int
  kind : Int
  start : List Char
  finish : List Char
  level : Int
deriving DecidableEq

namespace Row

def ofRecord (r : Record) : Row :=
  ⟨r.user.toNat, r.kind.toNat, r.start.text, r.finish.text, r.level.toNat⟩

def key (r : Record) : Int := r.id.toNat

def Fits (n : UInt64) : Prop := n.toNat < 0x8000000000000000

instance (n : UInt64) : Decidable (Fits n) := by unfold Fits; infer_instance

def check (operand : Operand) (n : UInt64) : Except RowFault Unit :=
  if Fits n then .ok () else .error (.tooLarge operand n)

def unsigned (c : Column) (n : Int) : Except RowFault UInt64 :=
  if 0 ≤ n then .ok n.toNat.toUInt64 else .error (.negative c n)

def timestamp (c : Column) (s : List Char) : Except RowFault Time.Instant :=
  (Time.Strict.read s).mapError (.noTimestamp c s)

def encode (r : Record) : Except RowFault (Int × Row) := do
  check (.column .id) r.id
  check (.column .user) r.user
  check (.column .kind) r.kind
  check (.column .level) r.level
  return (key r, ofRecord r)

def operands (r : Record) : List (Operand × UInt64) :=
  [(.column .id, r.id), (.column .user, r.user), (.column .kind, r.kind), (.column .level, r.level)]

def decode (id : Int) (row : Row) : Except RowFault Record := do
  let id ← unsigned .id id
  let user ← unsigned .user row.user
  let kind ← unsigned .kind row.kind
  let start ← timestamp .start row.start
  let finish ← timestamp .finish row.finish
  let level ← unsigned .level row.level
  return ⟨id, user, kind, start, finish, level⟩

end Row
end WriteBehind.Storage
