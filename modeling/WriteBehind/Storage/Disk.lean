import WriteBehind.Storage.Table

namespace WriteBehind.Storage

inductive Journal
  | delete
  | wal
deriving DecidableEq, Repr

def Journal.name : Journal → String
  | delete => "delete"
  | wal => "wal"

inductive Schema
  | empty
  -- A table of the right name without the columns of records, and without rows.
  | foreign
  | records (t : Table)

inductive Node
  | folder
  | file (bytes : List UInt8)
  | database (journal : Journal) (schema : Schema)

abbrev Path := List (List Char)

inductive DiskFault
  | noEntry
  | taken
  | notAFolder
  | isAFolder
  | nameTooLong
  | nulInName
deriving DecidableEq, Repr

def DiskFault.message : DiskFault → String
  | noEntry => "No such file or directory (os error 2)"
  | taken => "File exists (os error 17)"
  | notAFolder => "Not a directory (os error 20)"
  | isAFolder => "Is a directory (os error 21)"
  | nameTooLong => "File name too long (os error 36)"
  | nulInName => "file name contained an unexpected NUL byte"

-- The nodes that a run may touch, by the way to them from the folder that the program runs in. The
-- way to a node of an absolute path begins with a slash.
structure Disk where
  nodes : List (Path × Node) := []

namespace Disk

variable (d : Disk)

def parent : List Char := ['.', '.']

-- The node at the end of a way. The folders around the one that the program runs in exist.
def get? (p : Path) : Option Node :=
  if p.all (· = parent) then some .folder else (d.nodes.find? (·.1 = p)).map (·.2)

def put (p : Path) (n : Node) : Disk :=
  { d with nodes := (p, n) :: d.nodes.filter (·.1 ≠ p) }

def makeFolder (p : Path) : Disk :=
  (List.range p.length).foldl (fun d i =>
    let q := p.take (i + 1)
    if (d.get? q).isSome then d else d.put q .folder) d

def names (s : List Char) : List (List Char) := s.splitOn '/'

def origin (s : List Char) : Path := if s.head? = some '/' then [['/']] else []

def up (p : Path) : Path :=
  if p.all (· = parent) then p ++ [parent] else if p = [['/']] then p else p.dropLast

def walk (p : Path) : List (List Char) → Except DiskFault Path
  | [] => .ok p
  | n :: ns =>
    match d.get? p with
    | none => .error .noEntry
    | some .folder =>
      if n = [] ∨ n = ['.'] then walk p ns
      else if n = parent then walk (up p) ns
      else if 255 < Text.width n then .error .nameTooLong
      else walk (p ++ [n]) ns
    | some _ => .error .notAFolder

def checked (s : List Char) : Except DiskFault Unit :=
  if '\x00' ∈ s then .error .nulInName
  else if s = [] then .error .noEntry
  else .ok ()

def lookup (s : List Char) : Except DiskFault (Path × Node) := do
  checked s
  let p ← d.walk (origin s) (names s)
  match d.get? p with
  | some n => return (p, n)
  | none => throw .noEntry

def inside (s : List Char) : List (List Char) := ((names s).reverse.dropWhile (· = [])).reverse

def ownName (s : List Char) : List Char := (inside s).getLast?.getD []

def place (p : Path) (s : List Char) : Except DiskFault Disk :=
  if ownName s = [] ∨ ownName s = ['.'] ∨ ownName s = parent then .error .taken
  else if (inside s).length < (names s).length then .error .isAFolder
  else if 255 < Text.width (ownName s) then .error .nameTooLong
  else if (d.get? (p ++ [ownName s])).isSome then .error .taken
  else .ok (d.put (p ++ [ownName s]) (.file []))

def create (s : List Char) : Except DiskFault Disk := do
  checked s
  let p ← d.walk (origin s) (inside s).dropLast
  match d.get? p with
  | none => throw .noEntry
  | some .folder => d.place p s
  | some _ => throw .notAFolder

end Disk
end WriteBehind.Storage
