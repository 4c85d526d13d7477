import WriteBehind.Text.Blank
import WriteBehind.Time.Zoned

namespace WriteBehind.Time.Relaxed

open Text (trimStart isBlank)

def separator (c : Char) (s : List Char) : Except Fault (List Char) :=
  match trimStart s with
  | [] => .error .tooShort
  | d :: s => if d = c then .ok s else .error .invalid

def field (size least most : Nat) (s : List Char) : Except Fault (Nat × List Char) := do
  let (n, s) ← number size (trimStart s)
  if least ≤ n ∧ n ≤ most then return (n, s) else throw .outOfRange

def signed (s : List Char) : Except Fault (Int × List Char) :=
  match trimStart s with
  | '-' :: s => (number s.length s).map fun (n, s) => (-(n : Int), s)
  | '+' :: s => (number s.length s).map fun (n, s) => ((n : Int), s)
  | s => (number 4 s).map fun (n, s) => ((n : Int), s)

def year (s : List Char) : Except Fault (Int × List Char) := do
  let (y, s) ← signed s
  if -0x80000000 ≤ y ∧ y < 0x80000000 then return (y, s) else throw .outOfRange

def divider : List Char → Except Fault (List Char)
  | [] => .error .tooShort
  | c :: s => if c = 'T' || c = 't' || c = ' ' then .ok s else .error .invalid

def zone (s : List Char) : Except Fault (Int × List Char) :=
  match s with
  | a :: b :: c :: rest =>
    if [a.toUpper, b.toUpper, c.toUpper] = ['U', 'T', 'C'] then .ok (0, rest) else offset loose s
  | s => offset loose s
where
  loose (s : List Char) : Except Fault (List Char) :=
    .ok (s.dropWhile fun c => c = ':' || isBlank c)

-- The instant that a text denotes. Each number is checked where it stands, the whole at the end:
-- that the date exists, that the offset is less than a day, and that the instant is on the time line.
def read (s : List Char) : Except Fault Instant := do
  let (year, s) ← year s
  let s ← separator '-' s
  let (month, s) ← field 2 1 12 s
  let s ← separator '-' s
  let (day, s) ← field 2 1 31 s
  let s ← divider s
  let (hour, s) ← field 2 0 23 s
  let s ← separator ':' s
  let (minute, s) ← field 2 0 59 s
  let s ← separator ':' s
  let (second, s) ← field 2 0 60 s
  let (nanos, s) ← fraction? s
  let (offset, s) ← zone (trimStart s)
  unless (trimStart s).isEmpty do throw .trailing
  let some day := day? ⟨year, month, day⟩ | throw .outOfRange
  unless offset.natAbs < 86400 do throw .outOfRange
  match instant? day ⟨hour, minute, second, nanos⟩ offset with
  | some t => return t
  | none => throw .impossible

end WriteBehind.Time.Relaxed
