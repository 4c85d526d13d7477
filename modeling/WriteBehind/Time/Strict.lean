import WriteBehind.Time.Zoned

namespace WriteBehind.Time.Strict

-- One digit. A missing one counts as a wrong one: the length is checked before.
def digit : Reader Nat
  | [] => .error .invalid
  | c :: s => match digit? c with
    | some n => .ok (n, s)
    | none => .error .invalid

def twoDigits (s : List Char) : Except Fault (Nat × List Char) := do
  let (a, s) ← digit s
  let (b, s) ← digit s
  return (10 * a + b, s)

def oneOf (cs : List Char) : List Char → Except Fault (List Char)
  | [] => .error .invalid
  | c :: s => if c ∈ cs then .ok s else .error .invalid

def colon : List Char → Except Fault (List Char)
  | [] => .error .tooShort
  | c :: s => if c = ':' then .ok s else .error .invalid

-- The instant that a text denotes. The date is checked as soon as it is read, the time after its
-- fraction, the offset last.
def read (s : List Char) : Except Fault Instant := do
  if Text.width s < 19 then throw .tooShort
  let (century, s) ← twoDigits s
  let (decade, s) ← twoDigits s
  let s ← oneOf ['-'] s
  let (month, s) ← twoDigits s
  let s ← oneOf ['-'] s
  let (day, s) ← twoDigits s
  let some day := day? ⟨100 * century + decade, month, day⟩ | throw .outOfRange
  let s ← oneOf ['T', 't', ' '] s
  let (hour, s) ← twoDigits s
  let s ← oneOf [':'] s
  let (minute, s) ← twoDigits s
  let s ← oneOf [':'] s
  let (second, s) ← twoDigits s
  let (nanos, s) ← fraction? s
  let time : TimeOfDay := ⟨hour, minute, second, nanos⟩
  unless time.Valid do throw .outOfRange
  let (offset, s) ← offset colon s
  unless offset.natAbs < 86400 do throw .outOfRange
  unless s.isEmpty do throw .trailing
  match instant? day time offset with
  | some t => return t
  | none => throw .impossible

end WriteBehind.Time.Strict
