import WriteBehind.Text.Utf8
import WriteBehind.Time.Fault
import WriteBehind.Time.Instant

namespace WriteBehind.Time

abbrev Reader (α : Type) := List Char → Except Fault (α × List Char)

def digit? (c : Char) : Option Nat :=
  if c.isDigit then some (c.toNat - '0'.toNat) else none

-- At least one and at most `most` digits. A number from 2 ^ 63 on is out of range.
def number (most : Nat) : Reader Nat
  | [] => .error .tooShort
  | s@(c :: _) =>
    if !c.isDigit then .error .invalid
    else
      let digits := (s.take most).takeWhile Char.isDigit
      let n := Nat.ofDigitChars 10 digits 0
      if n < 0x8000000000000000 then .ok (n, s.drop digits.length) else .error .outOfRange

def fraction : Reader Nat := fun s => do
  let (n, rest) ← number 9 s
  let size := s.length - rest.length
  return (n * Nat.pow 10 (9 - size), rest.dropWhile Char.isDigit)

def fraction? : Reader Nat
  | '.' :: s => fraction s
  | s => .ok (0, s)

def offsetHours (s : List Char) : Except Fault (Nat × List Char) :=
  if Text.width s < 2 then .error .tooShort
  else match s with
    | a :: b :: s =>
      match digit? a, digit? b with
      | some a, some b => .ok (10 * a + b, s)
      | _, _ => .error .invalid
    | _ => .error .invalid

def offsetMinutes (s : List Char) : Except Fault (Nat × List Char) :=
  if Text.width s < 2 then .error .tooShort
  else match s with
    | a :: b :: s =>
      match digit? a, digit? b with
      | some a, some b => if a < 6 then .ok (10 * a + b, s) else .error .outOfRange
      | _, _ => .error .invalid
    | _ => .error .invalid

-- A zone offset in seconds: `Z`, or a sign, hours, what separates them, and minutes. The sign may be
-- a hyphen or a minus sign.
def offset (separator : List Char → Except Fault (List Char)) : Reader Int
  | [] => .error .tooShort
  | c :: s =>
    if c = 'Z' || c = 'z' then .ok (0, s)
    else if c = '+' || c = '-' || c = '\u2212' then do
      let (hours, s) ← offsetHours s
      let s ← separator s
      let (minutes, s) ← offsetMinutes s
      let size : Int := hours * 3600 + minutes * 60
      return (if c = '+' then size else -size, s)
    else .error .invalid

def day? (d : Date) : Option Int :=
  if d.Exists ∧ firstYear ≤ d.year ∧ d.year ≤ lastYear then some d.toDays else none

structure TimeOfDay where
  hour : Nat
  minute : Nat
  second : Nat
  nanos : Nat

def TimeOfDay.Valid (t : TimeOfDay) : Prop :=
  t.hour < 24 ∧ t.minute < 60 ∧ t.second ≤ 60 ∧ t.nanos < 1000000000

instance (t : TimeOfDay) : Decidable t.Valid := by unfold TimeOfDay.Valid; infer_instance

def instant? (day : Int) (t : TimeOfDay) (offset : Int) : Option Instant :=
  let leap := if t.second = 60 then 1 else 0
  let second := day * 86400 + t.hour * 3600 + t.minute * 60 + (t.second - leap : Nat) - offset
  Instant.mk? second (t.nanos + leap * 1000000000)

end WriteBehind.Time
