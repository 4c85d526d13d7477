import WriteBehind.Time.Calendar

namespace WriteBehind.Time

def firstYear : Int := -262143
def lastYear : Int := 262142

def firstSecond : Int := (Date.mk firstYear 1 1).toDays * 86400
def lastSecond : Int := (Date.mk lastYear 12 31).toDays * 86400 + 86399

-- An instant is a second since 1970 and the nanoseconds that have passed since its start. Any second
-- may last another one. A clock shows this for the last second of a minute only, as a leap second.
structure Instant where
  seconds : Int
  nanos : Nat
  nanos_lt : nanos < 2000000000
  first_le : firstSecond ≤ seconds
  le_last : seconds ≤ lastSecond
deriving DecidableEq

namespace Instant

def mk? (seconds : Int) (nanos : Nat) : Option Instant :=
  if h : nanos < 2000000000 ∧ firstSecond ≤ seconds ∧ seconds ≤ lastSecond then
    some ⟨seconds, nanos, h.1, h.2.1, h.2.2⟩
  else none

theorem mk?_eq_some {seconds : Int} {nanos : Nat} {t : Instant} :
    mk? seconds nanos = some t ↔ t.seconds = seconds ∧ t.nanos = nanos := by
  unfold mk?
  split
  next h =>
    cases t
    simp [eq_comm]
  next h =>
    simp only [reduceCtorEq, false_iff, not_and]
    rintro rfl rfl
    exact h ⟨t.nanos_lt, t.first_le, t.le_last⟩

def epoch : Instant := ⟨0, 0, by decide, by decide, by decide⟩

instance : Inhabited Instant := ⟨epoch⟩

def date (t : Instant) : Date := Date.ofDays (t.seconds / 86400)

def secondOfDay (t : Instant) : Nat := (t.seconds % 86400).toNat

end Instant

def padded (size n : Nat) : List Char :=
  let digits := Nat.toDigits 10 n
  List.replicate (size - digits.length) '0' ++ digits

def yearText (year : Int) : List Char :=
  if 0 ≤ year ∧ year ≤ 9999 then padded 4 year.toNat
  else (if year < 0 then '-' else '+') :: padded 4 year.natAbs

def Date.text (d : Date) : List Char :=
  yearText d.year ++ '-' :: padded 2 d.month ++ '-' :: padded 2 d.day

def fractionText (nanos : Nat) : List Char :=
  if nanos = 0 then []
  else if nanos % 1000000 = 0 then '.' :: padded 3 (nanos / 1000000)
  else if nanos % 1000 = 0 then '.' :: padded 6 (nanos / 1000)
  else '.' :: padded 9 nanos

namespace Instant

-- The date and the time of day. What is past the second is the next one: second 60 in a leap second.
def localText (t : Instant) : List Char :=
  let s := t.secondOfDay
  t.date.text ++ 'T' :: padded 2 (s / 3600) ++ ':' :: padded 2 (s / 60 % 60) ++ ':'
    :: padded 2 (s % 60 + t.nanos / 1000000000) ++ fractionText (t.nanos % 1000000000)

def text (t : Instant) : List Char := t.localText ++ ['Z']

def offsetText (t : Instant) : List Char := t.localText ++ "+00:00".toList

example : epoch.text = "1970-01-01T00:00:00Z".toList := by decide +kernel

end Instant
end WriteBehind.Time
