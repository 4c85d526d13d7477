namespace WriteBehind.Time

structure Date where
  year : Int
  month : Nat
  day : Nat
deriving DecidableEq, Repr

namespace Date

def isLeapYear (year : Int) : Bool :=
  year % 4 = 0 && (year % 100 ≠ 0 || year % 400 = 0)

def monthLengths (year : Int) : List Nat :=
  [31, if isLeapYear year then 29 else 28, 31, 30, 31, 30, 31, 31, 30, 31, 30, 31]

def daysBeforeYear (year : Int) : Int :=
  let y := year - 1
  365 * y + y / 4 - y / 100 + y / 400

def epoch : Int := 719162

def Exists (d : Date) : Prop :=
  1 ≤ d.day ∧ 1 ≤ d.month ∧ d.day ≤ (monthLengths d.year).getD (d.month - 1) 0

instance (d : Date) : Decidable d.Exists := by unfold Exists; infer_instance

def daysBeforeMonth (year : Int) (month : Nat) : Nat :=
  ((monthLengths year).take (month - 1)).foldr (· + ·) 0

def toDays (d : Date) : Int :=
  daysBeforeYear d.year + daysBeforeMonth d.year d.month + d.day - 1 - epoch

def monthAndDay (month : Nat) : List Nat → Nat → Nat × Nat
  | [], rest => (month, rest + 1)
  | length :: lengths, rest =>
    if rest < length then (month, rest + 1) else monthAndDay (month + 1) lengths (rest - length)

-- The year that the day `n` after 0001-01-01 falls in. A cycle of 400 years has 146097 days, one
-- of 100 years at least 36524, one of four years at least 1460.
def yearOf (n : Int) : Int :=
  let c400 := n / 146097
  let r400 := n % 146097
  let c100 := min (r400 / 36524) 3
  let r100 := r400 - 36524 * c100
  let c4 := r100 / 1461
  let r4 := r100 % 1461
  let c1 := min (r4 / 365) 3
  400 * c400 + 100 * c100 + 4 * c4 + c1 + 1

def ofDays (days : Int) : Date :=
  let n := days + epoch
  let year := yearOf n
  let (month, day) := monthAndDay 1 (monthLengths year) (n - daysBeforeYear year).toNat
  ⟨year, month, day⟩

example : (Date.mk 2000 3 1).toDays = 11017 ∧ ofDays 11016 = ⟨2000, 2, 29⟩ := by decide

example : ofDays (-719163) = ⟨0, 12, 31⟩ ∧ ofDays (-719528) = ⟨0, 1, 1⟩ := by decide

end Date
end WriteBehind.Time
