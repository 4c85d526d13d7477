namespace WriteBehind.Decimal

-- A finite positive double `mantissa * 2 ^ exponent`.
structure Binary where
  mantissa : Nat
  exponent : Int
  -- Whether the double below is only half as far away as the one above.
  atPowerOfTwo : Bool

structure Scaled where
  digits : Nat
  exponent : Int

namespace Binary

def hidden : Nat := 0x10000000000000

def ofBits (bits : UInt64) : Binary :=
  let fraction := bits.toNat % hidden
  let biased : Nat := bits.toNat / hidden % 0x800
  if biased = 0 then ⟨fraction, -1074, false⟩
  else ⟨hidden + fraction, (biased : Int) - 1075, fraction = 0 && 1 < biased⟩

variable (b : Binary)

def low : Nat := if b.atPowerOfTwo then 4 * b.mantissa - 1 else 4 * b.mantissa - 2

def high : Nat := 4 * b.mantissa + 2

def quarters (unit : Int) : Nat := Nat.pow 2 b.exponent.toNat * Nat.pow 10 (-unit).toNat

def tens (unit : Int) : Nat := Nat.pow 10 unit.toNat * (4 * Nat.pow 2 (-b.exponent).toNat)

def ReadsBack (d : Scaled) : Prop :=
  let point := d.digits * b.tens d.exponent
  let low := b.low * b.quarters d.exponent
  let high := b.high * b.quarters d.exponent
  if b.mantissa % 2 = 0 then low ≤ point ∧ point ≤ high else low < point ∧ point < high

instance (d : Scaled) : Decidable (b.ReadsBack d) := by
  unfold ReadsBack; dsimp only; split <;> infer_instance

def leadFrom : Nat → Int → Int
  | 0, start => start
  | n + 1, start =>
    if b.tens start ≤ 4 * b.mantissa * b.quarters start then start else leadFrom n (start - 1)

def lead : Int := b.leadFrom 700 309

-- The decimal with this unit that reads back, the nearer one where both neighbours do.
def onGrid? (unit : Int) : Option Scaled :=
  let value := 4 * b.mantissa * b.quarters unit
  let step := b.tens unit
  let below : Scaled := ⟨value / step, unit⟩
  let above : Scaled := ⟨value / step + 1, unit⟩
  let left := value % step
  let nearer :=
    if 2 * left < step then below
    else if step < 2 * left then above
    else if below.digits % 2 = 0 then below else above
  let further := if nearer.digits = below.digits then above else below
  if b.ReadsBack nearer then some nearer
  else if b.ReadsBack further then some further
  else none

def shortestFrom : Nat → Int → Scaled
  | 0, unit => ⟨4 * b.mantissa * b.quarters unit / b.tens unit, unit⟩
  | n + 1, unit => (b.onGrid? unit).getD (shortestFrom n (unit - 1))

def shortest : Scaled := b.shortestFrom 17 b.lead

end Binary

structure Spelling where
  leastPositional : Int
  mostPositional : Int

namespace Spelling

variable (f : Spelling)

def write (d : Scaled) : List Char :=
  let all := Nat.toDigits 10 d.digits
  let digits := (all.reverse.dropWhile (· = '0')).reverse
  let lead := d.exponent + all.length - 1
  if f.leastPositional ≤ lead ∧ lead ≤ f.mostPositional then
    if lead < 0 then
      "0.".toList ++ List.replicate (-lead - 1).toNat '0' ++ digits
    else
      let whole := lead.toNat + 1
      let front := digits.take whole
      let back := digits.drop whole
      front ++ List.replicate (whole - front.length) '0' ++ ['.']
        ++ (if back.isEmpty then ['0'] else back)
  else
    let mantissa := match digits with
      | [] => []
      | [d] => [d]
      | d :: ds => d :: '.' :: ds
    let sign := if lead < 0 then '-' else '+'
    mantissa ++ 'e' :: sign :: Nat.toDigits 10 lead.natAbs

def writeBits (bits : UInt64) : List Char :=
  let magnitude := bits.toNat % 0x8000000000000000
  let body := if magnitude = 0 then "0.0".toList
    else f.write (Binary.ofBits bits).shortest
  if bits.toNat < 0x8000000000000000 then body else '-' :: body

end Spelling

def Spelling.message : Spelling := ⟨-5, 15⟩

-- Half of the least positive double does not read back, five units of the last place do.
example : Spelling.message.writeBits 1 = "5e-324".toList := by decide +kernel

example : Spelling.message.writeBits 0x43E0000000000000 = "9.223372036854776e+18".toList := by
  decide +kernel

end WriteBehind.Decimal
