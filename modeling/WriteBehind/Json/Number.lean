import WriteBehind.Json.Reader

namespace WriteBehind.Json

inductive Number
  | natural (n : UInt64)
  | negative (n : Int)
  | floating (bits : UInt64)
deriving DecidableEq

def Number.toFound : Number → Found
  | natural n => .natural n
  | negative n => .negative n
  | floating bits => .floating bits

namespace Number

def fitting (limit : Nat) : Nat → List Char → Nat × List Char
  | n, [] => (n, [])
  | n, c :: s =>
    let next := 10 * n + (c.toNat - '0'.toNat)
    if next < limit then fitting limit next s else (n, c :: s)

-- The double that is `x * 10 ^ exponent`, with one rounding for the power and one for the product.
-- A quotient that is too small is reached in steps.
def scaled (x : Float) (exponent : Int) : Option Float :=
  if 0 ≤ exponent then
    if exponent ≤ 308 then
      let y := x * Float.ofScientific 1 false exponent.toNat
      if y.isInf then none else some y
    else if x == 0 then some x else none
  else if -308 ≤ exponent then some (x / Float.ofScientific 1 false exponent.natAbs)
  else if x == 0 then some x
  else scaled (x / Float.ofScientific 1 false 308) (exponent + 308)
termination_by exponent.natAbs
decreasing_by omega

def float (negative : Bool) (significand : Nat) (exponent : Int) (rest : List Char) :
    Except Fault (Number × List Char) :=
  match scaled significand.toUInt64.toFloat exponent with
  | some x => .ok (.floating (if negative then -x else x).toBits, rest)
  | none => .error (.before rest .numberOutOfRange)

def sign : List Char → Bool × List Char
  | '+' :: s => (false, s)
  | '-' :: s => (true, s)
  | s => (false, s)

-- The number whose exponent starts here, its letter being read. An exponent that does not fit into
-- 32 bits makes the number zero or puts it out of range.
def exponent (negative : Bool) (significand : Nat) (start : Int) (s : List Char) :
    Except Fault (Number × List Char) :=
  let (below, s) := sign s
  match s with
  | [] => .error (.before [] .endInValue)
  | c :: r =>
    if !c.isDigit then .error (.onFirst (c :: r) .invalidNumber)
    else
      let digits := s.takeWhile Char.isDigit
      let rest := s.drop digits.length
      match fitting 0x80000000 0 digits with
      | (e, []) => float negative significand (if below then start - e else start + e) rest
      | (_, excess) =>
        if significand ≠ 0 ∧ !below then
          .error (.before (excess.drop 1 ++ rest) .numberOutOfRange)
        else .ok (.floating (if negative then -0.0 else 0.0 : Float).toBits, rest)

def afterDigits (negative : Bool) (significand : Nat) (scale : Int) (s : List Char) :
    Except Fault (Number × List Char) :=
  match s with
  | 'e' :: s => exponent negative significand scale s
  | 'E' :: s => exponent negative significand scale s
  | s => float negative significand scale s

-- The number whose fraction starts here, the point being read. Digits past the last that fits are
-- dropped.
def point (negative : Bool) (significand : Nat) (scale : Int) (s : List Char) :
    Except Fault (Number × List Char) :=
  match s with
  | [] => .error (.before [] .endInValue)
  | c :: r =>
    if !c.isDigit then .error (.onFirst (c :: r) .invalidNumber)
    else
      let digits := s.takeWhile Char.isDigit
      let (significand, excess) := fitting UInt64.size significand digits
      afterDigits negative significand (scale - (digits.length - excess.length : Nat))
        (s.drop digits.length)

def afterWhole (negative : Bool) (digits s : List Char) : Except Fault (Number × List Char) :=
  let (n, excess) := fitting UInt64.size 0 digits
  match s, excess with
  | '.' :: s, _ => point negative n excess.length s
  | 'e' :: s, _ => exponent negative n excess.length s
  | 'E' :: s, _ => exponent negative n excess.length s
  | s, [] =>
    if !negative then .ok (.natural n.toUInt64, s)
    else if n = 0 ∨ 0x8000000000000000 < n then .ok (.floating (-n.toUInt64.toFloat).toBits, s)
    else .ok (.negative (-n), s)
  | s, excess => float negative n excess.length s

def unsigned (negative : Bool) : Reader Number
  | [] => .error (.before [] .endInValue)
  | s@(c :: r) =>
    if !c.isDigit then .error (.onFirst s .invalidNumber)
    else
      let digits := s.takeWhile Char.isDigit
      if c = '0' ∧ 1 < digits.length then .error (.onFirst r .invalidNumber)
      else afterWhole negative digits (s.drop digits.length)

def skipDigits (fault : List Char → Fault) : List Char → Except Fault (List Char)
  | [] => .error (fault [])
  | c :: s => if c.isDigit then .ok (s.dropWhile Char.isDigit) else .error (fault (c :: s))

def skipExponent : List Char → Except Fault (List Char)
  | [] => .ok []
  | c :: s =>
    if c = 'e' || c = 'E' then skipDigits (fun r => .onFirst r .invalidNumber) (sign s).2
    else .ok (c :: s)

def skipTail : List Char → Except Fault (List Char)
  | '.' :: s => do skipExponent (← skipDigits (fun r => .onFirst r .invalidNumber) s)
  | s => skipExponent s

def skip : List Char → Except Fault (List Char)
  | [] => .error (.before [] .invalidNumber)
  | c :: s =>
    if c = '0' then
      match s with
      | d :: _ => if d.isDigit then .error (.onFirst s .invalidNumber) else skipTail s
      | [] => skipTail s
    else if c.isDigit then skipTail (s.dropWhile Char.isDigit)
    else .error (.onFirst (c :: s) .invalidNumber)

end Number
end WriteBehind.Json
