import WriteBehind.Json.Number
import WriteBehind.Json.Value

namespace WriteBehind.Json.Value

def signed (negative : Bool) (digits : List Char) : Int :=
  if negative then -(Nat.ofDigitChars 10 digits 0 : Int) else Nat.ofDigitChars 10 digits 0

def fraction : List Char → List Char × List Char
  | '.' :: s => s.span Char.isDigit
  | s => ([], s)

def ofNumeral (negative : Bool) (s : List Char) : Value :=
  let whole := s.takeWhile Char.isDigit
  let (fraction, power) := fraction (s.drop whole.length)
  if fraction = [] ∧ power = [] then integer (signed negative whole)
  else
    let (below, exponent) := Number.sign (power.drop 1)
    decimal (signed negative (whole ++ fraction)) (signed below exponent - fraction.length)

def number (negative : Bool) : Reader Value := fun s => do
  let rest ← Number.skip s
  return (ofNumeral negative (s.take (s.length - rest.length)), rest)

def scalar : Reader Value
  | [] => .error (.before [] .endInValue)
  | c :: s =>
    if c = 'n' then return (null, ← word "ull".toList s)
    else if c = 't' then return (boolean true, ← word "rue".toList s)
    else if c = 'f' then return (boolean false, ← word "alse".toList s)
    else if c = '-' then number true s
    else if c.isDigit then number false (c :: s)
    else if c = '\"' then return (← Quoted.body s).map text id
    else .error (.onFirst (c :: s) .expectedValue)

def name : Reader (List Char) := fun s =>
  match skipBlanks s with
  | [] => .error (.before [] .endInObject)
  | c :: s =>
    if c = '\"' then do
      let (n, s) ← Quoted.body s
      match skipBlanks s with
      | [] => throw (.before [] .endInObject)
      | ':' :: s => return (n, s)
      | s => throw (.onFirst s .expectedColon)
    else .error (.onFirst (c :: s) .nameNotText)

mutual

def readFrom : Nat → Reader Value
  | 0, s => .error (.before s .expectedValue)
  | fuel + 1, s =>
    match skipBlanks s with
    | '[' :: s => do return (← itemsFrom fuel true s).map list id
    | '{' :: s => do return (← membersFrom fuel true s).map object id
    | s => scalar s

def itemsFrom : Nat → Bool → Reader (List Value)
  | 0, _, s => .error (.before s .expectedValue)
  | fuel + 1, first, s =>
    match skipBlanks s with
    | [] => .error (.before [] .endInList)
    | c :: s =>
      if c = ']' then .ok ([], s)
      else if first || c = ',' then do
        let (v, s) ← readFrom fuel (if first then c :: s else s)
        let (vs, s) ← itemsFrom fuel false s
        return (v :: vs, s)
      else .error (.onFirst (c :: s) .expectedListEnd)

def membersFrom : Nat → Bool → Reader (List (List Char × Value))
  | 0, _, s => .error (.before s .expectedValue)
  | fuel + 1, first, s =>
    match skipBlanks s with
    | [] => .error (.before [] .endInObject)
    | c :: s =>
      if c = '}' then .ok ([], s)
      else if first || c = ',' then do
        let (n, s) ← name (if first then c :: s else s)
        let (v, s) ← readFrom fuel s
        let (ms, s) ← membersFrom fuel false s
        return ((n, v) :: ms, s)
      else .error (.onFirst (c :: s) .expectedObjectEnd)

end

def read (s : List Char) : Except Fault Value := do
  let (v, s) ← readFrom (2 * s.length + 2) s
  match skipBlanks s with
  | [] => return v
  | s => throw (.onFirst s .trailingCharacters)

example : (read " [-1.50e3 , \x7b\"\\u0061\":[]\x7d]".toList).toOption.map write
    = some "[-150e1,\x7b\"a\":[]\x7d]".toList := by
  decide +kernel

end WriteBehind.Json.Value
