import WriteBehind.Json.Number
import WriteBehind.Json.Quoted

namespace WriteBehind.Json.Skip

def scalar : List Char → Except Fault (List Char)
  | [] => .error (.before [] .endInValue)
  | c :: s =>
    if c = 'n' then word "ull".toList s
    else if c = 't' then word "rue".toList s
    else if c = 'f' then word "alse".toList s
    else if c = '-' then Number.skip s
    else if c.isDigit then Number.skip (c :: s)
    else if c = '\"' then Quoted.skip s
    else .error (.onFirst (c :: s) .expectedValue)

def name (s : List Char) : Except Fault (List Char) :=
  match skipBlanks s with
  | [] => .error (.before [] .endInObject)
  | c :: s =>
    if c = '\"' then do
      match skipBlanks (← Quoted.skip s) with
      | [] => throw (.before [] .endInObject)
      | ':' :: s => return s
      | s => throw (.onFirst s .expectedColon)
    else .error (.onFirst (c :: s) .nameNotText)

mutual

def valueFrom : Nat → List Char → Except Fault (List Char)
  | 0, s => .error (.before s .expectedValue)
  | fuel + 1, s =>
    match skipBlanks s with
    | '[' :: s => listFrom fuel true s
    | '{' :: s => objectFrom fuel true s
    | s => scalar s

def listFrom : Nat → Bool → List Char → Except Fault (List Char)
  | 0, _, s => .error (.before s .expectedValue)
  | fuel + 1, first, s =>
    match skipBlanks s with
    | [] => .error (.before [] .endInList)
    | c :: s =>
      if c = ']' then .ok s
      else if first then do listFrom fuel false (← valueFrom fuel (c :: s))
      else if c = ',' then do listFrom fuel false (← valueFrom fuel s)
      else .error (.onFirst (c :: s) .expectedListEnd)

def objectFrom : Nat → Bool → List Char → Except Fault (List Char)
  | 0, _, s => .error (.before s .expectedValue)
  | fuel + 1, first, s =>
    match skipBlanks s with
    | [] => .error (.before [] .endInObject)
    | c :: s =>
      if c = '}' then .ok s
      else if first then do objectFrom fuel false (← valueFrom fuel (← name (c :: s)))
      else if c = ',' then do objectFrom fuel false (← valueFrom fuel (← name s))
      else .error (.onFirst (c :: s) .expectedObjectEnd)

end

-- Skips a value. Each character takes at most two steps.
def value (s : List Char) : Except Fault (List Char) := valueFrom (2 * s.length + 2) s

example : (value "[\x7b\"a\":[1e5,\x7b\x7d]\x7d,null] x".toList).toOption = some " x".toList := by
  decide +kernel

example : value ['[', '[', ']', ',', ']'] = .error (.onFirst [']'] .expectedValue) := by rfl

end WriteBehind.Json.Skip
