import WriteBehind.Json.Reader
import WriteBehind.Text.Hex

namespace WriteBehind.Json.Quoted

open Text (width)

def fourDigits (s : List Char) : Except Fault Nat :=
  if width s < 4 then .error (.before [] .endInString)
  else match (s.take 4).mapM Text.hexValue? with
    | some ds => .ok (ds.foldl (16 * · + ·) 0)
    | none => .error ⟨.invalidEscape, width s - 4⟩

def isHighSurrogate (n : Nat) : Bool := 0xD800 ≤ n && n ≤ 0xDBFF

def isLowSurrogate (n : Nat) : Bool := 0xDC00 ≤ n && n ≤ 0xDFFF

def lowSurrogate : List Char → Except Fault Nat
  | [] => .error (.before [] .endInString)
  | '\\' :: [] => .error (.before [] .endInString)
  | '\\' :: 'u' :: s => do
    let low ← fourDigits s
    if isLowSurrogate low then return low else throw (.before (s.drop 4) .loneSurrogate)
  | '\\' :: s => .error (.onFirst s .cutSurrogatePair)
  | s => .error (.onFirst s .cutSurrogatePair)

def escapedUnit (s : List Char) : Except Fault (Char × Nat) := do
  let n ← fourDigits s
  if isLowSurrogate n then throw (.before (s.drop 4) .loneSurrogate)
  else if isHighSurrogate n then do
    let low ← lowSurrogate (s.drop 4)
    return (Char.ofNat (0x10000 + (n - 0xD800) * 0x400 + (low - 0xDC00)), 10)
  else return (Char.ofNat n, 4)

def short? (c : Char) : Option Char :=
  if c = '\"' || c = '\\' || c = '/' then some c
  else if c = 'b' then some '\x08'
  else if c = 'f' then some '\x0c'
  else if c = 'n' then some '\n'
  else if c = 'r' then some '\r'
  else if c = 't' then some '\t'
  else none

def escape : List Char → Except Fault (Char × Nat)
  | [] => .error (.before [] .endInString)
  | c :: s =>
    match short? c with
    | some d => .ok (d, 1)
    | none =>
      if c = 'u' then (escapedUnit s).map fun (d, n) => (d, n + 1)
      else .error (.onFirst (c :: s) .invalidEscape)

def bodyFrom : Nat → Reader (List Char)
  | _, [] => .error (.before [] .endInString)
  | skip + 1, _ :: s => bodyFrom skip s
  | 0, c :: s =>
    if c = '\"' then .ok ([], s)
    else if c = '\\' then do
      let (d, n) ← escape s
      let (t, rest) ← bodyFrom n s
      return (d :: t, rest)
    else if c < ' ' then .error (.before s .controlCharacter)
    else do
      let (t, rest) ← bodyFrom 0 s
      return (c :: t, rest)

def body : Reader (List Char) := bodyFrom 0

-- What an escape in a skipped string takes. Surrogates need not come in pairs there.
def skippedEscape : List Char → Except Fault Nat
  | [] => .error (.before [] .endInString)
  | c :: s =>
    if (short? c).isSome then .ok 1
    else if c = 'u' then (fourDigits s).map fun _ => 5
    else .error (.onFirst (c :: s) .invalidEscape)

def skipFrom : Nat → List Char → Except Fault (List Char)
  | _, [] => .error (.before [] .endInString)
  | skip + 1, _ :: s => skipFrom skip s
  | 0, c :: s =>
    if c = '\"' then .ok s
    else if c = '\\' then do skipFrom (← skippedEscape s) s
    else if c < ' ' then .error (.before (c :: s) .controlCharacter)
    else skipFrom 0 s

def skip (s : List Char) : Except Fault (List Char) := skipFrom 0 s

def writeChar (c : Char) : List Char :=
  if c = '\"' then ['\\', '\"']
  else if c = '\\' then ['\\', '\\']
  else if c = '\x08' then ['\\', 'b']
  else if c = '\x0c' then ['\\', 'f']
  else if c = '\n' then ['\\', 'n']
  else if c = '\r' then ['\\', 'r']
  else if c = '\t' then ['\\', 't']
  else if c < ' ' then
    ['\\', 'u', '0', '0', Nat.digitChar (c.toNat / 16), Nat.digitChar (c.toNat % 16)]
  else [c]

def write (s : List Char) : List Char := '\"' :: s.flatMap writeChar ++ ['\"']

example : (body "\\ud83d\\ude00\"".toList).toOption = some (['😀'], []) := by decide +kernel

example : (body "\\ude00\"".toList).toOption = none := by decide +kernel

end WriteBehind.Json.Quoted
