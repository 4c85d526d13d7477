namespace WriteBehind.Text

def width : List Char → Nat
  | [] => 0
  | c :: s => c.utf8Size + width s

@[simp] theorem width_nil : width [] = 0 := rfl

@[simp] theorem width_cons (c : Char) (s : List Char) : width (c :: s) = c.utf8Size + width s := rfl

@[simp] theorem width_append (s t : List Char) : width (s ++ t) = width s + width t := by
  induction s with
  | nil => simp
  | cons c s ih => simp [ih, Nat.add_assoc]

theorem length_le_width {s : List Char} : s.length ≤ width s := by
  induction s with
  | nil => exact Nat.le_refl 0
  | cons c s ih =>
    have hc := c.utf8Size_pos
    rw [List.length_cons, width_cons]
    omega

namespace Utf8

inductive Fault
  | incomplete (index : Nat)
  | invalid (length index : Nat)
deriving DecidableEq, Repr

def Fault.message : Fault → String
  | incomplete i => s!"incomplete utf-8 byte sequence from index {i}"
  | invalid n i => s!"invalid utf-8 sequence of {n} bytes from index {i}"

def isTail (b : UInt8) : Bool := 0x80 ≤ b && b ≤ 0xBF

-- The bytes that may follow the first byte of a character of three or four bytes. They leave out
-- the longer spellings of short characters, the surrogates, and all that lies past the last code
-- point.
def isSecond (first second : UInt8) : Bool :=
  if first = 0xE0 then 0xA0 ≤ second && second ≤ 0xBF
  else if first = 0xED then 0x80 ≤ second && second ≤ 0x9F
  else if first = 0xF0 then 0x90 ≤ second && second ≤ 0xBF
  else if first = 0xF4 then 0x80 ≤ second && second ≤ 0x8F
  else isTail second

def lengthOf? (first : UInt8) : Option Nat :=
  if first < 0x80 then some 1
  else if 0xC2 ≤ first && first ≤ 0xDF then some 2
  else if 0xE0 ≤ first && first ≤ 0xEF then some 3
  else if 0xF0 ≤ first && first ≤ 0xF4 then some 4
  else none

def bits (b : UInt8) : Nat := b.toNat % 64

def decodeFrom (index : Nat) : List UInt8 → Except Fault (List Char)
  | [] => .ok []
  | a :: s =>
    match lengthOf? a with
    | none => .error (.invalid 1 index)
    | some 1 => do return Char.ofNat a.toNat :: (← decodeFrom (index + 1) s)
    | some 2 =>
      match s with
      | [] => .error (.incomplete index)
      | b :: s =>
        if !isTail b then .error (.invalid 1 index)
        else do
          return Char.ofNat (a.toNat % 32 * 64 + bits b) :: (← decodeFrom (index + 2) s)
    | some 3 =>
      match s with
      | [] => .error (.incomplete index)
      | b :: s =>
        if !isSecond a b then .error (.invalid 1 index)
        else match s with
          | [] => .error (.incomplete index)
          | c :: s =>
            if !isTail c then .error (.invalid 2 index)
            else do
              return Char.ofNat ((a.toNat % 16 * 64 + bits b) * 64 + bits c)
                :: (← decodeFrom (index + 3) s)
    | some _ =>
      match s with
      | [] => .error (.incomplete index)
      | b :: s =>
        if !isSecond a b then .error (.invalid 1 index)
        else match s with
          | [] => .error (.incomplete index)
          | c :: s =>
            if !isTail c then .error (.invalid 2 index)
            else match s with
              | [] => .error (.incomplete index)
              | d :: s =>
                if !isTail d then .error (.invalid 3 index)
                else do
                  return Char.ofNat (((a.toNat % 8 * 64 + bits b) * 64 + bits c) * 64 + bits d)
                    :: (← decodeFrom (index + 4) s)

def decode (bytes : List UInt8) : Except Fault (List Char) := decodeFrom 0 bytes

def encode (s : List Char) : List UInt8 := s.flatMap String.utf8EncodeChar

-- A surrogate is no character, and a cut character is told from a wrong one.
example : decode [0x61, 0xED, 0xA0, 0x80] = .error (.invalid 1 1) := by rfl

example : decode [0xE2, 0x82] = .error (.incomplete 0) := by rfl

example : decode [0xE2, 0x82, 0x0A] = .error (.invalid 2 0) := by rfl

example : decode [0xE2, 0x82, 0xAC] = .ok ['€'] := by rfl

example : encode ['€', 'a'] = [0xE2, 0x82, 0xAC, 0x61] := by decide +kernel

end Utf8
end WriteBehind.Text
