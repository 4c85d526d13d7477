import WriteBehind.Text.Utf8

namespace WriteBehind.Text.Lines

def pieces : List UInt8 → List (List UInt8)
  | [] => []
  | b :: s =>
    if b = 0x0A then [b] :: pieces s
    else match pieces s with
      | [] => [[b]]
      | p :: ps => (b :: p) :: ps

theorem flatten_pieces (s : List UInt8) : (pieces s).flatten = s := by
  induction s with
  | nil => rfl
  | cons b s ih =>
    simp only [pieces]
    split
    · simp [ih]
    · split
      next h => simp_all
      next p ps h => simp_all

def chomp (s : List Char) : List Char :=
  match s.reverse with
  | '\n' :: '\r' :: r => r.reverse
  | '\n' :: r => r.reverse
  | _ => s

def read (piece : List UInt8) : Except Utf8.Fault (List Char) :=
  (Utf8.decode piece).map chomp

example : pieces [0x61, 0x0A, 0x0A, 0x62] = [[0x61, 0x0A], [0x0A], [0x62]] := by rfl

-- Only one carriage return belongs to the line end.
example : chomp ['a', '\r', '\r', '\n'] = ['a', '\r'] := by rfl

end WriteBehind.Text.Lines
