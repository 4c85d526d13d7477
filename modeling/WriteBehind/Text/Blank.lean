namespace WriteBehind.Text

def isBlank (c : Char) : Bool :=
  let n := c.toNat
  (0x9 ≤ n && n ≤ 0xD) || n == 0x20 || n == 0x85 || n == 0xA0 || n == 0x1680
    || (0x2000 ≤ n && n ≤ 0x200A) || n == 0x2028 || n == 0x2029 || n == 0x202F || n == 0x205F
    || n == 0x3000

def trimStart (s : List Char) : List Char := s.dropWhile isBlank

def trimEnd (s : List Char) : List Char := (s.reverse.dropWhile isBlank).reverse

def trim (s : List Char) : List Char := trimEnd (trimStart s)

-- A byte order mark and a zero width space are not blank.
example : isBlank '\ufeff' = false ∧ isBlank '\u200b' = false := by decide

example : trim [' ', '\u3000', 'a', ' ', 'b', '\u0085'] = ['a', ' ', 'b'] := by decide

end WriteBehind.Text
