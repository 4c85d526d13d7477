namespace WriteBehind.Time

def decimal (n part whole : Nat) : String :=
  let digits := (Nat.toDigits 10 (whole + part)).drop 1
  let digits := (digits.reverse.dropWhile (· = '0')).reverse
  if digits.isEmpty then toString n else s!"{n}.{String.ofList digits}"

def spanText (nanos : Nat) : String :=
  if 1000000000 ≤ nanos then decimal (nanos / 1000000000) (nanos % 1000000000) 1000000000 ++ "s"
  else if 1000000 ≤ nanos then decimal (nanos / 1000000) (nanos % 1000000) 1000000 ++ "ms"
  else if 1000 ≤ nanos then decimal (nanos / 1000) (nanos % 1000) 1000 ++ "µs"
  else s!"{nanos}ns"

example : spanText 1500000000 = "1.5s" ∧ spanText 200000000 = "200ms" := by decide +kernel

end WriteBehind.Time
