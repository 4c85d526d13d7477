namespace WriteBehind.Time

inductive Fault
  | tooShort
  | invalid
  | outOfRange
  | trailing
  -- The date and the time exist, but not on the time line of universal time.
  | impossible
deriving DecidableEq, Repr

def Fault.message : Fault → String
  | tooShort => "premature end of input"
  | invalid => "input contains invalid characters"
  | outOfRange => "input is out of range"
  | trailing => "trailing input"
  | impossible => "no possible date and time matching input"

end WriteBehind.Time
