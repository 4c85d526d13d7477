namespace WriteBehind.Writer

inductive Fault
  | notOpened
  | closed
deriving DecidableEq, Repr

def Fault.message : Fault → String
  | notOpened => "Saver is not initialized"
  | closed => "Saver is closed"

end WriteBehind.Writer
