namespace WriteBehind

inductive SettingsFault
  | zeroChunkSize
  | zeroCapacity
  | zeroInterval
  | other (text : String)
deriving DecidableEq, Repr

namespace SettingsFault

def reason : SettingsFault → String
  | zeroChunkSize => "chunk size must be greater than zero"
  | zeroCapacity => "capacity must be greater than zero"
  | zeroInterval => "flush interval must be greater than zero"
  | other text => text

def message (e : SettingsFault) : String := s!"Invalid configuration: {e.reason}"

end SettingsFault

namespace Writer

structure Settings where
  capacity : Nat := 1000
  -- The nanoseconds between two attempts to write.
  interval : Nat := 1000000000
  drainOnClose : Bool := false
deriving DecidableEq, Repr

def Settings.check (s : Settings) : Except SettingsFault Unit :=
  if s.capacity = 0 then .error .zeroCapacity
  else if s.interval = 0 then .error .zeroInterval
  else .ok ()

end Writer
end WriteBehind
