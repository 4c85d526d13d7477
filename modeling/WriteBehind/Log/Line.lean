import WriteBehind.Json.Value
import WriteBehind.Log.Level

namespace WriteBehind.Log

def jsonObject (time : Int) (level : Level) (source message : List Char) : Json.Value :=
  .object [("level".toList, .text level.name.toList), ("msg".toList, .text message),
    ("target".toList, .text source), ("ts".toList, .integer time)]

def jsonLine (time : Int) (level : Level) (source message : List Char) : List Char :=
  (jsonObject time level source message).write

def painted (code : Nat) (text : String) : String := s!"\x1b[{code}m{text}\x1b[0m"

def Level.colour : Level → Nat
  | error => 31
  | warn => 33
  | info => 32
  | debug => 34
  | trace => 35

def plainLine (coloured : Bool) (clock : String) (level : Level) (source message : String) :
    String :=
  let paint (code : Nat) (text : String) : String := if coloured then painted code text else text
  s!"{clock} {paint 36 source} [{paint level.colour level.name}] {message}"

example : jsonLine 0 .warn ['a'] ['\"'] =
    "\x7b\"level\":\"WARN\",\"msg\":\"\\\"\",\"target\":\"a\",\"ts\":0\x7d".toList := by
  decide +kernel

end WriteBehind.Log
