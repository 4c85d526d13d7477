namespace WriteBehind.Log

inductive Level
  | error
  | warn
  | info
  | debug
  | trace
deriving DecidableEq, Repr

namespace Level

def all : List Level := [error, warn, info, debug, trace]

def name : Level → String
  | error => "ERROR"
  | warn => "WARN"
  | info => "INFO"
  | debug => "DEBUG"
  | trace => "TRACE"

def choice : Level → String
  | error => "error"
  | warn => "warn"
  | info => "info"
  | debug => "debug"
  | trace => "trace"

def rank : Level → Nat
  | error => 1
  | warn => 2
  | info => 3
  | debug => 4
  | trace => 5

def Shown (least l : Level) : Prop := l.rank ≤ least.rank

instance (least l : Level) : Decidable (Shown least l) := by unfold Shown; infer_instance

end Level

inductive Format
  | plain
  | json
deriving DecidableEq, Repr

def Format.all : List Format := [.plain, .json]

def Format.choice : Format → String
  | plain => "plain"
  | json => "json"

end WriteBehind.Log
