import WriteBehind.Text.Quoted
import WriteBehind.Time.Fault

namespace WriteBehind.Storage

inductive Column
  | id
  | user
  | kind
  | start
  | finish
  | level
deriving DecidableEq, Repr

def Column.name : Column → String
  | id => "id"
  | user => "user_id"
  | kind => "type"
  | start => "from_at"
  | finish => "to_at"
  | level => "level"

inductive Operand
  | column (c : Column)
  | limit
  | offset
deriving DecidableEq, Repr

def Operand.name : Operand → String
  | column c => c.name
  | limit => "limit"
  | offset => "offset"

inductive RowFault
  -- A number from 2 ^ 63 on, which the engine has no integer for.
  | tooLarge (operand : Operand) (value : UInt64)
  | negative (column : Column) (value : Int)
  | noTimestamp (column : Column) (text : List Char) (fault : Time.Fault)
  | other (text : String)
deriving DecidableEq

def RowFault.message : RowFault → String
  | tooLarge operand value => s!"{operand.name} {value} exceeds i64::MAX"
  | negative column value => s!"{column.name} {value} is negative"
  | noTimestamp column text fault =>
    s!"{column.name} {String.ofList (Text.quoted text)} is not a timestamp: {fault.message}"
  | other text => text

inductive Refusal
  | noTable
  | noColumn (name : String)
  | duplicateId
  | cannotOpen
  | notADatabase
  | readOnly
  | noSystem (name : String)
deriving DecidableEq, Repr

def Refusal.message : Refusal → String
  | noTable => "(code: 1) no such table: experiences"
  | noColumn name => s!"(code: 1) no such column: {name}"
  | duplicateId => "(code: 1555) UNIQUE constraint failed: experiences.id"
  | cannotOpen => "(code: 14) unable to open database file"
  | notADatabase => "(code: 26) file is not a database"
  | readOnly => "(code: 8) attempt to write a readonly database"
  | noSystem name => s!"(code: 1) no such vfs: {name}"

inductive SqlFault
  | timedOut
  | closed
  | noRow
  | protocol (text : String)
  | configuration (text : String)
  | refused (r : Refusal)
deriving DecidableEq, Repr

namespace SqlFault

def message : SqlFault → String
  | timedOut => "pool timed out while waiting for an open connection"
  | closed => "attempted to acquire a connection on a closed pool"
  | noRow => "no rows returned by a query that expected to return at least one row"
  | protocol text => s!"encountered unexpected or invalid data: {text}"
  | configuration text => s!"error with configuration: {text}"
  | refused r => s!"error returned from database: {r.message}"

def chain : SqlFault → List String
  | refused r => [(refused r).message, r.message]
  | configuration text => [(configuration text).message, text]
  | e => [e.message]

end SqlFault

inductive Fault
  | fileCreation (text : String)
  | sql (e : SqlFault)
  | migration (number : Option Nat) (e : SqlFault)
  | invalidRow (e : RowFault)
deriving DecidableEq

namespace Fault

def message : Fault → String
  | fileCreation text => s!"Database file creation error: {text}"
  | sql e => s!"SQL error: {e.message}"
  | migration none e => s!"Migration error: while executing migrations: {e.message}"
  | migration (some n) e => s!"Migration error: while executing migration {n}: {e.message}"
  | invalidRow e => s!"Invalid row: {e.message}"

def chain : Fault → List String
  | sql e => (sql e).message :: e.chain
  | migration none e => [(migration none e).message, s!"while executing migrations: {e.message}"]
    ++ e.chain
  | migration (some n) e =>
    [(migration (some n) e).message, s!"while executing migration {n}: {e.message}"] ++ e.chain
  | e => [e.message]

end Fault
end WriteBehind.Storage
