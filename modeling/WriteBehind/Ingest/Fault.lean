import WriteBehind.Storage.Fault
import WriteBehind.Writer.Fault
import WriteBehind.Writer.Settings

namespace WriteBehind.Ingest

inductive Fault
  | settings (e : SettingsFault)
  | database (e : Storage.Fault)
  | openInput (path text : String)
  | readInput (text : String)
  | writer (e : Writer.Fault)
deriving DecidableEq

namespace Fault

def chain : Fault → List String
  | settings e => ["Invalid configuration", e.message]
  | database e => "Failed to initialize database" :: e.chain
  | openInput path text => [s!"Failed to open input file {path}", text]
  | readInput text => ["Failed to read input", text]
  | writer e => [e.message]

def message (e : Fault) : String := ": ".intercalate e.chain

end Fault
end WriteBehind.Ingest
