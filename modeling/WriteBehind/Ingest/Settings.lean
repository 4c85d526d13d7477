import WriteBehind.Log.Level
import WriteBehind.Writer.Settings

namespace WriteBehind.Ingest

structure Settings where
  file : String := "experiences.jsonl"
  database : String := "./experiences.db"
  level : Log.Level := .info
  format : Log.Format := .plain
  chunkSize : Nat := 1000
  writer : Writer.Settings := {}
deriving DecidableEq, Repr

def Settings.check (s : Settings) : Except SettingsFault Unit :=
  if s.chunkSize = 0 then .error .zeroChunkSize else s.writer.check

end WriteBehind.Ingest
