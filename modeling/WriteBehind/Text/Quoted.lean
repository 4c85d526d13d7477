import WriteBehind.Text.Extending
import WriteBehind.Text.Hex
import WriteBehind.Text.Printable

namespace WriteBehind.Text

def quoteChar (c : Char) : List Char :=
  if c = '\"' then ['\\', '\"']
  else if c = '\\' then ['\\', '\\']
  else if c = '\x00' then ['\\', '0']
  else if c = '\t' then ['\\', 't']
  else if c = '\r' then ['\\', 'r']
  else if c = '\n' then ['\\', 'n']
  else if isExtending c || !isPrintable c then "\\u\x7b".toList ++ hex c.toNat ++ ['}']
  else [c]

def quoted (s : List Char) : List Char := '\"' :: s.flatMap quoteChar ++ ['\"']

example : quoted ['a', '\"', '\n'] = ['\"', 'a', '\\', '\"', '\\', 'n', '\"'] := by decide +kernel

end WriteBehind.Text
