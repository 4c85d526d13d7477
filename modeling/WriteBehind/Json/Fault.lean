import WriteBehind.Decimal.Shortest
import WriteBehind.Text.Quoted
import WriteBehind.Text.Utf8
import WriteBehind.Time.Fault

namespace WriteBehind.Json

open Text (width)

inductive Found
  | null
  | boolean (b : Bool)
  | natural (n : UInt64)
  | negative (n : Int)
  -- A number with a fraction or an exponent, or too long for an integer, as the bits of a double.
  | floating (bits : UInt64)
  | text (s : List Char)
  | sequence
  | map
deriving DecidableEq

def Found.message : Found → String
  | null => "null"
  | boolean b => s!"boolean `{b}`"
  | natural n => s!"integer `{n}`"
  | negative n => s!"integer `{n}`"
  | floating bits => s!"floating point `{String.ofList (Decimal.Spelling.message.writeBits bits)}`"
  | text s => "string " ++ String.ofList (Text.quoted s)
  | sequence => "sequence"
  | map => "map"

inductive Wanted
  | record
  | natural
  | timestamp
deriving DecidableEq, Repr

def Wanted.message : Wanted → String
  | record => "struct Experience"
  | natural => "u64"
  | timestamp => "an RFC 3339 formatted date and time string"

inductive Mismatch
  | type (found : Found) (wanted : Wanted)
  | value (found : Found) (wanted : Wanted)
  | length (size : Nat)
  | missing (name : String)
  | duplicate (name : String)
  | timestamp (fault : Time.Fault)
deriving DecidableEq

def Mismatch.message : Mismatch → String
  | type f w => s!"invalid type: {f.message}, expected {w.message}"
  | value f w => s!"invalid value: {f.message}, expected {w.message}"
  | length n => s!"invalid length {n}, expected struct Experience with 6 elements"
  | missing name => s!"missing field `{name}`"
  | duplicate name => s!"duplicate field `{name}`"
  | timestamp f => f.message

inductive Cause
  | endInList
  | endInObject
  | endInString
  | endInValue
  | expectedColon
  | expectedListEnd
  | expectedObjectEnd
  | expectedWord
  | expectedValue
  | invalidEscape
  | invalidNumber
  | numberOutOfRange
  | controlCharacter
  | nameNotText
  | loneSurrogate
  | trailingComma
  | trailingCharacters
  | cutSurrogatePair
  | mismatch (m : Mismatch)
deriving DecidableEq

namespace Cause

def message : Cause → String
  | endInList => "EOF while parsing a list"
  | endInObject => "EOF while parsing an object"
  | endInString => "EOF while parsing a string"
  | endInValue => "EOF while parsing a value"
  | expectedColon => "expected `:`"
  | expectedListEnd => "expected `,` or `]`"
  | expectedObjectEnd => "expected `,` or `\x7d`"
  | expectedWord => "expected ident"
  | expectedValue => "expected value"
  | invalidEscape => "invalid escape"
  | invalidNumber => "invalid number"
  | numberOutOfRange => "number out of range"
  | controlCharacter =>
    "control character (\\u0000-\\u001F) found while parsing a string"
  | nameNotText => "key must be a string"
  | loneSurrogate => "lone leading surrogate in hex escape"
  | trailingComma => "trailing comma"
  | trailingCharacters => "trailing characters"
  | cutSurrogatePair => "unexpected end of hex escape"
  | mismatch m => m.message

inductive Class
  | ill
  | misfit
  | cut
deriving DecidableEq, Repr

def toClass : Cause → Class
  | endInList | endInObject | endInString | endInValue => .cut
  | mismatch _ => .misfit
  | _ => .ill

end Cause

structure Fault where
  cause : Cause
  left : Nat
deriving DecidableEq

namespace Fault

def before (s : List Char) (cause : Cause) : Fault := ⟨cause, width s⟩

def onFirst (s : List Char) (cause : Cause) : Fault := ⟨cause, width s - 1⟩

end Fault

structure Place where
  line : Nat
  column : Nat
deriving DecidableEq, Repr

namespace Place

def advance (p : Place) : Nat → List Char → Place
  | 0, _ => p
  | _, [] => p
  | n, c :: s =>
    if n < c.utf8Size then { p with column := p.column + n }
    else
      advance (if c = '\n' then ⟨p.line + 1, 0⟩ else { p with column := p.column + c.utf8Size })
        (n - c.utf8Size) s

end Place

namespace Fault

def place (f : Fault) (text : List Char) : Place :=
  Place.advance ⟨1, 0⟩ (width text - f.left) text

def message (f : Fault) (text : List Char) : String :=
  let p := f.place text
  s!"{f.cause.message} at line {p.line} column {p.column}"

end Fault

example : (Fault.mk .invalidNumber 1).place ['a', '\n', 'é', 'x', 'y'] = ⟨2, 3⟩ := by
  decide +kernel

end WriteBehind.Json
