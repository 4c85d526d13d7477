import WriteBehind.Json.Grammar
import WriteBehind.Record.Reader

namespace WriteBehind.Record

open Json.Grammar (Blanks Inside Spelled Whole)

-- A member as it is written: the text between the quotes of its name, its value, and what stands
-- around the four tokens.
structure Member where
  beforeName : List Char := []
  name : List Char
  afterName : List Char := []
  beforeValue : List Char := []
  value : List Char
  afterValue : List Char := []

namespace Member

variable (m : Member)

def text : List Char :=
  m.beforeName ++ '\"' :: m.name ++ '\"' :: m.afterName ++ ':' :: m.beforeValue ++ m.value
    ++ m.afterValue

structure IsSpaced : Prop where
  beforeName : Blanks m.beforeName
  afterName : Blanks m.afterName
  beforeValue : Blanks m.beforeValue
  afterValue : Blanks m.afterValue

def Names (f : Field) : Prop := Inside m.name f.name.toList

structure IsWellFormed : Prop where
  spaced : m.IsSpaced
  name : ∃ n, Inside m.name n
  value : Spelled .value m.value

-- Whether the member is none of a record: its name is no field's, and its value may be any.
structure IsExtra : Prop where
  name : ∃ n, Inside m.name n ∧ Field.ofName? n = none
  value : Spelled .value m.value

end Member

def objectText (ms : List Member) : List Char :=
  '{' :: [','].intercalate (ms.map Member.text) ++ ['}']

def IsNatural (s : List Char) (n : UInt64) : Prop :=
  Whole s ∧ Nat.ofDigitChars 10 s 0 = n.toNat

def IsTimestamp (s : List Char) (t : Time.Instant) : Prop :=
  ∃ u v, s = '\"' :: u ++ ['\"'] ∧ Inside u v ∧ Time.Relaxed.read v = .ok t

def HasField (r : Record) (s : List Char) : Field → Prop
  | .id => IsNatural s r.id
  | .user => IsNatural s r.user
  | .kind => IsNatural s r.kind
  | .start => IsTimestamp s r.start
  | .finish => IsTimestamp s r.finish
  | .level => IsNatural s r.level

def IsSpelledBy (r : Record) (ms : List Member) : Prop :=
  (∀ m ∈ ms, m.IsSpaced) ∧
  ∃ (own : Field → Member) (others : List Member),
    ms.Perm (Field.all.map own ++ others) ∧
    (∀ f, (own f).Names f ∧ r.HasField (own f).value f) ∧ ∀ m ∈ others, m.IsExtra

structure Item where
  before : List Char
  value : List Char
  after : List Char

def Item.text (i : Item) : List Char := i.before ++ i.value ++ i.after

def listText (items : Field → Item) : List Char :=
  '[' :: [','].intercalate (Field.all.map fun f => (items f).text) ++ [']']

def IsListedBy (r : Record) (items : Field → Item) : Prop :=
  ∀ f, Blanks (items f).before ∧ r.HasField (items f).value f ∧ Blanks (items f).after

end WriteBehind.Record
