import WriteBehind.Json.Skip
import WriteBehind.Record
import WriteBehind.Time.Relaxed

namespace WriteBehind.Record

open Json (Fault Reader Found Wanted skipBlanks)

inductive Field
  | id
  | user
  | kind
  | start
  | finish
  | level
deriving DecidableEq, Repr

namespace Field

def name : Field → String
  | id => "id"
  | user => "user_id"
  | kind => "type"
  | start => "from"
  | finish => "to"
  | level => "level"

def all : List Field := [id, user, kind, start, finish, level]

def ofName? (s : List Char) : Option Field := all.find? fun f => f.name.toList = s

theorem ofName?_name (f : Field) : ofName? f.name.toList = some f := by cases f <;> decide

end Field

-- The mismatch of the value that the text starts with. A number, word or string is read to its
-- end, a list or an object only seen.
def mismatch (wanted : Wanted) (s : List Char) : Fault :=
  let misfit (found : Found) (rest : List Char) : Fault :=
    .before rest (.mismatch (.type found wanted))
  let orFault (r : Except Fault (List Char)) (found : Found) : Fault :=
    match r with
    | .ok rest => misfit found rest
    | .error e => e
  match s with
  | [] => .before [] .endInValue
  | c :: r =>
    if c = 'n' then orFault (Json.word "ull".toList r) .null
    else if c = 't' then orFault (Json.word "rue".toList r) (.boolean true)
    else if c = 'f' then orFault (Json.word "alse".toList r) (.boolean false)
    else if c = '-' || c.isDigit then
      match Json.Number.unsigned (c = '-') (if c = '-' then r else s) with
      | .ok (n, rest) => misfit n.toFound rest
      | .error e => e
    else if c = '\"' then
      match Json.Quoted.body r with
      | .ok (t, rest) => misfit (.text t) rest
      | .error e => e
    else if c = '[' then misfit .sequence s
    else if c = '{' then misfit .map s
    else .onFirst s .expectedValue

def natural : Reader UInt64 := fun s =>
  match skipBlanks s with
  | [] => .error (.before [] .endInValue)
  | c :: s =>
    if c = '-' || c.isDigit then do
      match ← Json.Number.unsigned (c = '-') (if c = '-' then s else c :: s) with
      | (.natural n, s) => return (n, s)
      | (.negative n, s) => throw (.before s (.mismatch (.value (.negative n) .natural)))
      | (.floating bits, s) => throw (.before s (.mismatch (.type (.floating bits) .natural)))
    else .error (mismatch .natural (c :: s))

def timestamp : Reader Time.Instant := fun s =>
  match skipBlanks s with
  | [] => .error (.before [] .endInValue)
  | c :: s =>
    if c = '\"' then do
      let (text, s) ← Json.Quoted.body s
      match Time.Relaxed.read text with
      | .ok t => return (t, s)
      | .error e => throw (.before s (.mismatch (.timestamp e)))
    else .error (mismatch .timestamp (c :: s))

structure Draft where
  id : Option UInt64 := none
  user : Option UInt64 := none
  kind : Option UInt64 := none
  start : Option Time.Instant := none
  finish : Option Time.Instant := none
  level : Option UInt64 := none

namespace Draft

def has (d : Draft) : Field → Bool
  | .id => d.id.isSome
  | .user => d.user.isSome
  | .kind => d.kind.isSome
  | .start => d.start.isSome
  | .finish => d.finish.isSome
  | .level => d.level.isSome

def read (d : Draft) (f : Field) : Reader Draft := fun s =>
  match f with
  | .id => (natural s).map fun (n, s) => ({ d with id := some n }, s)
  | .user => (natural s).map fun (n, s) => ({ d with user := some n }, s)
  | .kind => (natural s).map fun (n, s) => ({ d with kind := some n }, s)
  | .start => (timestamp s).map fun (t, s) => ({ d with start := some t }, s)
  | .finish => (timestamp s).map fun (t, s) => ({ d with finish := some t }, s)
  | .level => (natural s).map fun (n, s) => ({ d with level := some n }, s)

def record (d : Draft) : Except Field Record := do
  let id ← need .id d.id
  let user ← need .user d.user
  let kind ← need .kind d.kind
  let start ← need .start d.start
  let finish ← need .finish d.finish
  let level ← need .level d.level
  return ⟨id, user, kind, start, finish, level⟩
where
  need {α : Type} (f : Field) : Option α → Except Field α
    | some a => .ok a
    | none => .error f

end Draft

def colon (s : List Char) : Except Fault (List Char) :=
  match skipBlanks s with
  | [] => .error (.before [] .endInObject)
  | ':' :: s => .ok s
  | s => .error (.onFirst s .expectedColon)

-- What is left when a bracket closes here, or would have to.
def afterClosing (bracket : Char) (s : List Char) : List Char :=
  match skipBlanks s with
  | [] => []
  | c :: s => if c = bracket then s else c :: s

def nextName (first : Bool) (s : List Char) : Except Fault (Option (List Char × List Char)) :=
  match skipBlanks s with
  | [] => .error (.before [] .endInObject)
  | c :: s =>
    if c = '}' then .ok none
    else if first then name (c :: s)
    else if c = ',' then name (skipBlanks s)
    else .error (.onFirst (c :: s) .expectedObjectEnd)
where
  name : List Char → Except Fault (Option (List Char × List Char))
    | [] => .error (.before [] .endInValue)
    | c :: s =>
      if c = '\"' then (Json.Quoted.body s).map some
      else if c = '}' then .error (.onFirst (c :: s) .trailingComma)
      else .error (.onFirst (c :: s) .nameNotText)

def membersFrom : Nat → Bool → Draft → Reader Draft
  | 0, _, _, s => .error (.before s .expectedValue)
  | fuel + 1, first, d, s => do
    match ← nextName first s with
    | none => return (d, s)
    | some (name, s) =>
      match Field.ofName? name with
      | none => membersFrom fuel false d (← Json.Skip.value (← colon s))
      | some f =>
        if d.has f then throw (.before (afterClosing '}' s) (.mismatch (.duplicate f.name)))
        let (d, s) ← d.read f (← colon s)
        membersFrom fuel false d s

def object : Reader Record := fun s => do
  let (d, s) ← membersFrom (s.length + 1) true {} s
  let s := afterClosing '}' s
  match d.record with
  | .ok r => return (r, s)
  | .error f => throw (.before s (.mismatch (.missing f.name)))

def nextItem (first : Bool) (s : List Char) : Except Fault (Option (List Char)) :=
  match skipBlanks s with
  | [] => .error (.before [] .endInList)
  | c :: s =>
    if c = ']' then .ok none
    else if first then .ok (some (c :: s))
    else if c = ',' then
      match skipBlanks s with
      | [] => .error (.before [] .endInValue)
      | d :: s => if d = ']' then .error (.onFirst (d :: s) .trailingComma) else .ok (some (d :: s))
    else .error (.onFirst (c :: s) .expectedListEnd)

def item {α : Type} (index : Nat) (read : Reader α) : Reader α := fun s => do
  match ← nextItem (index = 0) s with
  | some s => read s
  | none => throw (.before (afterClosing ']' s) (.mismatch (.length index)))

def closeList (s : List Char) : Except Fault (List Char) :=
  match skipBlanks s with
  | [] => .error (.before [] .endInList)
  | c :: s =>
    if c = ']' then .ok s
    else if c = ',' then
      match skipBlanks s with
      | ']' :: s => .error (.onFirst (']' :: s) .trailingComma)
      | s => .error (.onFirst s .trailingCharacters)
    else .error (.onFirst (c :: s) .trailingCharacters)

def list : Reader Record := fun s => do
  let (id, s) ← item 0 natural s
  let (user, s) ← item 1 natural s
  let (kind, s) ← item 2 natural s
  let (start, s) ← item 3 timestamp s
  let (finish, s) ← item 4 timestamp s
  let (level, s) ← item 5 natural s
  return (⟨id, user, kind, start, finish, level⟩, ← closeList s)

def read (s : List Char) : Except Fault Record := do
  let (r, s) ← match skipBlanks s with
    | '{' :: s => object s
    | '[' :: s => list s
    | s => .error (mismatch .record s)
  match skipBlanks s with
  | [] => return r
  | s => throw (.onFirst s .trailingCharacters)

end WriteBehind.Record
