import WriteBehind.Record.Grammar
import WriteBehind.Text.Blank

namespace WriteBehind.Record

open Json.Grammar (Blanks Part Spelled Unread)

def Gap (b b' : List Char) : Prop := Blanks b ∧ Blanks b'

inductive Respaced : Part → List Char → List Char → Prop
  | same {s} : Spelled .value s → Respaced .value s s
  | nothing {b b' o c} :
    (o, c) ∈ [('[', ']'), ('{', '}')] → Gap b b' → Respaced .value (o :: b ++ [c]) (o :: b' ++ [c])
  | list {s s'} : Respaced .items s s' → Respaced .value ('[' :: s ++ [']']) ('[' :: s' ++ [']'])
  | object {s s'} :
    Respaced .members s s' → Respaced .value ('{' :: s ++ ['}']) ('{' :: s' ++ ['}'])
  | item {a a' v v' b b'} :
    Gap a a' → Respaced .value v v' → Gap b b' → Respaced .items (a ++ v ++ b) (a' ++ v' ++ b')
  | items {a a' v v' b b' s s'} :
    Gap a a' → Respaced .value v v' → Gap b b' → Respaced .items s s' →
    Respaced .items (a ++ v ++ b ++ ',' :: s) (a' ++ v' ++ b' ++ ',' :: s')
  | member {a a' n b b' c c' v v' d d'} :
    Gap a a' → Unread n → Gap b b' → Gap c c' → Respaced .value v v' → Gap d d' →
    Respaced .members (a ++ '\"' :: n ++ '\"' :: b ++ ':' :: c ++ v ++ d)
      (a' ++ '\"' :: n ++ '\"' :: b' ++ ':' :: c' ++ v' ++ d')
  | members {a a' n b b' c c' v v' d d' s s'} :
    Gap a a' → Unread n → Gap b b' → Gap c c' → Respaced .value v v' → Gap d d' →
    Respaced .members s s' →
    Respaced .members (a ++ '\"' :: n ++ '\"' :: b ++ ':' :: c ++ v ++ d ++ ',' :: s)
      (a' ++ '\"' :: n ++ '\"' :: b' ++ ':' :: c' ++ v' ++ d' ++ ',' :: s')

structure Member.Respaced (m m' : Member) : Prop where
  name : m'.name = m.name
  value : Record.Respaced .value m.value m'.value
  spaced : m'.IsSpaced

inductive Edit : List Member → List Member → Prop
  | reorder {ms ms'} : ms.Perm ms' → Edit ms ms'
  | respace {as m m' bs} : m.Respaced m' → Edit (as ++ m :: bs) (as ++ m' :: bs)
  | extend {as m bs} : m.IsSpaced → m.IsExtra → Edit (as ++ bs) (as ++ m :: bs)

inductive Edits (ms : List Member) : List Member → Prop
  | refl : Edits ms ms
  | edit {ms' ms''} : Edits ms ms' → Edit ms' ms'' → Edits ms ms''

def Carries (line text : List Char) : Prop :=
  ∃ a b, (∀ c ∈ a, Text.isBlank c = true) ∧ (∀ c ∈ b, Text.isBlank c = true) ∧
    line = a ++ text ++ b

def number? (r : Record) : Field → Option UInt64
  | .id => some r.id
  | .user => some r.user
  | .kind => some r.kind
  | .start => none
  | .finish => none
  | .level => some r.level

end WriteBehind.Record
