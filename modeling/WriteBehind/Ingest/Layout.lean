import WriteBehind.Record.Line

namespace WriteBehind.Ingest

inductive LineEnd
  | lf
  | crlf
deriving DecidableEq, Repr

def LineEnd.text : LineEnd → List Char
  | lf => ['\n']
  | crlf => ['\r', '\n']

structure Layout where
  lines : List (List Char × LineEnd)
  last : List Char := []

namespace Layout

def text (l : Layout) : List Char := l.lines.flatMap (fun (s, e) => s ++ e.text) ++ l.last

def IsCut (l : Layout) : Prop := (∀ p ∈ l.lines, '\n' ∉ p.1) ∧ '\n' ∉ l.last

def Padding (s : List Char) : Prop := ∀ c ∈ s, Text.isBlank c = true ∧ c ≠ '\n'

inductive Edit : Layout → Layout → Prop
  | insert {as bs s e last} :
    Record.isVoid s = true → '\n' ∉ s → Edit ⟨as ++ bs, last⟩ ⟨as ++ (s, e) :: bs, last⟩
  | pad {as bs s t u e last} :
    Padding t → Padding u → Edit ⟨as ++ (s, e) :: bs, last⟩ ⟨as ++ (t ++ s ++ u, e) :: bs, last⟩
  | padLast {ls s t u} : Padding t → Padding u → Edit ⟨ls, s⟩ ⟨ls, t ++ s ++ u⟩
  | lineEnd {as bs s e e' last} : Edit ⟨as ++ (s, e) :: bs, last⟩ ⟨as ++ (s, e') :: bs, last⟩
  | finish {ls s e} : Edit ⟨ls, s⟩ ⟨ls ++ [(s, e)], []⟩

inductive Edits (l : Layout) : Layout → Prop
  | refl : Edits l l
  | edit {l' l''} : Edits l l' → Edit l' l'' → Edits l l''
  | undo {l' l''} : Edits l l' → Edit l'' l' → Edits l l''

end Layout
end WriteBehind.Ingest
