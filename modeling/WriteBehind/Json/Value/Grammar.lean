import WriteBehind.Json.Grammar
import WriteBehind.Json.Value

namespace WriteBehind.Json.Grammar

def signed (sign ds : List Char) : Int :=
  if sign = ['-'] then -(Nat.ofDigitChars 10 ds 0 : Int) else Nat.ofDigitChars 10 ds 0

inductive FractionOf : List Char → List Char → Prop
  | none : FractionOf [] []
  | digits {ds} : Digits ds → FractionOf ('.' :: ds) ds

inductive PowerOf : List Char → Int → Prop
  | none : PowerOf [] 0
  | exponent {e sign ds} :
    e ∈ ['e', 'E'] → sign ∈ [[], ['+'], ['-']] → Digits ds → PowerOf (e :: sign ++ ds) (signed sign ds)

inductive NumberOf : List Char → Value → Prop
  | integer {sign ds} :
    sign ∈ [[], ['-']] → Whole ds → NumberOf (sign ++ ds) (.integer (signed sign ds))
  | decimal {sign ds f fs p n} :
    sign ∈ [[], ['-']] → Whole ds → FractionOf f fs → PowerOf p n → fs ≠ [] ∨ p ≠ [] →
    NumberOf (sign ++ ds ++ f ++ p) (.decimal (signed sign (ds ++ fs)) (n - fs.length))

abbrev Part.Meaning : Part → Type
  | .value   => Value
  | .items   => List Value
  | .members => List (List Char × Value)

inductive Denotes : (p : Part) → List Char → p.Meaning → Prop
  | null : Denotes .value "null".toList .null
  | boolean {b : Bool} : Denotes .value (if b then "true" else "false").toList (.boolean b)
  | number {s v} : NumberOf s v → Denotes .value s v
  | text {s t} : Inside s t → Denotes .value ('\"' :: s ++ ['\"']) (.text t)
  | noItems {b} : Blanks b → Denotes .value ('[' :: b ++ [']']) (.list [])
  | noMembers {b} : Blanks b → Denotes .value ('{' :: b ++ ['}']) (.object [])
  | list {s vs} : Denotes .items s vs → Denotes .value ('[' :: s ++ [']']) (.list vs)
  | object {s ms} : Denotes .members s ms → Denotes .value ('{' :: s ++ ['}']) (.object ms)
  | item {a s v b} : Blanks a → Denotes .value s v → Blanks b → Denotes .items (a ++ s ++ b) [v]
  | items {a s v b t vs} :
    Blanks a → Denotes .value s v → Blanks b → Denotes .items t vs →
    Denotes .items (a ++ s ++ b ++ ',' :: t) (v :: vs)
  | member {a n m b c s v d} :
    Blanks a → Inside n m → Blanks b → Blanks c → Denotes .value s v → Blanks d →
    Denotes .members (a ++ '\"' :: n ++ '\"' :: b ++ ':' :: c ++ s ++ d) [(m, v)]
  | members {a n m b c s v d t ms} :
    Blanks a → Inside n m → Blanks b → Blanks c → Denotes .value s v → Blanks d →
    Denotes .members t ms →
    Denotes .members (a ++ '\"' :: n ++ '\"' :: b ++ ':' :: c ++ s ++ d ++ ',' :: t) ((m, v) :: ms)

theorem FractionOf.fraction {f fs : List Char} (h : FractionOf f fs) : Fraction f := by
  cases h with
  | none     => exact .inl rfl
  | digits h => exact .inr ⟨_, h, rfl⟩

theorem PowerOf.power {p : List Char} {n : Int} (h : PowerOf p n) : Power p := by
  cases h with
  | none              => exact .inl rfl
  | exponent he hs hd => exact .inr ⟨_, _, _, he, hs, hd, rfl⟩

theorem NumberOf.numeral {s : List Char} {v : Value} (h : NumberOf s v) : Numeral s := by
  cases h with
  | integer hs hw       => exact ⟨_, _, [], [], hs, hw, .inl rfl, .inl rfl, by simp⟩
  | decimal hs hw hf hp => exact ⟨_, _, _, _, hs, hw, hf.fraction, hp.power, rfl⟩

theorem Denotes.spelled {p : Part} {s : List Char} {m : p.Meaning} (h : Denotes p s m) :
    Spelled p s := by
  induction h with
  | null                            => exact .word (w := "null") (by simp)
  | @boolean b                      => exact .word (by cases b <;> simp)
  | number h                        => exact .number h.numeral
  | text h                          => exact .text h.unread
  | noItems h                       => exact .nothing (by simp) h
  | noMembers h                     => exact .nothing (by simp) h
  | list _ ih                       => exact .list ih
  | object _ ih                     => exact .object ih
  | item ha _ hb ih                 => exact .item ha ih hb
  | items ha _ hb _ ih ih'          => exact .items ha ih hb ih'
  | member ha hn hb hc _ hd ih      => exact .member ha hn.unread hb hc ih hd
  | members ha hn hb hc _ hd _ ih ih' => exact .members ha hn.unread hb hc ih hd ih'

end WriteBehind.Json.Grammar
