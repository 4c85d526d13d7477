import WriteBehind.Json.Quoted

namespace WriteBehind.Json.Grammar

open Text (hexValue?)

def Blanks (s : List Char) : Prop := ∀ c ∈ s, isBlank c = true

def IsPlain (c : Char) : Prop := ' ' ≤ c ∧ c ≠ '\"' ∧ c ≠ '\\'

inductive CodeUnit : List Char → Nat → Prop
  | mk {a b c d : Char} {i j k l : Nat} :
    hexValue? a = some i → hexValue? b = some j → hexValue? c = some k → hexValue? d = some l →
    CodeUnit [a, b, c, d] (((16 * i + j) * 16 + k) * 16 + l)

inductive Inside : List Char → List Char → Prop
  | nil : Inside [] []
  | plain {c s t} : IsPlain c → Inside s t → Inside (c :: s) (c :: t)
  | short {c d s t} : Quoted.short? c = some d → Inside s t → Inside ('\\' :: c :: s) (d :: t)
  | unit {u n s t} :
    CodeUnit u n → Quoted.isHighSurrogate n = false → Quoted.isLowSurrogate n = false → Inside s t →
    Inside ('\\' :: 'u' :: u ++ s) (Char.ofNat n :: t)
  | pair {u n v m s t} :
    CodeUnit u n → Quoted.isHighSurrogate n = true → CodeUnit v m → Quoted.isLowSurrogate m = true →
    Inside s t →
    Inside ('\\' :: 'u' :: u ++ '\\' :: 'u' :: v ++ s)
      (Char.ofNat (0x10000 + (n - 0xD800) * 0x400 + (m - 0xDC00)) :: t)

-- What may stand between the quotes of a string that is not read. Surrogates need no pair.
inductive Unread : List Char → Prop
  | nil : Unread []
  | plain {c s} : IsPlain c → Unread s → Unread (c :: s)
  | short {c d s} : Quoted.short? c = some d → Unread s → Unread ('\\' :: c :: s)
  | unit {u n s} : CodeUnit u n → Unread s → Unread ('\\' :: 'u' :: u ++ s)

theorem Inside.unread {s t : List Char} (h : Inside s t) : Unread s := by
  induction h with
  | nil => exact .nil
  | plain h _ ih => exact .plain h ih
  | short h _ ih => exact .short h ih
  | unit h _ _ _ ih => exact .unit h ih
  | pair h _ h' _ _ ih => simpa using Unread.unit h (.unit h' ih)

def Digits (s : List Char) : Prop := s ≠ [] ∧ ∀ c ∈ s, c.isDigit = true

def Whole (s : List Char) : Prop := Digits s ∧ (s.head? = some '0' → s = ['0'])

def Fraction (s : List Char) : Prop := s = [] ∨ ∃ ds, Digits ds ∧ s = '.' :: ds

def Power (s : List Char) : Prop :=
  s = [] ∨ ∃ e sign ds, e ∈ ['e', 'E'] ∧ sign ∈ [[], ['+'], ['-']] ∧ Digits ds ∧ s = e :: sign ++ ds

def Numeral (s : List Char) : Prop :=
  ∃ sign whole fraction power, sign ∈ [[], ['-']] ∧ Whole whole ∧ Fraction fraction ∧ Power power ∧
    s = sign ++ whole ++ fraction ++ power

inductive Part
  | value
  | items
  | members

inductive Spelled : Part → List Char → Prop
  | word {w : String} : w ∈ ["null", "true", "false"] → Spelled .value w.toList
  | number {s} : Numeral s → Spelled .value s
  | text {s} : Unread s → Spelled .value ('\"' :: s ++ ['\"'])
  | nothing {b o c} : (o, c) ∈ [('[', ']'), ('{', '}')] → Blanks b → Spelled .value (o :: b ++ [c])
  | list {s} : Spelled .items s → Spelled .value ('[' :: s ++ [']'])
  | object {s} : Spelled .members s → Spelled .value ('{' :: s ++ ['}'])
  | item {a v b} : Blanks a → Spelled .value v → Blanks b → Spelled .items (a ++ v ++ b)
  | items {a v b s} :
    Blanks a → Spelled .value v → Blanks b → Spelled .items s →
    Spelled .items (a ++ v ++ b ++ ',' :: s)
  | member {a n b c v d} :
    Blanks a → Unread n → Blanks b → Blanks c → Spelled .value v → Blanks d →
    Spelled .members (a ++ '\"' :: n ++ '\"' :: b ++ ':' :: c ++ v ++ d)
  | members {a n b c v d s} :
    Blanks a → Unread n → Blanks b → Blanks c → Spelled .value v → Blanks d → Spelled .members s →
    Spelled .members (a ++ '\"' :: n ++ '\"' :: b ++ ':' :: c ++ v ++ d ++ ',' :: s)

end WriteBehind.Json.Grammar
