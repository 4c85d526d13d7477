import WriteBehind.Json.Fault
import WriteBehind.Text.Blank

namespace WriteBehind.Json

abbrev Reader (α : Type) := List Char → Except Fault (α × List Char)

def isBlank (c : Char) : Bool := c = ' ' || c = '\n' || c = '\t' || c = '\r'

def skipBlanks (s : List Char) : List Char := s.dropWhile isBlank

@[simp] theorem skipBlanks_nil : skipBlanks [] = [] := rfl

theorem text_isBlank_of_isBlank {c : Char} (h : isBlank c = true) : Text.isBlank c = true := by
  simp only [isBlank, Bool.or_eq_true, decide_eq_true_eq] at h
  rcases h with ((rfl | rfl) | rfl) | rfl <;> decide

def word : List Char → List Char → Except Fault (List Char)
  | [], s => .ok s
  | _, [] => .error (.before [] .endInValue)
  | c :: w, d :: s => if c = d then word w s else .error (.onFirst (d :: s) .expectedWord)

theorem word_append (w s : List Char) : word w (w ++ s) = .ok s := by
  induction w with
  | nil => rfl
  | cons c w ih => simp [word, ih]

end WriteBehind.Json
