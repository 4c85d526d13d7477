namespace WriteBehind.Chunk

inductive Fault
  | zeroSize
  | tooSmall (length size : Nat)
  | empty
deriving DecidableEq, Repr

def Fault.message : Fault → String
  | zeroSize => "chunk size must be greater than zero"
  | tooSmall length size => s!"slice of {length} items is smaller than chunk size {size}"
  | empty => "slice is empty"

variable {α : Type}

-- The consecutive windows of `size` items. There are none of size zero.
def windows (size : Nat) (xs : List α) : List (List α) :=
  if size = 0 ∨ xs = [] then [] else xs.take size :: windows size (xs.drop size)
termination_by xs.length
decreasing_by
  have : xs.length ≠ 0 := by simp_all
  simp only [List.length_drop]
  omega

theorem windows_nil (size : Nat) : windows size ([] : List α) = [] := by
  rw [windows]; simp

theorem windows_of_ne_nil {size : Nat} {xs : List α} (hs : 0 < size) (hx : xs ≠ []) :
    windows size xs = xs.take size :: windows size (xs.drop size) := by
  rw [windows]; simp [hx]; omega

theorem flatten_windows {size : Nat} (hs : 0 < size) (xs : List α) :
    (windows size xs).flatten = xs := by
  fun_induction windows size xs with
  | case1 xs h =>
    obtain rfl | rfl := h
    · simp at hs
    · rfl
  | case2 xs h ih => simp [ih]

def split (size : Nat) (xs : List α) : Except Fault (List (List α)) :=
  if size = 0 then .error .zeroSize
  else if xs.length < size then .error (.tooSmall xs.length size)
  else .ok (windows size xs)

example : windows 2 [1, 2, 3] = [[1, 2], [3]] := by decide +kernel

end WriteBehind.Chunk
