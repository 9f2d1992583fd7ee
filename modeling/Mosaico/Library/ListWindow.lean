import Mathlib.Data.List.Basic

/-! A piece of a list, by its offset and its length. -/
namespace ListWindow

variable {α : Type} {l : List α} {offset n k i : Nat}

def window (l : List α) (offset n : Nat) : List α := (l.drop offset).take n

@[simp] theorem window_zero : window l offset 0 = [] := List.take_zero

end ListWindow
