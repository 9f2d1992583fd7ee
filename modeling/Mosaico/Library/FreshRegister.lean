import Mathlib.Order.Basic
import Mathlib.Order.Lattice

/-! A register that keeps the fresher of what it holds and what arrives, by a rank of its values.
At equal ranks the arrival wins. -/
namespace FreshRegister

variable {α β ρ : Type} [LinearOrder ρ]

def fresher (rank : α → ρ) (current next : α) : α :=
  if rank next < rank current then current else next

/-- What a register holds after an arrival; an empty one takes anything. -/
def arrive (rank : α → ρ) (current : Option α) (next : α) : α :=
  match current with
  | none => next
  | some current => fresher rank current next

section Ranks

variable (rank : α → ρ) (current next : α)

theorem fresher_choice : fresher rank current next = current ∨ fresher rank current next = next := by
  unfold fresher
  split
  · exact .inl rfl
  · exact .inr rfl

theorem rank_fresher : rank (fresher rank current next) = max (rank current) (rank next) := by
  unfold fresher
  split
  · rename_i older
    rw [max_eq_left (le_of_lt older)]
  · rename_i fresh
    rw [max_eq_right (le_of_not_gt fresh)]

theorem rank_le_fresher : rank current ≤ rank (fresher rank current next) := by
  rw [rank_fresher rank]
  exact le_max_left _ _

/-- What loses against one of two values loses against the fresher of them. -/
theorem fresher_of_lt {a b : α} (less : rank a < rank b) (s : α) :
    fresher rank (fresher rank s a) b = fresher rank s b ∧
      fresher rank (fresher rank s b) a = fresher rank s b := by
  constructor
  · unfold fresher
    split
    · rfl
    · rename_i kept
      rw [if_neg (not_lt.mpr (le_of_lt less)), if_neg]
      exact not_lt.mpr ((le_of_not_gt kept).trans (le_of_lt less))
  · apply if_pos
    rw [rank_fresher rank]
    exact lt_of_lt_of_le less (le_max_right _ _)

end Ranks

variable {rank : α → ρ}

/-- The greatest rank decides, whatever came first. -/
theorem fresher_right_comm {a b : α} (apart : rank a ≠ rank b) (s : α) :
    fresher rank (fresher rank s a) b = fresher rank (fresher rank s b) a := by
  cases lt_or_gt_of_ne apart with
  | inl less =>
    obtain ⟨first, second⟩ := fresher_of_lt rank less s
    rw [first, second]
  | inr greater =>
    obtain ⟨first, second⟩ := fresher_of_lt rank greater s
    rw [first, second]

theorem arrive_right_comm {a b : α} (apart : rank a ≠ rank b) (s : Option α) :
    arrive rank (some (arrive rank s a)) b = arrive rank (some (arrive rank s b)) a := by
  cases s with
  | some s => exact fresher_right_comm apart s
  | none =>
    change fresher rank a b = fresher rank b a
    unfold fresher
    cases lt_or_gt_of_ne apart with
    | inl less => rw [if_neg (not_lt.mpr (le_of_lt less)), if_pos less]
    | inr greater => rw [if_pos greater, if_neg (not_lt.mpr (le_of_lt greater))]

/-- A change of the values that leaves the ranks alone may come before or after. -/
theorem fresher_map (rank : α → ρ) (rank' : β → ρ) (f : α → β) (same : ∀ a, rank' (f a) = rank a) (s a : α) :
    f (fresher rank s a) = fresher rank' (f s) (f a) := by
  simp only [fresher, same]
  split <;> rfl

theorem arrive_map (rank : α → ρ) (rank' : β → ρ) (f : α → β) (same : ∀ a, rank' (f a) = rank a)
    (s : Option α) (a : α) : f (arrive rank s a) = arrive rank' (s.map f) (f a) := by
  cases s with
  | none => rfl
  | some s => exact fresher_map rank rank' f same s a

end FreshRegister
