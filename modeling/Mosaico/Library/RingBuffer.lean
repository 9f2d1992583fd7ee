import Mathlib.Data.Nat.Basic
import Mathlib.Data.List.Basic
import Mathlib.Algebra.GroupWithZero.Nat

/-! A bounded queue in an array: a head, a count, and the items in between,
wrapped around the end of the array. -/
namespace RingBuffer

structure Ring (α : Type) (n : Nat) where
  data : Vector α n
  head : Nat
  count : Nat

variable {α : Type} {n : Nat} [NeZero n]

/-- The item `i` places behind the head. -/
def Ring.item (q : Ring α n) (i : Nat) : α :=
  q.data.get ⟨(q.head + i) % n, Nat.mod_lt _ (Nat.pos_of_neZero n)⟩

def Ring.items (q : Ring α n) : List α := (List.range q.count).map q.item

@[simp] theorem items_length (q : Ring α n) : q.items.length = q.count := by
  simp [Ring.items]

def Ring.push (q : Ring α n) (a : α) : Ring α n :=
  { q with
    data := q.data.set ((q.head + q.count) % n) a (Nat.mod_lt _ (Nat.pos_of_neZero n))
    count := q.count + 1 }

def Ring.peek (q : Ring α n) (maximum : Nat) : List α :=
  (List.range (min q.count maximum)).map q.item

def Ring.drop (q : Ring α n) (k : Nat) : Ring α n :=
  { q with head := (q.head + k) % n, count := q.count - k }

theorem slot_ne {n head i count : Nat} (hi : i < count) (room : count < n) :
    (head + count) % n ≠ (head + i) % n := by
  intro same
  have apart := Nat.sub_mod_eq_zero_of_mod_eq same
  rw [show head + count - (head + i) = count - i by omega, Nat.mod_eq_of_lt (by omega)] at apart
  omega

/-- A free place is no place of an item. -/
theorem item_push (q : Ring α n) (a : α) {i : Nat} (room : q.count < n) (hi : i < q.count) :
    (q.push a).item i = q.item i :=
  Vector.getElem_set_ne (Nat.mod_lt _ (Nat.pos_of_neZero n)) _ (slot_ne hi room)

theorem item_push_last (q : Ring α n) (a : α) : (q.push a).item q.count = a :=
  Vector.getElem_set_self _

theorem items_push (q : Ring α n) (a : α) (room : q.count < n) :
    (q.push a).items = q.items ++ [a] := by
  rw [Ring.items, show (q.push a).count = q.count + 1 from rfl, List.range_succ, List.map_append,
    List.map_singleton, item_push_last]
  congr 1
  apply List.map_congr_left
  intro i hi
  exact item_push q a room (List.mem_range.mp hi)

theorem peek_eq (q : Ring α n) (maximum : Nat) : q.peek maximum = q.items.take maximum := by
  rw [Ring.peek, Ring.items, ← List.map_take, List.take_range, Nat.min_comm]

theorem item_drop (q : Ring α n) (k i : Nat) : (q.drop k).item i = q.item (k + i) := by
  have same : ((q.head + k) % n + i) % n = (q.head + (k + i)) % n := by
    rw [Nat.mod_add_mod, Nat.add_assoc]
  exact congrArg q.data.get (Fin.ext same)

theorem items_drop (q : Ring α n) (k : Nat) : (q.drop k).items = q.items.drop k := by
  apply List.ext_getElem
  · simp [Ring.drop]
  · intro i h₁ h₂
    simp [Ring.items, item_drop]

end RingBuffer
