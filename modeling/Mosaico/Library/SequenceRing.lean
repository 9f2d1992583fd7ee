import Mathlib.Data.Nat.ModEq
import Mathlib.Logic.Function.Basic

/-! A ring of slots that holds the newest entries of an ever growing sequence.
Sequence numbers start at one; an entry's slot is its number modulo the size. -/
namespace SequenceRing

def slot (base size seq : Nat) : Nat := base + (seq - 1) % size

variable {P : Type} {base size : Nat}

theorem slot_ge (seq : Nat) : base ≤ slot base size seq := Nat.le_add_right _ _

theorem slot_lt (hsize : 0 < size) (seq : Nat) : slot base size seq < base + size :=
  Nat.add_lt_add_left (Nat.mod_lt _ hsize) base

/-- One turn of the ring later the slot is the same. -/
theorem slot_add {s : Nat} (hs : 0 < s) : slot base size (s + size) = slot base size s := by
  have shift : s + size - 1 = s - 1 + size := by omega
  rw [slot, slot, shift, Nat.add_mod_right]

/-- Entries less than one turn apart have different slots. -/
theorem slot_ne {s t : Nat} (hs : 0 < s) (later : s < t) (near : t < s + size) :
    slot base size s ≠ slot base size t := by
  intro same
  have congruent : (t - 1) % size = (s - 1) % size := by
    unfold slot at same
    omega
  have multiple : size ∣ t - 1 - (s - 1) :=
    (Nat.modEq_iff_dvd' (by omega)).mp congruent.symm
  have := Nat.le_of_dvd (by omega) multiple
  omega

/-- The ring holds the last `size` entries up to `latest`; slots that were never
reached are blank. -/
structure Ring (base size : Nat) (blank : P → Prop) (m : Nat → P) (latest : Nat)
    (page : Nat → P) : Prop where
  kept : ∀ s, 0 < s → s ≤ latest → latest < s + size → m (slot base size s) = page s
  unused : ∀ s, latest < s → s ≤ size → blank (m (slot base size s))

variable {blank : P → Prop} {m m' : Nat → P} {latest : Nat} {page : Nat → P}

theorem Ring.congr (h : Ring base size blank m latest page) (hsize : 0 < size)
    (same : ∀ a, base ≤ a → a < base + size → m' a = m a) :
    Ring base size blank m' latest page where
  kept := by
    intro s hs hle near
    rw [same _ (slot_ge s) (slot_lt hsize s)]
    exact h.kept s hs hle near
  unused := by
    intro s hlt hle
    rw [same _ (slot_ge s) (slot_lt hsize s)]
    exact h.unused s hlt hle

/-- The slot of the next entry is blank or holds the oldest one. -/
theorem Ring.next (h : Ring base size blank m latest page) (hsize : 0 < size) :
    blank (m (slot base size (latest + 1))) ∨
      size ≤ latest ∧ m (slot base size (latest + 1)) = page (latest + 1 - size) := by
  by_cases hle : latest + 1 ≤ size
  · exact .inl (h.unused _ (Nat.lt_succ_self _) hle)
  · have shift : slot base size (latest + 1) = slot base size (latest + 1 - size) := by
      have turn := @slot_add base size (latest + 1 - size) (by omega)
      rwa [Nat.sub_add_cancel (by omega)] at turn
    rw [shift]
    exact .inr ⟨by omega, h.kept _ (by omega) (by omega) (by omega)⟩

/-- Writing the next entry into its slot keeps the ring. -/
theorem Ring.append (h : Ring base size blank m latest page) (p : P) :
    Ring base size blank (Function.update m (slot base size (latest + 1)) p) (latest + 1)
      (Function.update page (latest + 1) p) where
  kept := by
    intro s hs hle near
    by_cases new : s = latest + 1
    · rw [new, Function.update_self, Function.update_self]
    · have older : s < latest + 1 := by omega
      rw [Function.update_of_ne (slot_ne hs older near), Function.update_of_ne new]
      exact h.kept s hs (by omega) (by omega)
  unused := by
    intro s hlt hle
    rw [Function.update_of_ne (Ne.symm (slot_ne (Nat.succ_pos _) hlt (by omega)))]
    exact h.unused s (by omega) hle

/-- Every slot of the ring is blank or holds the page of a sequence it is the slot of. -/
theorem Ring.cases (h : Ring base size blank m latest page) (hsize : 0 < size) {a : Nat}
    (low : base ≤ a) (high : a < base + size) :
    blank (m a) ∨ ∃ s, 0 < s ∧ s ≤ latest ∧ m a = page s := by
  -- the newest sequence of this slot that is at most one turn past the latest
  let k := a - base
  by_cases reached : k < latest
  · let s := k + 1 + (latest - (k + 1)) / size * size
    have turns : (latest - (k + 1)) / size * size + (latest - (k + 1)) % size = latest - (k + 1) := by
      rw [Nat.mul_comm]
      exact Nat.div_add_mod _ _
    have bound : (latest - (k + 1)) % size < size := Nat.mod_lt _ hsize
    have place : slot base size s = a := by
      have inner : s - 1 = k + (latest - (k + 1)) / size * size := by omega
      rw [slot, inner, Nat.add_mul_mod_self_right, Nat.mod_eq_of_lt (by omega)]
      omega
    have held := h.kept s (by omega) (by omega) (by omega)
    rw [place] at held
    exact .inr ⟨s, by omega, by omega, held⟩
  · have place : slot base size (k + 1) = a := by
      rw [slot, Nat.add_sub_cancel, Nat.mod_eq_of_lt (by omega)]
      omega
    have held := h.unused (k + 1) (by omega) (by omega)
    rw [place] at held
    exact .inl held

end SequenceRing
