import Mathlib.Data.BitVec

/-! Clocks and sequence numbers that wrap: what a truncated difference says
about the difference that was meant. -/
namespace WrapClock

variable {w : Nat}

private theorem period_pos (w : Nat) : (0 : Int) < 2 ^ w := Int.pow_pos (by decide)

def stamp (w : Nat) (t : Int) : BitVec w := BitVec.ofInt w t

theorem stamp_sub (now since : Int) : stamp w now - stamp w since = stamp w (now - since) := by
  unfold stamp
  apply BitVec.eq_of_toInt_eq
  rw [BitVec.toInt_sub, BitVec.toInt_ofInt, BitVec.toInt_ofInt, BitVec.toInt_ofInt,
    Int.sub_bmod_bmod, Int.bmod_sub_bmod]

theorem toNat_stamp (t : Int) : ((stamp w t).toNat : Int) = t % 2 ^ w := by
  rw [stamp, BitVec.toNat_ofInt, Int.toNat_of_nonneg]
  · rw [Int.natCast_pow]
    rfl
  · exact Int.emod_nonneg _ (Int.natCast_ne_zero.mpr (Nat.two_pow_pos w).ne')

/-- The truncated age is the true age modulo the period. -/
theorem toNat_age (now since : Int) :
    ((stamp w now - stamp w since).toNat : Int) = (now - since) % 2 ^ w := by
  rw [stamp_sub, toNat_stamp]

/-- Past the limit, the truncated age is within it only after a full period. -/
theorem period_le_of_recent {age limit : Int} (expired : limit < age)
    (recent : age % 2 ^ w ≤ limit) : 2 ^ w ≤ age := by
  by_contra early
  have start : 0 ≤ age % 2 ^ w := Int.emod_nonneg _ (period_pos w).ne'
  have whole : age % 2 ^ w = age := Int.emod_eq_of_lt (by omega) (by omega)
  omega

/-- `a` is newer than `b` when it lies less than half a period ahead of it. -/
def newer (a b : BitVec w) : Bool := decide (0 < (a - b).toInt)

theorem newer_iff {a b : BitVec w} :
    newer a b = true ↔ ∃ k, 0 < k ∧ 2 * k < 2 ^ w ∧ a = b + BitVec.ofNat w k := by
  have signed : newer a b = true ↔ 0 < (a - b).toNat ∧ 2 * (a - b).toNat < 2 ^ w := by
    rw [newer, decide_eq_true_eq, BitVec.toInt_eq_toNat_cond]
    have bound := (a - b).isLt
    split <;> omega
  rw [signed]
  constructor
  · rintro ⟨hpos, half⟩
    refine ⟨_, hpos, half, ?_⟩
    rw [BitVec.ofNat_toNat, BitVec.setWidth_eq, BitVec.add_comm, BitVec.sub_add_cancel]
  · rintro ⟨k, hpos, half, rfl⟩
    have small : k < 2 ^ w := by omega
    have ahead : b + BitVec.ofNat w k - b = BitVec.ofNat w k := by
      rw [BitVec.add_comm, BitVec.add_sub_cancel]
    rw [ahead, BitVec.toNat_ofNat, Nat.mod_eq_of_lt small]
    exact ⟨hpos, half⟩

end WrapClock
