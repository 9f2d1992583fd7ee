import Mosaico.Nand.StoreModel

/-! What the store's pages say when they are read back: the marker, a commit
page and the two halves of a payload. -/
namespace Mosaico.Nand.StoreModel

open ByteFields PageDevice

def erased : Page := ofFn pageSize fun _ => 255

theorem blank_iff (p : Page) : blank p = true ↔ ∀ i, i < pageSize → byteAt p i = 255 := by
  simp only [blank, Vector.all_eq_true, beq_iff_eq]
  constructor
  · intro h i hi
    simpa only [byteAt, hi, ↓reduceDIte] using h i hi
  · intro h i hi
    simpa only [byteAt, hi, ↓reduceDIte] using h i hi

theorem blank_erased : blank erased = true := by
  rw [blank_iff]
  intro i hi
  simp [erased, hi]

/-- A page whose leading field is set is not blank. -/
theorem not_blank_of_magic {p : Page} (h : get p 0 4 % 256 ≠ 255) : blank p = false := by
  rw [Bool.eq_false_iff]
  intro hb
  have first : byteAt p 0 = digit (get p 0 4) 0 := by rw [digit_get p 0 4 0 (by decide)]
  have value : get p 0 4 % 256 = 255 := by
    have := congrArg UInt8.toNat (first.symm.trans ((blank_iff p).mp hb 0 (by decide)))
    simpa [digit_toNat] using this
  exact h value

/-- Every field of a blank page reads as all ones. -/
theorem get_blank {p : Page} (h : blank p = true) (q : Nat) (hq : q + 4 ≤ pageSize) :
    get p q 4 = 0xffffffff := by
  have bytes : ∀ i, i < 4 → byteAt p (q + i) = 255 := fun i hi =>
    (blank_iff p).mp h (q + i) (by omega)
  simp (disch := decide) only [ByteFields.get, bytes]
  decide

private theorem zeros_marker : zeros marker 16 crcOffset = true := by
  rw [zeros_iff]
  intro i hi hlt
  rw [marker, byteAt_closeCrc _ _ _ hlt]
  simp (disch := omega) only [byteAt_put_of_not_mem, byteAt_zero]

theorem validMarker_marker : validMarker marker = true := by
  have fields : ∀ q k, q + k ≤ crcOffset → get marker q k =
      get (put (put (put (put (put (put (zero pageSize) 0 markerMagic 4) 4 1 2) 6 pageSize 2)
        8 payloadSize 2) 10 slotCount 2) 12 requiredPages 4) q k :=
    fun q k h => get_closeCrc _ _ _ _ h
  have hcrc : crcMatches marker crcOffset = true := crcMatches_closeCrc _ _ (by decide)
  simp (disch := decide) [validMarker, fields, get_put_other, get_put, hcrc, zeros_marker]

private theorem zeros_commit (slot : Fin 2) (generation payloadCrc : Nat) :
    zeros (commit slot generation payloadCrc) 24 crcOffset = true := by
  rw [zeros_iff]
  intro i hi hlt
  rw [commit, byteAt_closeCrc _ _ _ hlt]
  simp (disch := omega) only [byteAt_put_of_not_mem, byteAt_zero]

/-- A commit page says what it was made from. -/
theorem parseCommit_commit (slot : Fin 2) {generation payloadCrc : Nat} (hpos : 0 < generation)
    (hgen : generation ≤ maxGeneration) (hcrc : payloadCrc < 256 ^ 4) :
    parseCommit (commit slot generation payloadCrc) slot = ⟨true, generation, payloadCrc⟩ := by
  have hgen' : generation < 256 ^ 8 := Nat.lt_of_le_of_lt hgen (by decide)
  have hslot : slot.val < 256 ^ 4 := Nat.lt_trans slot.isLt (by decide)
  have hmatch : crcMatches (commit slot generation payloadCrc) crcOffset = true :=
    crcMatches_closeCrc _ _ (by decide)
  have hne : (generation != 0) = true := by simpa using Nat.pos_iff_ne_zero.mp hpos
  have fields : ∀ q k, q + k ≤ crcOffset → get (commit slot generation payloadCrc) q k =
      get (put (put (put (put (put (put (zero pageSize) 0 commitMagic 4) 4 1 2) 6 payloadSize 2)
        8 generation 8) 16 payloadCrc 4) 20 slot.val 4) q k := fun q k h => get_closeCrc _ _ _ _ h
  simp (disch := first | assumption | decide) [parseCommit, fields, get_put_other, get_put, hmatch,
    zeros_commit, hne]

theorem parseCommit_blank {p : Page} (h : blank p = true) (slot : Fin 2) : parseCommit p slot = {} := by
  have magic := get_blank h 0 (by decide)
  simp [parseCommit, magic, commitMagic]

/-- Both halves of a payload; nothing when a byte past its end is set. -/
def assemble (first second : Page) : Option Payload :=
  (takeHalf (zero payloadSize) 0 first).bind fun payload => takeHalf payload 1 second

private theorem takeHalf_payloadPage (input payload : Payload) (half : Nat) :
    takeHalf payload half (payloadPage input half) =
      some (ofFn payloadSize fun i => if i / pageSize = half then byteAt input i else byteAt payload i) := by
  have tail : zeros (payloadPage input half) (payloadSize - half * pageSize) pageSize = true := by
    rw [zeros_iff]
    intro i hi hlt
    rw [payloadPage, byteAt_ofFn, if_pos hlt, byteAt_of_le input (by omega)]
  rw [takeHalf, if_pos tail]
  apply congrArg some
  apply congrArg (ofFn payloadSize)
  funext i
  by_cases hi : i / pageSize = half
  · rw [if_pos hi, if_pos hi, payloadPage, byteAt_ofFn, if_pos (Nat.mod_lt _ (by decide)), ← hi,
      Nat.mul_comm, Nat.div_add_mod]
  · rw [if_neg hi, if_neg hi]

theorem assemble_payloadPage (input : Payload) :
    assemble (payloadPage input 0) (payloadPage input 1) = some input := by
  rw [assemble, takeHalf_payloadPage, Option.bind_some, takeHalf_payloadPage]
  apply congrArg some
  apply ext_byteAt
  intro i hi
  rw [byteAt_ofFn, if_pos hi]
  by_cases second : i / pageSize = 1
  · rw [if_pos second]
  · have first : i / pageSize = 0 := by
      simp only [payloadSize, pageSize] at hi second ⊢
      omega
    rw [if_neg second, byteAt_ofFn, if_pos hi, if_pos first]

end Mosaico.Nand.StoreModel
