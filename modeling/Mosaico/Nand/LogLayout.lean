import Mosaico.Library.SequenceRing
import Mosaico.Nand.LogModel
import Mosaico.Nand.StoreLayout

/-! What the log's pages say when they are read back. -/
namespace Mosaico.Nand.LogModel

open ByteFields StoreModel SequenceRing

theorem address_eq (seq : Nat) : address seq = slot dataBase dataPages seq := rfl

/-- A complete page of the sequence. -/
structure Complete (seq : Nat) (p : Page) : Prop where
  valid : validPage p = true
  sequence : get p 8 8 = seq

theorem Complete.header {seq : Nat} {p : Page} (h : Complete seq p) : validHeader p = true := by
  have valid := h.valid
  simp only [validPage, Bool.and_eq_true] at valid
  exact valid.1.1

theorem validHeader_magic {p : Page} (h : validHeader p = true) : get p 0 4 = pageMagic := by
  simp only [validHeader, Bool.and_eq_true, beq_iff_eq] at h
  exact h.1.1.1.1.1.1.1.1

theorem Complete.written {seq : Nat} {p : Page} (h : Complete seq p) : blank p = false := by
  apply not_blank_of_magic
  rw [validHeader_magic h.header]
  decide

def header (p : Page) (seq : Nat) : Page :=
  put (put (put (put (put (put (clear p 0 headerSize) 0 pageMagic 4) 4 1 2) 6 headerSize 2)
    8 seq 8) 16 (get p 16 4) 4) 20 (get p 20 2) 2

def headed (p : Page) (seq : Nat) : Page := put (header p seq) 24 (crc (header p seq) 24) 4

def finalized (p : Page) (seq : Nat) : Page :=
  closeCrc (clear (headed p seq) (headerSize + get p 20 2 * recordSize) crcOffset) crcOffset

theorem finalize_eq {p p' : Page} {seq : Nat} (h : finalize p seq = some p') :
    p' = finalized p seq ∧ 0 < seq ∧ 0 < get p 20 2 ∧ get p 20 2 ≤ recordsPerPage := by
  unfold finalize at h
  dsimp only at h
  split at h
  · cases h
  · rename_i fits
    rw [not_or, not_or] at fits
    refine ⟨(Option.some.inj h).symm, Nat.pos_of_ne_zero fits.1, Nat.pos_of_ne_zero fits.2.1, ?_⟩
    omega

theorem byteAt_finalized {p : Page} {seq i : Nat} (h : i < headerSize) :
    byteAt (finalized p seq) i = byteAt (headed p seq) i := by
  have inside : i < 60 := h
  rw [finalized, byteAt_closeCrc _ _ _ (Nat.lt_trans h (by decide)),
    byteAt_clear_of_not_mem _ _ _ _ (.inl (Nat.lt_of_lt_of_le h (Nat.le_add_right _ _)))]

theorem get_finalized {p : Page} {seq q k : Nat} (h : q + k ≤ headerSize) :
    get (finalized p seq) q k = get (headed p seq) q k :=
  get_congr fun _ _ hi => byteAt_finalized (Nat.lt_of_lt_of_le hi h)

theorem get_headed {p : Page} {seq q k : Nat} (h : q + k ≤ 24) :
    get (headed p seq) q k = get (header p seq) q k :=
  get_put_other _ _ _ _ _ _ (.inl h)

private theorem crc_finalized (p : Page) (seq : Nat) :
    crc (finalized p seq) 24 = crc (header p seq) 24 := by
  rw [← crc_put (header p seq) 24 (crc (header p seq) 24) 4 24 le_rfl]
  exact crc_congr fun i hi => byteAt_finalized (Nat.lt_trans hi (by decide))

theorem zeros_header {p : Page} {seq first last : Nat} (h : last ≤ headerSize)
    (gap : ∀ i, first ≤ i → i < last → 22 ≤ i ∧ i < 24 ∨ 28 ≤ i) :
    zeros (finalized p seq) first last = true := by
  rw [zeros_iff]
  intro i hi hlt
  have := gap i hi hlt
  have inside : i < headerSize := Nat.lt_of_lt_of_le hlt h
  rw [byteAt_finalized inside, headed, header]
  simp (disch := omega) only [byteAt_put_of_not_mem]
  rw [byteAt_clear, if_pos ⟨Nat.zero_le _, inside⟩]

theorem complete_finalized {p : Page} {seq : Nat} (hpos : 0 < seq) (hseq : seq ≤ maxSeq)
    (hcount : 0 < get p 20 2) (hfits : get p 20 2 ≤ recordsPerPage) :
    Complete seq (finalized p seq) := by
  have hseq' : seq < 256 ^ 8 := Nat.lt_of_le_of_lt hseq (by decide)
  have hboot : get p 16 4 < 256 ^ 4 := get_lt p 16 4
  have hcount' : get p 20 2 < 256 ^ 2 := get_lt p 20 2
  have count : get (finalized p seq) 20 2 = get p 20 2 := by
    rw [get_finalized (by decide), get_headed (by decide), header,
      get_put _ _ _ _ (by decide) hcount']
  have sequence : get (finalized p seq) 8 8 = seq := by
    rw [get_finalized (by decide), get_headed (by decide), header]
    simp (disch := first | assumption | decide) only [get_put_other, get_put]
  have fields : get (finalized p seq) 0 4 = pageMagic ∧ get (finalized p seq) 4 2 = 1 ∧
      get (finalized p seq) 6 2 = headerSize := by
    refine ⟨?_, ?_, ?_⟩ <;> rw [get_finalized (by decide), get_headed (by decide), header] <;>
      simp (disch := first | assumption | decide) only [get_put_other, get_put]
  have headCrc : get (finalized p seq) 24 4 = crc (finalized p seq) 24 := by
    rw [get_finalized (by decide), crc_finalized, headed, get_put _ _ _ _ (by decide) (crc_lt _ _)]
  have tail : zeros (finalized p seq) (headerSize + get p 20 2 * recordSize) crcOffset = true := by
    rw [zeros_iff]
    intro i hi hlt
    rw [finalized, byteAt_closeCrc _ _ _ hlt, byteAt_clear, if_pos ⟨hi, hlt⟩]
  have whole : crcMatches (finalized p seq) crcOffset = true := crcMatches_closeCrc _ _ (by decide)
  have reserved : zeros (finalized p seq) 22 24 = true := zeros_header (by decide) (by omega)
  have rest : zeros (finalized p seq) 28 headerSize = true :=
    zeros_header le_rfl (by omega)
  have head : validHeader (finalized p seq) = true := by
    simp only [validHeader, fields, sequence, count, reserved, headCrc, rest, Bool.and_eq_true,
      beq_iff_eq, decide_eq_true_eq, and_true, true_and]
    exact ⟨⟨hpos, hcount⟩, hfits⟩
  refine ⟨?_, sequence⟩
  rw [validPage, head, count, tail, whole]
  rfl

private theorem get_index {latest q k : Nat} (h : q + k ≤ crcOffset) :
    get (index latest) q k = get (put (put (put (put (put (zero pageSize) 0 indexMagic 4) 4 1 2)
      6 24 2) 8 latest 8) 16 (oldest latest) 8) q k :=
  get_closeCrc _ _ _ _ h

theorem oldest_le {seq : Nat} (h : 0 < seq) : oldest seq ≤ seq := by
  change (if seq > 8191 then seq - 8191 + 1 else 1) ≤ seq
  split <;> omega

/-- An index page publishes its sequence. -/
theorem validIndex_index {latest : Nat} (hpos : 0 < latest) (hmax : latest ≤ maxSeq) :
    validIndex (index latest) = true ∧ get (index latest) 8 8 = latest := by
  have hlatest : latest < 256 ^ 8 := Nat.lt_of_le_of_lt hmax (by decide)
  have holdest : oldest latest < 256 ^ 8 := Nat.lt_of_le_of_lt (oldest_le hpos) hlatest
  have hne : (latest != 0) = true := by simpa using Nat.pos_iff_ne_zero.mp hpos
  have hmatch : crcMatches (index latest) crcOffset = true := crcMatches_closeCrc _ _ (by decide)
  have hzeros : zeros (index latest) 24 crcOffset = true := by
    rw [zeros_iff]
    intro i hi hlt
    rw [index, byteAt_closeCrc _ _ _ hlt]
    simp (disch := omega) only [byteAt_put_of_not_mem, byteAt_zero]
  have sequence : get (index latest) 8 8 = latest := by
    rw [get_index (by decide)]
    simp (disch := first | assumption | decide) only [get_put_other, get_put]
  have fields : get (index latest) 0 4 = indexMagic ∧ get (index latest) 4 2 = 1 ∧
      get (index latest) 6 2 = 24 ∧ get (index latest) 16 8 = oldest latest := by
    refine ⟨?_, ?_, ?_, ?_⟩ <;> rw [get_index (by decide)] <;>
      simp (disch := first | assumption | decide) only [get_put_other, get_put]
  refine ⟨?_, sequence⟩
  simp only [validIndex, fields, sequence, hne, hzeros, hmatch, beq_self_eq_true, Bool.and_self]

end Mosaico.Nand.LogModel
