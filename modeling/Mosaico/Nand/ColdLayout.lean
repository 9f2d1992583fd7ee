import Mosaico.Nand.ColdStore
import Mosaico.Nand.StoreLayout

/-! A cold page says what it was made from. -/
namespace Mosaico.Nand.ColdStore

open ByteFields PageDevice StoreModel

def image (r : Record) : Page :=
  closeCrc (blit (put (blit (blit (put (put (put (put (put (zero pageSize) 0 magic 4) 4 1 2)
    6 payloadOffset 2) 8 r.sequence.toNat 8) 16 r.phase.toNat 1) 24 r.nonce 16) 40 r.binding 32)
    72 r.size.toNat 2) payloadOffset r.payload r.size.toNat) crcOffset

theorem encode_eq {r : Record} (h : shape r = true) : encode r = some (image r) := by
  rw [encode, if_pos h]
  rfl

theorem shape_iff {r : Record} (h : shape r = true) :
    r.size.toNat ≤ payloadMax ∧ zeros r.payload r.size.toNat payloadMax = true := by
  simp only [shape, Bool.and_eq_true, decide_eq_true_eq] at h
  exact ⟨h.1.2, h.2⟩

def header (r : Record) : Page :=
  put (blit (blit (put (put (put (put (put (zero pageSize) 0 magic 4) 4 1 2)
    6 payloadOffset 2) 8 r.sequence.toNat 8) 16 r.phase.toNat 1) 24 r.nonce 16) 40 r.binding 32)
    72 r.size.toNat 2

theorem byteAt_image {r : Record} {i : Nat} (h : i < payloadOffset) :
    byteAt (image r) i = byteAt (header r) i := by
  rw [image, byteAt_closeCrc _ _ _ (Nat.lt_trans h (by decide)),
    byteAt_blit_of_not_mem _ _ _ _ _ (.inl h)]
  rfl

theorem get_image {r : Record} {q k : Nat} (h : q + k ≤ payloadOffset) :
    get (image r) q k = get (header r) q k :=
  get_congr fun _ _ hi => byteAt_image (Nat.lt_of_lt_of_le hi h)

theorem slice_image {r : Record} {q l k : Nat} (h : q + l ≤ payloadOffset) :
    (slice (image r) q l k : Bytes k) = slice (header r) q l k :=
  slice_congr fun _ _ hi => byteAt_image (Nat.lt_of_lt_of_le hi h)

theorem slice_payload {r : Record} (h : shape r = true) :
    slice (image r) payloadOffset r.size.toNat payloadMax = r.payload := by
  obtain ⟨fits, tail⟩ := shape_iff h
  have room : payloadOffset + r.size.toNat ≤ crcOffset :=
    Nat.le_trans (Nat.add_le_add_left fits _) (by decide)
  rw [image, slice_closeCrc _ _ _ _ _ room]
  exact slice_blit _ _ _ _ (Nat.le_trans room (by decide)) ((zeros_iff _ _ _).mp tail)

theorem zeros_payload {r : Record} :
    zeros (image r) (payloadOffset + r.size.toNat) crcOffset = true := by
  rw [zeros_iff]
  intro i hi hlt
  have high : 80 + r.size.toNat ≤ i := hi
  rw [image, byteAt_closeCrc _ _ _ hlt, byteAt_blit_of_not_mem _ _ _ _ _ (.inr hi)]
  simp (disch := omega) only [byteAt_put_of_not_mem, byteAt_blit_of_not_mem, byteAt_zero]

theorem zeros_header {r : Record} {first last : Nat} (h : last ≤ payloadOffset)
    (gap : ∀ i, first ≤ i → i < last → 17 ≤ i ∧ i < 24 ∨ 74 ≤ i) :
    zeros (image r) first last = true := by
  rw [zeros_iff]
  intro i hi hlt
  have := gap i hi hlt
  rw [byteAt_image (Nat.lt_of_lt_of_le hlt h), header]
  simp (disch := omega) only [byteAt_put_of_not_mem, byteAt_blit_of_not_mem, byteAt_zero]

private theorem byteAt_phase (r : Record) : byteAt (image r) 16 = r.phase := by
  have inside : (16 : Nat) < pageSize := by decide
  rw [byteAt_image (by decide), header]
  simp (disch := decide) only [byteAt_put_of_not_mem, byteAt_blit_of_not_mem]
  rw [byteAt_put, if_pos inside, if_pos (by decide)]
  simp [digit]

/-- Every record of the right shape survives its codec. -/
theorem decode_image {r : Record} (h : shape r = true) : decode (image r) = some r := by
  have hmatch : crcMatches (image r) crcOffset = true := crcMatches_closeCrc _ _ (by decide)
  have hseq : r.sequence.toNat < 256 ^ 8 := r.sequence.toNat_lt
  have hsize : r.size.toNat < 256 ^ 2 := r.size.toNat_lt
  have size : get (image r) 72 2 = r.size.toNat := by
    rw [get_image (by decide), header, get_put _ _ _ _ (by decide) hsize]
  have sequence : get (image r) 8 8 = r.sequence.toNat := by
    rw [get_image (by decide), header]
    simp (disch := first | assumption | decide) only [get_put_other, get_blit_other, get_put]
  have nonce : (slice (image r) 24 16 16 : Bytes 16) = r.nonce := by
    rw [slice_image (by decide), header, slice_put_other _ _ _ _ _ _ (by decide),
      slice_blit_other _ _ _ _ _ _ (by decide), slice_blit _ _ _ _ (by decide) (by omega)]
  have binding : (slice (image r) 40 32 32 : Bytes 32) = r.binding := by
    rw [slice_image (by decide), header, slice_put_other _ _ _ _ _ _ (by decide),
      slice_blit _ _ _ _ (by decide) (by omega)]
  have fields : get (image r) 0 4 = magic ∧ get (image r) 4 2 = 1 ∧
      get (image r) 6 2 = payloadOffset := by
    refine ⟨?_, ?_, ?_⟩ <;> rw [get_image (by decide), header] <;>
      simp (disch := decide) only [get_put_other, get_blit_other, get_put]
  unfold decode
  simp only [size]
  rw [if_pos ⟨fields.1, fields.2.1, fields.2.2, (shape_iff h).1, hmatch,
    zeros_header (by decide) (by omega), zeros_header (by decide) (by omega), zeros_payload⟩]
  simp only [sequence, nonce, binding, byteAt_phase, slice_payload h, UInt64.ofNat_toNat,
    UInt16.ofNat_toNat, h, if_true]

theorem blank_image (r : Record) : blank (image r) = false := by
  apply not_blank_of_magic
  rw [get_image (by decide), header]
  simp (disch := decide) only [get_put_other, get_blit_other, get_put]
  decide

end Mosaico.Nand.ColdStore
