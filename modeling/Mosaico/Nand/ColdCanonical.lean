import Mosaico.Nand.ColdLayout
import Mosaico.Library.RecordLayout

/-! Only the page a record makes is read as that record. -/
namespace Mosaico.Nand.ColdStore

open ByteFields PageDevice StoreModel RecordLayout

variable {r : Record} {p : Page}

def pageFields (r : Record) : Layout :=
  [(4, magic), (2, 1), (2, payloadOffset), (8, r.sequence.toNat), (1, r.phase.toNat), (7, 0),
    (16, get r.nonce 0 16), (32, get r.binding 0 32), (2, r.size.toNat), (6, 0),
    (r.size.toNat, get r.payload 0 r.size.toNat), (crcOffset - payloadOffset - r.size.toNat, 0)]

theorem image_eq (r : Record) : image r = closeCrc (record pageSize (pageFields r)) crcOffset := by
  unfold image
  rw [blit_eq_put, blit_eq_put, blit_eq_put, record_nil, put_next magic 4, put_next 1 2,
    put_next payloadOffset 2, put_next _ 8, put_next _ 1, put_gap _ 16 7, put_next _ 32, put_next _ 2,
    put_gap _ _ 6, record_gap _ (crcOffset - payloadOffset - r.size.toNat)] <;> rfl

theorem pageFields_fits (r : Record) : Fits (pageFields r) := by
  have sequence : r.sequence.toNat < 256 ^ 8 := r.sequence.toNat_lt
  have phase : r.phase.toNat < 256 ^ 1 := r.phase.toNat_lt
  have size : r.size.toNat < 256 ^ 2 := r.size.toNat_lt
  simp only [pageFields, fits_cons, fits_nil, and_true]
  exact ⟨by decide, by decide, by decide, sequence, phase, by decide, get_lt _ _ _, get_lt _ _ _, size,
    by decide, get_lt _ _ _, Nat.pow_pos (by decide)⟩

theorem width_pageFields (fits : r.size.toNat ≤ payloadMax) : width (pageFields r) = crcOffset := by
  have room : r.size.toNat ≤ 1536 := fits
  simp only [pageFields, width_cons, width_nil]
  show 4 + (2 + (2 + (8 + (1 + (7 + (16 + (32 + (2 + (6 + (r.size.toNat +
    (2044 - 80 - r.size.toNat + 0))))))))))) = 2044
  omega

def recordOf (p : Page) : Record where
  sequence := .ofNat (get p 8 8)
  phase := byteAt p 16
  nonce := slice p 24 16 16
  binding := slice p 40 32 32
  size := .ofNat (get p 72 2)
  payload := slice p payloadOffset (get p 72 2) payloadMax

private theorem decode_some (h : decode p = some r) : r = recordOf p ∧ shape r = true ∧
    (get p 0 4 = magic ∧ get p 4 2 = 1 ∧ get p 6 2 = payloadOffset) ∧ get p 72 2 ≤ payloadMax ∧
      crcMatches p crcOffset = true ∧ zeros p 17 24 = true ∧ zeros p 74 payloadOffset = true ∧
        zeros p (payloadOffset + get p 72 2) crcOffset = true := by
  simp only [decode] at h
  split at h
  · rename_i checks
    split at h
    · rename_i shaped
      obtain rfl := Option.some.inj h
      obtain ⟨tag, version, offset, size, checksum, phase, header, tail⟩ := checks
      exact ⟨rfl, shaped, ⟨tag, version, offset⟩, size, checksum, phase, header, tail⟩
    · cases h
  · cases h

theorem encode_decode (h : decode p = some r) : encode r = some p := by
  obtain ⟨rfl, shaped, ⟨tag, version, offset⟩, size, checksum, phase, header, tail⟩ := decode_some h
  have sequence : (recordOf p).sequence.toNat = get p 8 8 := UInt64.toNat_ofNat_of_lt' (get_lt p 8 8)
  have length : (recordOf p).size.toNat = get p 72 2 := UInt16.toNat_ofNat_of_lt' (get_lt p 72 2)
  have room : get p 72 2 ≤ 1536 := size
  rw [encode_eq shaped, image_eq]
  refine congrArg some (closeCrc_eq (pageFields_fits _) (width_pageFields (by rw [length]; exact size)) ?_ checksum)
  simp only [pageFields, widths, List.map_cons, List.map_nil, getAll, Nat.zero_add, Nat.reduceAdd, length,
    sequence]
  have nonce : get (recordOf p).nonce 0 16 = get p 24 16 := get_slice p 24 16 (Nat.le_refl 16)
  have binding : get (recordOf p).binding 0 32 = get p 40 32 := get_slice p 40 32 (Nat.le_refl 32)
  have payload : get (recordOf p).payload 0 (get p 72 2) = get p 80 (get p 72 2) :=
    get_slice p 80 (get p 72 2) room
  have phaseByte : get p 16 1 = (recordOf p).phase.toNat := get_one p 16
  have last : get p (80 + get p 72 2) (crcOffset - payloadOffset - get p 72 2) = 0 :=
    get_of_zeros tail _ (by show 80 + get p 72 2 + (2044 - 80 - get p 72 2) ≤ 2044; omega)
  rw [tag, version, offset, phaseByte, get_of_zeros phase 7 (by decide), get_of_zeros header 6 (by decide), nonce,
    binding, payload, last]

theorem decode_encode (h : encode r = some p) : decode p = some r := by
  have shaped : shape r = true := by
    by_contra other
    rw [encode, if_neg other] at h
    cases h
  rw [encode_eq shaped] at h
  rw [← Option.some.inj h]
  exact decode_image shaped

end Mosaico.Nand.ColdStore
