import Mosaico.Gauge.ThresholdAuditModel
import Mosaico.Library.RecordLayout

/-! A journal of the threshold audit and its bytes determine each other. -/
namespace Mosaico.Gauge.ThresholdAudit

open ByteFields RecordLayout

variable {j : Journal} {r : Record} {n : Nat}

def layout (j : Journal) : Layout :=
  [(4, magic), (1, j.schema.toNat), (1, j.state.code.toNat), (2, j.flags.toNat), (4, j.generation.toNat),
    (6, get j.mac 0 6), (2, 0x0220), (1, 1), (1, j.readCount.toNat), (2, 0), (4, j.snapshotCrc.toNat), (16, 0)]

theorem fill_eq (j : Journal) : fill j (zero 48) = record 48 (layout j) := by
  unfold fill
  dsimp only
  rw [blit_eq_put, record_nil, put_next magic 4 (by simp), put_next _ 1 (by simp), put_next _ 1 (by simp),
    put_next _ 2 (by simp), put_next _ 4 (by simp), put_next _ 6 (by simp), put_next _ 2 (by simp),
    put_next _ 1 (by simp), put_next _ 1 (by simp), put_gap _ 4 2 (by simp), record_gap _ 16]
  rfl

theorem layout_fits (j : Journal) : Fits (layout j) := by
  simp only [layout, fits_cons, fits_nil, and_true]
  exact ⟨by decide, j.schema.toNat_lt, j.state.code.toNat_lt, j.flags.toNat_lt, j.generation.toNat_lt, get_lt _ _ _,
    by decide, by decide, j.readCount.toNat_lt, by decide, j.snapshotCrc.toNat_lt, zero_fits 16⟩

theorem width_layout (j : Journal) : width (layout j) = 44 := by simp [layout]

theorem ofCode_code (state : State) : State.ofCode state.code = some state := by
  cases state <;> rfl

theorem code_ofCode {v : UInt8} {state : State} (h : State.ofCode v = some state) : state.code = v := by
  unfold State.ofCode at h
  split at h
  · rename_i same
    cases h
    exact same.symm
  · split at h
    · rename_i same
      cases h
      exact same.symm
    · split at h
      · rename_i same
        cases h
        exact same.symm
      · cases h

/-- The fields of a record, as `decode` reads them. -/
structure Fields (r : Record) (j : Journal) : Prop where
  magic : get r 0 4 = magic
  schema : byteAt r 4 = j.schema
  state : byteAt r 5 = j.state.code
  flags : get r 6 2 = j.flags.toNat
  generation : get r 8 4 = j.generation.toNat
  mac : get r 12 6 = get j.mac 0 6
  device : get r 18 2 = 0x0220
  version : byteAt r 20 = 1
  readCount : byteAt r 21 = j.readCount
  gap : get r 22 2 = 0
  snapshotCrc : get r 24 4 = j.snapshotCrc.toNat
  rest : get r 28 16 = 0

theorem fields_iff : getAll r 0 (widths (layout j)) = (layout j).map Prod.snd ↔ Fields r j := by
  have one : (1 : Nat) = (1 : UInt8).toNat := rfl
  simp only [layout, widths, List.map_cons, List.map_nil, getAll, Nat.zero_add, Nat.reduceAdd,
    List.cons.injEq, and_true, get_one]
  rw [one]
  simp only [UInt8.toNat_inj]
  constructor
  · rintro ⟨magic, schema, state, flags, generation, mac, device, version, readCount, gap, snapshotCrc, rest⟩
    exact ⟨magic, schema, state, flags, generation, mac, device, version, readCount, gap, snapshotCrc, rest⟩
  · rintro ⟨magic, schema, state, flags, generation, mac, device, version, readCount, gap, snapshotCrc, rest⟩
    exact ⟨magic, schema, state, flags, generation, mac, device, version, readCount, gap, snapshotCrc, rest⟩

theorem decode_of_fields (fields : Fields r j) (checksum : crcMatches r 44 = true) (shaped : shape j = true) :
    decode r j.mac = some j := by
  have mac : slice r 12 6 6 = j.mac := slice_of_get fields.mac fun i h hi => absurd hi (by omega)
  have schema : j.schema = 1 ∨ j.schema = 2 := by
    simp only [shape, Bool.and_eq_true, Bool.or_eq_true, beq_iff_eq] at shaped
    exact shaped.1.1.1.1
  unfold decode
  rw [if_neg, fields.state, ofCode_code]
  · dsimp only
    rw [fields.schema, fields.flags, fields.generation, fields.readCount, fields.snapshotCrc, mac, UInt16.ofNat_toNat,
      UInt32.ofNat_toNat, UInt32.ofNat_toNat, if_neg]
    simp [shaped]
  · rw [fields.magic, fields.schema, fields.device, fields.version, checksum, zeros_of_get 2 fields.gap (by omega),
      zeros_of_get 16 fields.rest (by omega)]
    rcases schema with one | two
    · simp [one]
    · simp [two]

theorem fields_of_decode {mac : Bytes 6} (h : decode r mac = some j) :
    Fields r j ∧ crcMatches r 44 = true ∧ shape j = true ∧ j.mac = mac := by
  unfold decode at h
  split at h
  · cases h
  · rename_i head
    simp only [not_or, Bool.not_eq_false, not_and_or, not_not] at head
    obtain ⟨magic, -, device, version, gap, checksum, rest⟩ := head
    split at h
    · cases h
    · rename_i state known
      dsimp only at h
      split at h
      · cases h
      · rename_i whole
        simp only [not_or, not_not, Bool.not_eq_false] at whole
        cases h
        refine ⟨⟨magic, rfl, (code_ofCode known).symm, ?_, ?_, ?_, device, version, rfl,
          get_of_zeros gap 2 (by omega), ?_, get_of_zeros rest 16 (by omega)⟩, checksum, whole.2, whole.1.symm⟩
        · exact (UInt16.toNat_ofNat_of_lt (get_lt r 6 2)).symm
        · exact (UInt32.toNat_ofNat_of_lt (get_lt r 8 4)).symm
        · exact (get_slice r 12 6 (by omega)).symm
        · exact (UInt32.toNat_ofNat_of_lt (get_lt r 24 4)).symm

/-- `decode` takes exactly the image of `encode`, and gives back what was encoded. -/
theorem decode_eq_some_iff {mac : Bytes 6} : decode r mac = some j ↔ encode j = some r ∧ j.mac = mac := by
  constructor
  · intro h
    obtain ⟨fields, checksum, shaped, same⟩ := fields_of_decode h
    rw [encode, if_neg (by simp [shaped]), fill_eq,
      closeCrc_eq (layout_fits j) (width_layout j) (fields_iff.mpr fields) checksum]
    exact ⟨rfl, same⟩
  · rintro ⟨h, rfl⟩
    unfold encode at h
    split at h
    · cases h
    · rename_i shaped
      rw [← Option.some.inj h, fill_eq]
      refine decode_of_fields (fields_iff.mp ?_) (crcMatches_closeCrc _ _ (by omega)) (by simpa using shaped)
      exact getAll_closeCrc (layout_fits j) (Nat.le_of_eq (width_layout j)) (by omega)

end Mosaico.Gauge.ThresholdAudit
