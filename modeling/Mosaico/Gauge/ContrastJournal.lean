import Mosaico.Gauge.ContrastJournalModel
import Mosaico.Gauge.ScaleJournal

/-! A record of the contrast journal and its blob determine each other. -/
namespace Mosaico.Gauge.ContrastJournal

open ByteFields RecordLayout Recovery

variable {r : Record} {b : Blob}

def layout (r : Record) : RecordLayout.Layout :=
  [(4, magic), (2, 1), (2, blobSize), (6, get r.mac 0 6), (2, r.identity.device.toNat),
    (2, r.identity.firmware.toNat), (1, r.identity.build.toNat), (1, r.phase.byte.toNat), (1, r.arm.byte.toNat),
    (1, Layout.public131V1.byte.toNat), (2, 0),
    (4, r.generation.toNat), (8, r.epoch.toNat), (2, fieldCount), (2, rawSize), (4, canonicalSourceCrc),
    (4, ScaleJournal.layoutFingerprint), (16, 0), (222, get r.source 0 222), (30, 0)]

theorem fill_eq (r : Record) : fill r = record 320 (layout r) := by
  unfold fill
  dsimp only
  rw [blit_eq_put, blit_eq_put, record_nil, put_next magic 4 (by simp), put_next _ 2 (by simp),
    put_next _ 2 (by simp), put_next _ 6 (by simp), put_next _ 2 (by simp), put_next _ 2 (by simp),
    put_next _ 1 (by simp),
    put_next _ 1 (by simp), put_next _ 1 (by simp), put_next _ 1 (by simp), put_gap _ 4 2 (by simp),
    put_next _ 8 (by simp), put_next _ 2 (by simp), put_next _ 2 (by simp), put_next _ 4 (by simp),
    put_next _ 4 (by simp), put_gap _ 222 16 (by simp), record_gap _ 30]
  simp only [layout, List.cons_append, List.nil_append]

theorem layout_fits (r : Record) : Fits (layout r) := by
  simp only [layout, fits_cons, fits_nil, and_true]
  exact ⟨by decide, by decide, by decide, get_lt _ _ _, UInt16.toNat_lt _, UInt16.toNat_lt _, UInt8.toNat_lt _,
    UInt8.toNat_lt _, UInt8.toNat_lt _, by decide, by decide, UInt32.toNat_lt _, UInt64.toNat_lt _,
      by decide, by decide,
    by decide, ScaleJournal.crc32_lt _, zero_fits 16, get_lt _ _ _, zero_fits 30⟩

theorem width_layout (r : Record) : width (layout r) = 316 := by simp [layout]

/-- The fields of a blob, as `decode` reads them. -/
structure Fields (b : Blob) (r : Record) : Prop where
  magic : get b 0 4 = magic
  version : get b 4 2 = 1
  size : get b 6 2 = blobSize
  mac : get b 8 6 = get r.mac 0 6
  device : get b 14 2 = r.identity.device.toNat
  firmware : get b 16 2 = r.identity.firmware.toNat
  build : byteAt b 18 = r.identity.build
  phase : byteAt b 19 = r.phase.byte
  arm : byteAt b 20 = r.arm.byte
  layoutId : byteAt b 21 = Layout.public131V1.byte
  gap : get b 22 2 = 0
  generation : get b 24 4 = r.generation.toNat
  epoch : get b 28 8 = r.epoch.toNat
  count : get b 36 2 = fieldCount
  raw : get b 38 2 = rawSize
  crc : get b 40 4 = canonicalSourceCrc
  fingerprint : get b 44 4 = ScaleJournal.layoutFingerprint
  gap' : get b 48 16 = 0
  source : get b 64 222 = get r.source 0 222
  rest : get b 286 30 = 0

theorem layout_iff : getAll b 0 (widths (layout r)) = (layout r).map Prod.snd ↔ Fields b r := by
  simp only [layout, widths, List.map_cons, List.map_nil, getAll, Nat.zero_add, Nat.reduceAdd,
    List.cons.injEq, and_true, get_one]
  constructor
  · rintro ⟨magic, version, size, mac, device, firmware, build, phase, arm, layoutId, gap, generation,
      epoch, count, raw, crc, fingerprint, gap', source, rest⟩
    exact ⟨magic, version, size, mac, device, firmware, UInt8.toNat_inj.mp build, UInt8.toNat_inj.mp phase,
      UInt8.toNat_inj.mp arm, UInt8.toNat_inj.mp layoutId, gap, generation, epoch, count, raw, crc, fingerprint, gap',
      source, rest⟩
  · intro h
    exact ⟨h.magic, h.version, h.size, h.mac, h.device, h.firmware, congrArg _ h.build, congrArg _ h.phase,
      congrArg _ h.arm, congrArg _ h.layoutId, h.gap, h.generation, h.epoch, h.count, h.raw, h.crc,
        h.fingerprint, h.gap',
      h.source, h.rest⟩

theorem ofByte_byte (a : Arm) : Arm.ofByte a.byte = some a := by
  cases a <;> rfl

theorem byte_ofByte {v : UInt8} {a : Arm} (h : Arm.ofByte v = some a) : v = a.byte := by
  unfold Arm.ofByte at h
  split_ifs at h with one two <;> cases h
  · exact one
  · exact two

theorem decode_of_fields (h : Fields b r) (checksum : crcMatches b 316 = true) (shaped : shape r = true) :
    decode b r.mac = some r := by
  have mac : slice b 8 6 6 = r.mac := slice_of_get h.mac fun i low high => absurd high (by omega)
  have source : slice b 64 rawSize rawSize = r.source :=
    slice_of_get h.source fun i low high => absurd high (by omega)
  have gaps : byteAt b 22 = 0 ∧ byteAt b 23 = 0 := by
    have zero := (get_eq_zero_iff b 22 2).mp h.gap
    exact ⟨zero 22 (by omega) (by omega), zero 23 (by omega) (by omega)⟩
  have front : zeros b 48 64 = true := zeros_of_get 16 h.gap' (by decide)
  have rest : zeros b 286 316 = true := zeros_of_get 30 h.rest (by decide)
  unfold decode
  rw [if_neg (by simp [h.magic, h.version, h.size, checksum]), if_neg (by simp [mac]),
    if_neg (by simp [h.layoutId, gaps.1, gaps.2, h.count, h.raw, h.crc, h.fingerprint]),
      if_neg (by simp [front, rest]),
    h.phase, h.arm, ScaleJournal.ofByte_byte, ofByte_byte]
  have whole :
      (⟨r.mac, ⟨UInt16.ofNat (get b 14 2), UInt16.ofNat (get b 16 2), byteAt b 18⟩,
      UInt32.ofNat (get b 24 4), UInt64.ofNat (get b 28 8), r.phase, r.arm,
      slice b 64 rawSize rawSize⟩ : Record) = r := by
    rw [h.device, h.firmware, h.build, h.generation, h.epoch, source, UInt16.ofNat_toNat, UInt16.ofNat_toNat,
      UInt32.ofNat_toNat, UInt64.ofNat_toNat]
  simp only [Option.bind_eq_bind, Option.bind_some, whole]
  exact if_pos shaped

theorem fields_of_decode {mac : Bytes 6} (h : decode b mac = some r) :
    Fields b r ∧ crcMatches b 316 = true ∧ shape r = true ∧ r.mac = mac := by
  unfold decode at h
  split_ifs at h with head same middle zero
  simp only [not_or, not_not, Bool.not_eq_false] at head same middle zero
  obtain ⟨magic, version, size, checksum⟩ := head
  obtain ⟨layoutId, first, second, count, raw, crc, fingerprint⟩ := middle
  obtain ⟨phase, known, h⟩ := Option.bind_eq_some_iff.mp h
  obtain ⟨arm, known', h⟩ := Option.bind_eq_some_iff.mp h
  dsimp only at h
  split_ifs at h with shaped
  cases h
  have mac' : get b 8 6 = get mac 0 6 := by
    rw [← same]
    exact (get_slice b 8 6 (Nat.le_refl 6)).symm
  have gap : get b 22 2 = 0 := by
    rw [get_eq_zero_iff]
    intro i low high
    have either : i = 22 ∨ i = 23 := by omega
    rcases either with rfl | rfl
    · exact first
    · exact second
  refine ⟨⟨magic, version, size, mac', ?_, ?_, rfl, ScaleJournal.byte_ofByte known, byte_ofByte known',
    layoutId, gap, ?_, ?_, count, raw, crc, fingerprint, get_of_zeros zero.1 16 (by decide), ?_,
    get_of_zeros zero.2 30 (by decide)⟩,
    checksum, shaped, rfl⟩
  · exact (UInt16.toNat_ofNat_of_lt (get_lt b 14 2)).symm
  · exact (UInt16.toNat_ofNat_of_lt (get_lt b 16 2)).symm
  · exact (UInt32.toNat_ofNat_of_lt (get_lt b 24 4)).symm
  · exact (UInt64.toNat_ofNat_of_lt (get_lt b 28 8)).symm
  · exact (get_slice b 64 222 (Nat.le_refl 222)).symm

/-- `decode` takes exactly the image of `encode`, and gives back what was encoded. -/
theorem decode_eq_some_iff {mac : Bytes 6} : decode b mac = some r ↔ encode r = some b ∧ r.mac = mac := by
  constructor
  · intro h
    obtain ⟨fields, checksum, shaped, same⟩ := fields_of_decode h
    refine ⟨?_, same⟩
    rw [encode, if_pos shaped, fill_eq]
    exact congrArg some (closeCrc_eq (layout_fits r) (width_layout r) (layout_iff.mpr fields) checksum)
  · rintro ⟨h, rfl⟩
    unfold encode at h
    split_ifs at h with shaped
    rw [← Option.some.inj h, fill_eq]
    have whole := width_layout r
    have values := getAll_closeCrc (n := 320) (layout_fits r) (Nat.le_of_eq whole) (by omega)
    exact decode_of_fields (layout_iff.mp values) (crcMatches_closeCrc _ _ (by omega)) shaped

theorem tags_of_decode {mac : Bytes 6} (h : decode b mac = some r) : get b 0 4 = magic ∧ slice b 8 6 6 = mac := by
  obtain ⟨fields, -, -, same⟩ := fields_of_decode h
  rw [← same]
  exact ⟨fields.magic, slice_of_get fields.mac fun i low high => absurd high (by omega)⟩

end Mosaico.Gauge.ContrastJournal
