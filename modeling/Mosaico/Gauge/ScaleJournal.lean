import Mosaico.Gauge.ScaleJournalModel

/-! A record of the scale journal and its blob determine each other. -/
namespace Mosaico.Gauge

open ByteFields RecordLayout Recovery

namespace ScaleJournal

variable {r : Record} {b : Blob}

section Fields

variable {fs : List Field} {ls : List LayoutField} {n : Nat}

def fieldsLayout (fs : List Field) : RecordLayout.Layout :=
  fs.flatMap fun f => [(f.width.toNat, get f.original 0 f.width.toNat), (f.width.toNat, get f.target 0 f.width.toNat)]

theorem fieldsLayout_cons (f : Field) (fs : List Field) : fieldsLayout (f :: fs) =
    (f.width.toNat, get f.original 0 f.width.toNat) :: (f.width.toNat, get f.target 0 f.width.toNat) ::
      fieldsLayout fs := rfl

theorem putFields_eq (b : Blob) (n : Nat) (fs : List Field) : putFields b n fs = putAll b n (fieldsLayout fs) := by
  induction fs generalizing b n with
  | nil => rfl
  | cons f fs ih =>
    simp only [putFields, fieldsLayout_cons, putAll, blit_eq_put, ih]

theorem fieldsLayout_fits (fs : List Field) : Fits (fieldsLayout fs) := by
  induction fs with
  | nil => exact fits_nil
  | cons f fs ih =>
    rw [fieldsLayout_cons, fits_cons, fits_cons]
    exact ⟨get_lt _ _ _, get_lt _ _ _, ih⟩

theorem fieldsShaped_cons {f : Field} {l : LayoutField} : fieldsShaped (f :: fs) (l :: ls) = true ↔
    (f.address = l.address ∧ f.width = l.width) ∧ f.canonical = true ∧ fieldsShaped fs ls = true := by
  rw [fieldsShaped, Bool.and_eq_true, Bool.and_eq_true, Field.placed, Bool.and_eq_true, beq_iff_eq,
    beq_iff_eq, and_assoc]

/-- The fields of an image are the ones that are read at their places. -/
theorem readFields_eq (narrow : ∀ l ∈ ls, l.width.toNat ≤ 4) (same : fs.length = ls.length)
    (shaped : fieldsShaped fs ls = true) :
    readFields b n ls = fs ↔ getAll b n (widths (fieldsLayout fs)) = (fieldsLayout fs).map Prod.snd := by
  induction fs generalizing n ls with
  | nil =>
    rw [List.length_nil, eq_comm, List.length_eq_zero_iff] at same
    rw [same]
    exact iff_of_true rfl rfl
  | cons f fs ih =>
    cases ls with
    | nil => cases same
    | cons l ls =>
      obtain ⟨⟨address, width⟩, canonical, rest⟩ := fieldsShaped_cons.mp shaped
      have small : f.width.toNat ≤ 4 := by
        rw [width]
        exact narrow l List.mem_cons_self
      obtain ⟨zeroOriginal, zeroTarget⟩ := Bool.and_eq_true_iff.mp canonical
      have slice_iff : ∀ {v : Bytes 4} (p : Nat), zeros v f.width.toNat 4 = true →
          (slice b p f.width.toNat 4 = v ↔ get b p f.width.toNat = get v 0 f.width.toNat) := by
        intro v p zero
        rw [zeros_iff] at zero
        constructor
        · rintro rfl
          exact (get_slice b p _ small).symm
        · exact fun read => slice_of_get read fun i low high => zero i low high
      have later := ih (n := n + f.width.toNat + f.width.toNat) (fun l hl => narrow l (List.mem_cons_of_mem _ hl))
        (Nat.succ.inj same) rest
      have head :
          (⟨l.address, l.width, slice b n l.width.toNat 4,
            slice b (n + l.width.toNat) l.width.toNat 4⟩ : Field) = f ↔
            get b n f.width.toNat = get f.original 0 f.width.toNat ∧
            get b (n + f.width.toNat) f.width.toNat = get f.target 0 f.width.toNat := by
        rw [← slice_iff n zeroOriginal, ← slice_iff (n + f.width.toNat) zeroTarget, ← width, ← address]
        obtain ⟨_, _, original, target⟩ := f
        simp only [Field.mk.injEq, true_and]
      simp only [readFields, fieldsLayout_cons, List.cons.injEq, widths, List.map_cons, getAll] at later ⊢
      rw [head, ← later, and_assoc, width]

end Fields

section Shape

/-- What `shape` demands of a record. -/
structure Shaped (r : Record) : Prop where
  unicast : byteAt r.mac 0 &&& 1 = 0
  identity : knownIdentity r.snapshot.identity = true
  bound : anyNonzero (binding r.mac) = true
  same : r.snapshot.binding = binding r.mac
  layoutId : r.snapshot.layoutId = .public131V1
  generation : r.snapshot.generation ≠ 0
  count : r.snapshot.count = fieldCount
  fields : fieldsShaped r.snapshot.fields.toList publicLayout = true

private theorem error_ite {p : Prop} [Decidable p] {e x : Error} (fails : e ≠ .none) :
    (if p then e else x) = .none ↔ ¬p ∧ x = .none := by
  split
  · rename_i holds
    exact iff_of_false fails fun h => h.1 holds
  · rename_i holds
    exact ⟨fun h => ⟨holds, h⟩, fun h => h.2⟩

private theorem validate_none {s : Snapshot} {c : Context} : validate s c = .none ↔
    (knownIdentity s.identity = true ∧ knownIdentity c.identity = true ∧ s.identity = c.identity) ∧
      (anyNonzero s.binding = true ∧ anyNonzero c.binding = true ∧ s.binding = c.binding) ∧
      (s.layoutId = .public131V1 ∧ c.layoutId = s.layoutId) ∧ (s.generation ≠ 0 ∧ s.count = fieldCount) ∧
      fieldsShaped s.fields.toList publicLayout = true ∧
      (c.sourceCrcAttested = true ∧ c.reviewedTargetAttested = true) := by
  rw [validate, error_ite (by decide), error_ite (by decide), error_ite (by decide), error_ite (by decide),
    error_ite (by decide), error_ite (by decide)]
  simp only [Bool.or_eq_true, Bool.not_eq_true', bne_iff_ne, not_or, Bool.not_eq_false, not_not, ne_eq, and_assoc,
    and_true]

theorem shape_iff : shape r = true ↔ Shaped r := by
  unfold shape
  dsimp only
  rw [Bool.and_eq_true, beq_iff_eq, beq_iff_eq, validate_none]
  constructor
  · rintro ⟨unicast, ⟨identity, -, -⟩, ⟨-, bound, same⟩, ⟨layoutId, -⟩, ⟨generation, count⟩, fields, -⟩
    exact ⟨unicast, identity, bound, same, layoutId, generation, count, fields⟩
  · intro h
    refine ⟨h.unicast, ⟨h.identity, h.identity, rfl⟩, ⟨?_, h.bound, h.same⟩, ⟨h.layoutId, h.layoutId.symm⟩,
      ⟨h.generation, h.count⟩, h.fields, rfl, rfl⟩
    rw [h.same]
    exact h.bound

end Shape

section Codec

theorem widths_fieldsLayout {fs : List Field} {ls : List LayoutField} (same : fs.length = ls.length)
    (shaped : fieldsShaped fs ls = true) :
    widths (fieldsLayout fs) = ls.flatMap fun l => [l.width.toNat, l.width.toNat] := by
  induction fs generalizing ls with
  | nil =>
    rw [List.length_nil, eq_comm, List.length_eq_zero_iff] at same
    rw [same]
    rfl
  | cons f fs ih =>
    cases ls with
    | nil => cases same
    | cons l ls =>
      obtain ⟨⟨-, width⟩, -, rest⟩ := fieldsShaped_cons.mp shaped
      have later := ih (Nat.succ.inj same) rest
      rw [fieldsLayout_cons, List.flatMap_cons, ← later, ← width]
      rfl

theorem narrow : ∀ l ∈ publicLayout, l.width.toNat ≤ 4 := by decide +kernel

theorem images_width : (publicLayout.flatMap fun l => [l.width.toNat, l.width.toNat]).sum = 444 := by decide +kernel

theorem length_fields (s : Snapshot) : s.fields.toList.length = publicLayout.length :=
  s.fields.length_toList.trans length_publicLayout.symm

def header (r : Record) : RecordLayout.Layout :=
  let s := r.snapshot
  [(4, magic), (2, 2), (2, blobSize), (6, get r.mac 0 6), (2, s.identity.device.toNat),
    (2, s.identity.firmware.toNat), (1, s.identity.build.toNat), (1, s.phase.byte.toNat),
    (1, s.scale.byte.toNat), (1, 0), (2, s.layoutId.byte.toNat),
    (4, s.generation.toNat), (8, s.epoch.toNat), (2, s.count), (2, 0), (4, imageDigest r false),
    (4, imageDigest r true),
    (4, layoutFingerprint), (12, 0)]

def layout (r : Record) : RecordLayout.Layout := header r ++ fieldsLayout r.snapshot.fields.toList

theorem width_header (r : Record) : width (header r) = headerSize := by simp [header, headerSize]

private theorem record_layout (r : Record) : record 512 (layout r) =
    putAll (record 512 (header r)) headerSize (fieldsLayout r.snapshot.fields.toList) := by
  rw [layout, record, putAll_append, Nat.zero_add, width_header, record]

theorem fill_eq (r : Record) : fill r = record 512 (layout r) := by
  rw [record_layout]
  unfold fill
  dsimp only
  rw [blit_eq_put, record_nil, put_next magic 4 (by simp), put_next _ 2 (by simp), put_next _ 2 (by simp),
    put_next _ 6 (by simp), put_next _ 2 (by simp), put_next _ 2 (by simp), put_next _ 1 (by simp),
    put_next _ 1 (by simp), put_next _ 1 (by simp), put_gap _ 2 1 (by simp), put_next _ 4 (by simp),
    put_next _ 8 (by simp), put_next _ 2 (by simp), put_gap _ 4 2 (by simp), put_next _ 4 (by simp),
    put_next _ 4 (by simp), putFields_eq, record_gap _ 12]
  simp only [header, List.cons_append, List.nil_append]

theorem crc32_lt (bytes : List UInt8) : crc32 bytes < 256 ^ 4 := UInt32.toNat_lt_size _

theorem layout_fits (shaped : Shaped r) : Fits (layout r) := by
  rw [layout, fits_append]
  refine ⟨?_, fieldsLayout_fits _⟩
  simp only [header, fits_cons, fits_nil, and_true]
  exact ⟨by decide, by decide, by decide, get_lt _ _ _, UInt16.toNat_lt _, UInt16.toNat_lt _, UInt8.toNat_lt _,
    UInt8.toNat_lt _, UInt8.toNat_lt _, by decide, Nat.lt_trans (UInt8.toNat_lt _) (by decide), UInt32.toNat_lt _,
    UInt64.toNat_lt _, by rw [shaped.count]; decide, by decide, crc32_lt _, crc32_lt _, crc32_lt _, zero_fits 12⟩

theorem width_layout (shaped : Shaped r) : width (layout r) = 508 := by
  rw [layout, width_append, ← sum_widths (fieldsLayout _),
    widths_fieldsLayout (length_fields _) shaped.fields, images_width, width_header]
  decide

/-- The header of a blob, as `decode` reads it. -/
structure Fields (b : Blob) (r : Record) : Prop where
  magic : get b 0 4 = magic
  version : get b 4 2 = 2
  size : get b 6 2 = blobSize
  mac : get b 8 6 = get r.mac 0 6
  device : get b 14 2 = r.snapshot.identity.device.toNat
  firmware : get b 16 2 = r.snapshot.identity.firmware.toNat
  build : byteAt b 18 = r.snapshot.identity.build
  phase : byteAt b 19 = r.snapshot.phase.byte
  scale : byteAt b 20 = r.snapshot.scale.byte
  gap : byteAt b 21 = 0
  layoutId : get b 22 2 = r.snapshot.layoutId.byte.toNat
  generation : get b 24 4 = r.snapshot.generation.toNat
  epoch : get b 28 8 = r.snapshot.epoch.toNat
  count : get b 36 2 = r.snapshot.count
  gap' : get b 38 2 = 0
  original : get b 40 4 = imageDigest r false
  target : get b 44 4 = imageDigest r true
  fingerprint : get b 48 4 = layoutFingerprint
  rest : get b 52 12 = 0

theorem header_iff : getAll b 0 (widths (header r)) = (header r).map Prod.snd ↔ Fields b r := by
  have zero : (0 : Nat) = (0 : UInt8).toNat := rfl
  simp only [header, widths, List.map_cons, List.map_nil, getAll, Nat.zero_add, Nat.reduceAdd,
    List.cons.injEq, and_true, get_one]
  constructor
  · rintro ⟨magic, version, size, mac, device, firmware, build, phase, scale, gap, layoutId, generation,
      epoch, count, gap', original, target, fingerprint, rest⟩
    exact ⟨magic, version, size, mac, device, firmware, UInt8.toNat_inj.mp build, UInt8.toNat_inj.mp phase,
      UInt8.toNat_inj.mp scale, UInt8.toNat_inj.mp (gap.trans zero), layoutId, generation, epoch, count,
        gap', original,
      target, fingerprint, rest⟩
  · intro h
    exact ⟨h.magic, h.version, h.size, h.mac, h.device, h.firmware, congrArg _ h.build, congrArg _ h.phase,
      congrArg _ h.scale, congrArg UInt8.toNat h.gap, h.layoutId, h.generation, h.epoch, h.count, h.gap', h.original,
      h.target, h.fingerprint, h.rest⟩

private theorem toList_fields (b : Blob) : (fields b).toList = readFields b headerSize publicLayout := by
  simp only [fields, Vector.toList_mk]

theorem fields_eq (shaped : Shaped r) : fields b = r.snapshot.fields ↔
    getAll b headerSize (widths (fieldsLayout r.snapshot.fields.toList)) =
      (fieldsLayout r.snapshot.fields.toList).map Prod.snd := by
  rw [← readFields_eq narrow (length_fields r.snapshot) shaped.fields, ← Vector.toList_inj, toList_fields]

/-- The fields of the layout are the header and the fields of the images. -/
theorem layout_iff (shaped : Shaped r) : getAll b 0 (widths (layout r)) = (layout r).map Prod.snd ↔
    Fields b r ∧ fields b = r.snapshot.fields := by
  have long : (getAll b 0 (widths (header r))).length = ((header r).map Prod.snd).length := by
    rw [length_getAll, widths, List.length_map, List.length_map]
  rw [fields_eq shaped, ← header_iff, layout, widths, List.map_append, List.map_append, getAll_append, Nat.zero_add]
  rw [show ((header r).map Prod.fst).sum = headerSize from width_header r]
  exact ⟨fun h => List.append_inj h long, fun h => congrArg₂ _ h.1 h.2⟩

theorem ofByte_byte (p : Phase) : Phase.ofByte p.byte = some p := by
  cases p <;> rfl

theorem byte_ofByte {v : UInt8} {p : Phase} (h : Phase.ofByte v = some p) : v = p.byte := by
  unfold Phase.ofByte at h
  split_ifs at h with one two three four <;> cases h
  · exact one
  · exact two
  · exact three
  · exact four

private theorem scale_ofByte_byte (p : Scale) : Scale.ofByte p.byte = some p := by
  cases p <;> rfl

private theorem scale_byte_ofByte {v : UInt8} {p : Scale} (h : Scale.ofByte v = some p) : v = p.byte := by
  unfold Scale.ofByte at h
  split_ifs at h with one two three <;> cases h
  · exact one
  · exact two
  · exact three

/-- A blob with the fields of a shaped record decodes to it. -/
theorem decode_of_fields (h : Fields b r) (read : fields b = r.snapshot.fields) (checksum : crcMatches b 508 = true)
    (shaped : Shaped r) : decode b r.mac = some r := by
  have mac : slice b 8 6 6 = r.mac := slice_of_get h.mac fun i low high => absurd high (by omega)
  have gaps : byteAt b 38 = 0 ∧ byteAt b 39 = 0 := by
    have zero := (get_eq_zero_iff b 38 2).mp h.gap'
    exact ⟨zero 38 (by omega) (by omega), zero 39 (by omega) (by omega)⟩
  have rest : zeros b 52 headerSize = true := zeros_of_get 12 h.rest (by decide)
  have layoutId : get b 22 2 = Layout.public131V1.byte.toNat := by rw [h.layoutId, shaped.layoutId]
  unfold decode
  rw [if_neg (by simp [h.magic, h.version, h.size, checksum]), if_neg (by simp [mac]),
    if_neg (by simp [h.gap, gaps.1, gaps.2]), if_neg (by simp [h.fingerprint]), if_neg (by simp [rest]),
    if_neg (by simp [layoutId]), h.phase, h.scale, ofByte_byte, scale_ofByte_byte]
  have whole :
      (⟨r.mac, ⟨⟨UInt16.ofNat (get b 14 2), UInt16.ofNat (get b 16 2), byteAt b 18⟩, binding r.mac,
      .public131V1, UInt32.ofNat (get b 24 4), r.snapshot.scale, UInt64.ofNat (get b 28 8), r.snapshot.phase,
      get b 36 2, fields b⟩⟩ :
      Record) = r := by
    rw [h.device, h.firmware, h.build, h.generation, h.epoch, h.count, read, ← shaped.same, ← shaped.layoutId,
      UInt16.ofNat_toNat, UInt16.ofNat_toNat, UInt32.ofNat_toNat, UInt64.ofNat_toNat]
  simp only [Option.bind_eq_bind, Option.bind_some, whole]
  rw [if_neg (by simp [shape_iff.mpr shaped, h.original, h.target])]

theorem fields_of_decode {mac : Bytes 6} (h : decode b mac = some r) :
    Fields b r ∧ fields b = r.snapshot.fields ∧ crcMatches b 508 = true ∧ Shaped r ∧ r.mac = mac := by
  unfold decode at h
  split_ifs at h with head same gaps fingerprint rest layoutId
  simp only [not_or, not_not, Bool.not_eq_false] at head same gaps fingerprint rest layoutId
  obtain ⟨magic, version, size, checksum⟩ := head
  obtain ⟨phase, known, h⟩ := Option.bind_eq_some_iff.mp h
  obtain ⟨scale, known', h⟩ := Option.bind_eq_some_iff.mp h
  dsimp only at h
  split_ifs at h with whole
  simp only [Bool.or_eq_true, Bool.not_eq_true', bne_iff_ne, not_or, Bool.not_eq_false, not_not, ne_eq] at whole
  obtain ⟨⟨shaped, original⟩, target⟩ := whole
  cases h
  have mac' : get b 8 6 = get mac 0 6 := by
    rw [← same]
    exact (get_slice b 8 6 (Nat.le_refl 6)).symm
  have gap : get b 38 2 = 0 := by
    rw [get_eq_zero_iff]
    intro i low high
    have either : i = 38 ∨ i = 39 := by omega
    rcases either with rfl | rfl
    · exact gaps.2.1
    · exact gaps.2.2
  refine ⟨⟨magic, version, size, mac', ?_, ?_, rfl, byte_ofByte known, scale_byte_ofByte known',
    gaps.1, layoutId, ?_, ?_, rfl, gap, original, target, fingerprint, get_of_zeros rest 12 (by decide)⟩,
    rfl, checksum, shape_iff.mp shaped, rfl⟩
  · exact (UInt16.toNat_ofNat_of_lt (get_lt b 14 2)).symm
  · exact (UInt16.toNat_ofNat_of_lt (get_lt b 16 2)).symm
  · exact (UInt32.toNat_ofNat_of_lt (get_lt b 24 4)).symm
  · exact (UInt64.toNat_ofNat_of_lt (get_lt b 28 8)).symm

/-- `decode` takes exactly the image of `encode`, and gives back what was encoded. -/
theorem decode_eq_some_iff {mac : Bytes 6} : decode b mac = some r ↔ encode r = some b ∧ r.mac = mac := by
  constructor
  · intro h
    obtain ⟨read, images, checksum, shaped, same⟩ := fields_of_decode h
    have values := (layout_iff shaped).mpr ⟨read, images⟩
    refine ⟨?_, same⟩
    rw [encode, if_pos (shape_iff.mpr shaped), fill_eq]
    exact congrArg some (closeCrc_eq (layout_fits shaped) (width_layout shaped) values checksum)
  · rintro ⟨h, rfl⟩
    unfold encode at h
    split_ifs at h with shape
    have shaped := shape_iff.mp shape
    rw [← Option.some.inj h, fill_eq]
    have whole := width_layout shaped
    obtain ⟨read, images⟩ := (layout_iff shaped).mp
      (getAll_closeCrc (layout_fits shaped) (Nat.le_of_eq whole) (by omega))
    exact decode_of_fields read images (crcMatches_closeCrc _ _ (by omega)) shaped

/-- A blob tells the schema and the device it is of. -/
theorem tags_of_decode {mac : Bytes 6} (h : decode b mac = some r) : get b 0 4 = magic ∧ slice b 8 6 6 = mac := by
  obtain ⟨fields, -, -, -, same⟩ := fields_of_decode h
  rw [← same]
  exact ⟨fields.magic, slice_of_get fields.mac fun i low high => absurd high (by omega)⟩

end Codec

end ScaleJournal

end Mosaico.Gauge
