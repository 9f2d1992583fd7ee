import Mosaico.Gauge.ColdEvidence
import Mosaico.Library.RecordLayout

/-! The fields of an evidence frame, in their order on the wire. -/
namespace Mosaico.Gauge.ColdEvidence

open ByteFields RecordLayout

variable {f : Frame} {w : Wire}

def tagFields (t : Tag) : Layout := [(8, t.epoch.toNat), (8, t.generation.toNat), (1, t.phase.toNat)]

def statusFields (s : StatusSnapshot) : Layout :=
  [(8, s.sampledUs.toNat), (4, s.validMask.toNat)] ++ (statusWords s).map (fun v => (2, v.toNat)) ++
    [(1, s.phase.toNat), (1, s.outcome.toNat), (1, s.mode.toNat), (1, 0)] ++ tagFields s.units

def engineFields (e : EngineSnapshot) : Layout :=
  [(8, e.sampledUs.toNat), (2, e.validMask.toNat), (2, e.echo73.toNat), (2, e.echo76.toNat),
    (2, e.echo02.toNat), (1, e.phase.toNat), (1, e.outcome.toNat), (23, get e.rawCedv 0 23),
    (17, get e.rawSmooth 0 17), (11, get e.rawIdentity 0 11), (3, 0)] ++ tagFields e.units

def frameFields (f : Frame) : Layout :=
  [(4, magic), (2, 1), (2, wireSize), (4, f.resetReason.toNat), (1, (kindByte f.kind).toNat), (3, 0),
    (16, get f.bootNonce 0 16)] ++ statusFields f.standard ++ [(5, 0)] ++ engineFields f.engine ++
      [(3, 0), (4, f.error.toNat)]

private theorem putWords_cons (w : Wire) (p : Nat) (v : UInt16) (rest : List UInt16) :
    putWords w p (v :: rest) = putWords (put w p v.toNat 2) (p + 2) rest := by
  conv_lhs => unfold putWords

theorem putWords_record {fields : Layout} {p : Nat} (words : List UInt16) (h : p = width fields) :
    putWords (record wireSize fields) p words =
      record wireSize (fields ++ words.map fun v => (2, v.toNat)) := by
  induction words generalizing fields p with
  | nil => exact congrArg (record wireSize) (List.append_nil fields).symm
  | cons v rest ih =>
    rw [putWords_cons, put_next _ 2 h, ih (by simp [h]), List.map_cons, List.append_assoc,
      List.singleton_append]

theorem putTag_record {fields : Layout} {p : Nat} (t : Tag) (h : p = width fields) :
    putTag (record wireSize fields) p t = record wireSize (fields ++ tagFields t) := by
  rw [putTag, put_next _ 8 h, put_next _ 8 (by simp [h]), put_next _ 1 (by simp [h]), List.append_assoc,
    List.append_assoc]
  rfl

theorem width_statusFields (s : StatusSnapshot) : width (statusFields s) = 59 := by
  simp [statusFields, statusWords, tagFields]

theorem width_engineFields (e : EngineSnapshot) : width (engineFields e) = 89 := by
  simp [engineFields, tagFields]

theorem putStatus_record {fields : Layout} (s : StatusSnapshot) (h : 32 = width fields) :
    putStatus (record wireSize fields) s = record wireSize (fields ++ statusFields s) := by
  unfold putStatus
  dsimp only
  rw [put_next _ 8 h, put_next _ 4 (by simp [← h]), putWords_record _ (by simp [← h]),
    put_next _ 1 (by simp [← h, statusWords]), put_next _ 1 (by simp [← h, statusWords]),
    put_next _ 1 (by simp [← h, statusWords]), record_gap _ 1, putTag_record _ (by simp [← h, statusWords])]
  simp only [statusFields, List.append_assoc, List.cons_append, List.nil_append]

private theorem putEngine_record {fields : Layout} (e : EngineSnapshot) (h : 96 = width fields) :
    putEngine (record wireSize fields) e = record wireSize (fields ++ engineFields e) := by
  unfold putEngine
  dsimp only
  simp only [blit_eq_put]
  rw [put_next _ 8 h, put_next _ 2 (by simp [← h]), put_next _ 2 (by simp [← h]),
    put_next _ 2 (by simp [← h]), put_next _ 2 (by simp [← h]), put_next _ 1 (by simp [← h]),
    put_next _ 1 (by simp [← h]), put_next _ 23 (by simp [← h]), put_next _ 17 (by simp [← h]),
    put_next _ 11 (by simp [← h]), record_gap _ 3, putTag_record _ (by simp [← h])]
  simp only [engineFields, List.append_assoc, List.cons_append, List.nil_append]

def image (f : Frame) : Wire := closeCrc (record wireSize (frameFields f)) crcOffset

theorem encode_eq (h : shape f = true) : encode f = some (image f) := by
  rw [encode, if_pos h, image]
  dsimp only
  rw [record_nil, put_next magic 4 (by simp), put_next 1 2 (by simp), put_next wireSize 2 (by simp),
    put_next _ 4 (by simp), put_next _ 1 (by simp), blit_eq_put, put_gap _ 16 3 (by simp),
    putStatus_record _ (by simp), record_gap _ 5,
    putEngine_record _ (by simp [width_statusFields]),
    put_gap _ 4 3 (by simp [width_statusFields, width_engineFields])]
  simp only [frameFields, List.append_assoc, List.cons_append, List.nil_append]

theorem tagFields_fits (t : Tag) : Fits (tagFields t) := by
  simp only [tagFields, fits_cons, fits_nil, and_true]
  exact ⟨t.epoch.toNat_lt, t.generation.toNat_lt, t.phase.toNat_lt⟩

private theorem statusFields_fits (s : StatusSnapshot) : Fits (statusFields s) := by
  have words : Fits ((statusWords s).map fun v => (2, v.toNat)) := by
    intro field mem
    obtain ⟨v, -, rfl⟩ := List.mem_map.mp mem
    exact v.toNat_lt
  simp only [statusFields, fits_append, fits_cons, fits_nil, and_true, words, tagFields_fits]
  exact ⟨⟨s.sampledUs.toNat_lt, s.validMask.toNat_lt⟩, s.phase.toNat_lt, s.outcome.toNat_lt, s.mode.toNat_lt,
    by decide⟩

private theorem engineFields_fits (e : EngineSnapshot) : Fits (engineFields e) := by
  simp only [engineFields, fits_append, fits_cons, fits_nil, and_true, tagFields_fits]
  exact ⟨e.sampledUs.toNat_lt, e.validMask.toNat_lt, e.echo73.toNat_lt, e.echo76.toNat_lt, e.echo02.toNat_lt,
    e.phase.toNat_lt, e.outcome.toNat_lt, get_lt _ _ _, get_lt _ _ _, get_lt _ _ _, by decide⟩

theorem frameFields_fits (f : Frame) : Fits (frameFields f) := by
  simp only [frameFields, fits_append, fits_cons, fits_nil, and_true, statusFields_fits, engineFields_fits]
  exact ⟨⟨⟨by decide, by decide, by decide, f.resetReason.toNat_lt, (kindByte f.kind).toNat_lt, by decide,
    get_lt _ _ _⟩, by decide⟩, by decide, f.error.toNat_lt⟩

theorem signedWord_toNat (v : Int16) : signedWord v.toUInt16.toNat = v := by
  have whole : Int16.ofInt v.toUInt16.toNat = v := by
    apply Int16.toBitVec.inj
    exact (BitVec.ofInt_natCast 16 v.toBitVec.toNat).trans (BitVec.ofNat_toNat 16 v.toBitVec)
  have turn : Int16.ofInt ((v.toUInt16.toNat : Int) - 65536) = Int16.ofInt v.toUInt16.toNat := by
    rw [Int16.ofInt_eq_iff_bmod_eq_toInt, Int16.toInt_ofInt]
    exact Int.sub_bmod_right _ Int16.size
  rw [signedWord, turn, ite_self, whole]

theorem kindOf_kindByte (k : Kind) : kindOf (kindByte k) = k := by
  cases k <;> rfl

/-- What a tag on the wire leaves out is what its shape says. -/
theorem getTag_eq {p : Nat} {t : Tag} (shaped : unitShape t = true) (epoch : get w p 8 = t.epoch.toNat)
    (generation : get w (p + 8) 8 = t.generation.toNat) (phase : byteAt w (p + 16) = t.phase) :
    getTag w p = t := by
  simp only [unitShape, Bool.and_eq_true, beq_iff_eq, Bool.not_eq_true', decide_eq_true_eq] at shaped
  obtain ⟨⟨factor, verified⟩, -⟩ := shaped
  obtain ⟨f, e, g, v, ph⟩ := t
  obtain rfl : f = 0 := factor
  obtain rfl : v = false := verified
  rw [getTag, epoch, generation, phase, UInt64.ofNat_toNat, UInt64.ofNat_toNat]

theorem values_image (f : Frame) :
    getAll (image f) 0 (widths (frameFields f)) = (frameFields f).map Prod.snd := by
  have room : width (frameFields f) = 192 := by simp [frameFields, width_statusFields, width_engineFields]
  exact getAll_closeCrc (frameFields_fits f) (by rw [room]; decide) (by decide)

theorem frameOf_image (h : shape f = true) : frameOf (image f) = f := by
  have values := values_image f
  simp only [frameFields, statusFields, engineFields, tagFields, statusWords, widths, List.map_cons,
    List.map_nil, List.cons_append, List.nil_append, getAll, Nat.zero_add, Nat.reduceAdd, List.cons.injEq,
    and_true, get_one, UInt8.toNat_inj] at values
  simp only [shape, Bool.and_eq_true, beq_iff_eq, decide_eq_true_eq] at h
  obtain ⟨⟨⟨⟨-, reserved⟩, -⟩, statusUnits⟩, engineUnits⟩ := h
  have standard : getStatus (image f) = f.standard := by
    have units : getTag (image f) 74 = f.standard.units :=
      getTag_eq statusUnits (by simp only [values]) (by simp only [values]) (by simp only [values])
    simp only [getStatus, word, values, units, signedWord_toNat, UInt64.ofNat_toNat, UInt32.ofNat_toNat,
      UInt16.ofNat_toNat]
    rw [← reserved]
  have engine : getEngine (image f) = f.engine := by
    have units : getTag (image f) 168 = f.engine.units :=
      getTag_eq engineUnits (by simp only [values]) (by simp only [values]) (by simp only [values])
    have cedv : slice (image f) 114 23 23 = f.engine.rawCedv := slice_of_get (by simp only [values]) (by omega)
    have smooth : slice (image f) 137 17 17 = f.engine.rawSmooth := slice_of_get (by simp only [values]) (by omega)
    have ident : slice (image f) 154 11 11 = f.engine.rawIdentity := slice_of_get (by simp only [values]) (by omega)
    simp only [getEngine, word, values, units, cedv, smooth, ident, UInt64.ofNat_toNat, UInt16.ofNat_toNat]
  have nonce : slice (image f) 16 16 16 = f.bootNonce := slice_of_get (by simp only [values]) (by omega)
  simp only [frameOf, kindOf_kindByte, nonce, standard, engine, values, UInt32.ofNat_toNat]

theorem decode_encode (h : encode f = some w) : decode w = some f := by
  have shaped : shape f = true := by
    by_contra other
    rw [encode, if_neg other] at h
    cases h
  rw [encode_eq shaped] at h
  obtain rfl := Option.some.inj h
  have values := values_image f
  simp only [frameFields, widths, List.cons_append, List.nil_append, List.map_cons, getAll, Nat.zero_add,
    List.cons.injEq] at values
  obtain ⟨magic_, version, size, -⟩ := values
  have checksum : crcMatches (image f) crcOffset = true := crcMatches_closeCrc _ _ (by decide)
  rw [decode, if_neg, frameOf_image shaped, encode_eq shaped, if_pos rfl]
  rw [checksum, magic_, version, size]
  decide

theorem encode_decode (h : decode w = some f) : encode f = some w := by
  unfold decode at h
  split at h
  · cases h
  · split at h
    · rename_i again
      rw [← Option.some.inj h]
      exact again
    · cases h

end Mosaico.Gauge.ColdEvidence
