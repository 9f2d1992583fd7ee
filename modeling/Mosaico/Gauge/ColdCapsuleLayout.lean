import Mosaico.Gauge.ColdCapsule
import Mosaico.Nand.ColdLayout
import Mosaico.Library.RecordLayout

/-! A capsule and its bytes determine each other. -/
namespace Mosaico.Gauge.ColdCapsule

open ByteFields ColdTrial RecordLayout

variable {n : Nat} {r : Record} {b e : Binding} {s : StoreRecord} {d : Digest}

def bindingLayout (b : Binding) : Layout :=
  [(6, get b.mac 0 6), (2, b.identity.device), (2, b.identity.firmware), (1, b.identity.build),
    (1, (recoveryByte b.recovery).toNat), (4, b.source), (4, b.target), (4, b.originalGctGeneration),
    (8, b.originalGctEpoch), (16, get b.nonce 0 16), (32, get b.slotHashes.1 0 32),
    (32, get b.slotHashes.2 0 32), (32, get b.contractDigest 0 32), (32, get b.source131ReceiptDigest 0 32),
    (4, b.captureBudgetMs)]

def payloadLayout (r : Record) : Layout :=
  [(4, magic), (2, codecVersion), (2, wireSize), (2, r.schema), (1, (phaseByte r.phase).toNat),
    (1, (captureByte r.capture).toNat), (4, r.sequence)] ++ bindingLayout r.binding ++
    [(16, get r.armedBoot.nonce 0 16), (1, bootByte r.armedBoot), (16, get r.claimedBoot.nonce 0 16),
      (1, bootByte r.claimedBoot), (2, 0), (8, r.armedMs), (8, r.handoffMs), (8, r.claimMs),
      (32, get r.evidenceDigest 0 32), (1248, 0)]

private theorem writeBinding_record {fields : Layout} {p : Nat} (b : Binding) (h : p = width fields) :
    writeBinding (record n fields) p b = record n (fields ++ bindingLayout b) := by
  unfold writeBinding
  dsimp only
  simp only [blit_eq_put]
  rw [put_next _ 6 h, put_next _ 2 (by simp [h]), put_next _ 2 (by simp [h]), put_next _ 1 (by simp [h]),
    put_next _ 1 (by simp [h]), put_next _ 4 (by simp [h]), put_next _ 4 (by simp [h]),
    put_next _ 4 (by simp [h]), put_next _ 8 (by simp [h]), put_next _ 16 (by simp [h]),
    put_next _ 32 (by simp [h]), put_next _ 32 (by simp [h]), put_next _ 32 (by simp [h]),
    put_next _ 32 (by simp [h]), put_next _ 4 (by simp [h])]
  simp only [bindingLayout, List.append_assoc, List.cons_append, List.nil_append]

theorem width_bindingLayout (b : Binding) : width (bindingLayout b) = 180 := by simp [bindingLayout]

theorem wire_eq (r : Record) : wire r (zero n) = record n (payloadLayout r) := by
  unfold wire
  dsimp only
  simp only [blit_eq_put]
  rw [record_nil, put_next magic 4 (by simp), put_next codecVersion 2 (by simp), put_next wireSize 2 (by simp),
    put_next r.schema 2 (by simp), put_next _ 1 (by simp), put_next _ 1 (by simp), put_next _ 4 (by simp),
    writeBinding_record _ (by simp), put_next _ 16 (by simp [width_bindingLayout]),
    put_next _ 1 (by simp [width_bindingLayout]), put_next _ 16 (by simp [width_bindingLayout]),
    put_next _ 1 (by simp [width_bindingLayout]), put_gap _ 8 2 (by simp [width_bindingLayout]),
    put_next _ 8 (by simp [width_bindingLayout]), put_next _ 8 (by simp [width_bindingLayout]),
    put_next _ 32 (by simp [width_bindingLayout]), record_gap _ 1248]
  simp only [payloadLayout, List.append_assoc, List.cons_append, List.nil_append]

theorem width_payloadLayout (r : Record) : width (payloadLayout r) = 1536 := by
  simp [payloadLayout, width_bindingLayout]

/-- The two times whose bounds are those of their words alone. -/
def InWords (r : Record) : Prop := r.armedMs < 2 ^ 64 ∧ r.handoffMs < 2 ^ 64

theorem bindingLayout_fits (valid : validBinding b = true) : Fits (bindingLayout b) := by
  simp only [validBinding, Bool.and_eq_true, beq_iff_eq, bne_iff_ne, decide_eq_true_eq] at valid
  obtain ⟨⟨⟨⟨⟨⟨⟨⟨⟨⟨⟨⟨-, ident⟩, source⟩, target⟩, -⟩, generation⟩, -⟩, epoch⟩, -⟩, -⟩, -⟩, budget⟩, -⟩ := valid
  have ident : b.identity = {} := by simpa [identity] using ident
  have generation : b.originalGctGeneration ≤ 2 ^ 32 - 1 - 4 := generation
  have epoch : b.originalGctEpoch ≤ 2 ^ 64 - 1 - 4 := epoch
  have budget : b.captureBudgetMs ≤ 60000 := budget
  simp only [bindingLayout, fits_cons, fits_nil, and_true, ident, source, target]
  refine ⟨get_lt _ _ _, by decide, by decide, by decide, (recoveryByte b.recovery).toNat_lt, by decide, by decide,
    ?_, ?_, get_lt _ _ _, get_lt _ _ _, get_lt _ _ _, get_lt _ _ _, get_lt _ _ _, ?_⟩
  all_goals omega

theorem bootByte_lt (t : BootToken) : bootByte t < 256 ^ 1 := by
  unfold bootByte
  split <;> decide

theorem sequence_le {claimed : Bool} (h : reachableSequence r claimed = true) : r.sequence ≤ 6 := by
  cases phase : r.phase <;>
    simp only [reachableSequence, phase, beq_iff_eq, Bool.or_eq_true, Bool.and_eq_true, reduceCtorEq, if_false,
      if_true, Bool.ite_eq_true_distrib] at h <;> (try split_ifs at h) <;> omega

private theorem claimMs_lt (h : shape r = true) : r.claimMs < 60000 := by
  simp only [shape, Bool.and_eq_true, Bool.or_eq_true, beq_iff_eq, decide_eq_true_eq, Bool.not_eq_true'] at h
  obtain ⟨⟨⟨⟨⟨-, none_⟩, bound⟩, -⟩, -⟩, -⟩ := h
  have bound : hasClaim r = false ∨ r.claimMs < 60000 := bound
  rcases none_ with claimed | zero
  · rw [claimed] at bound
    simpa using bound
  · omega

theorem payloadLayout_fits (h : shape r = true) (words : InWords r) : Fits (payloadLayout r) := by
  have claim := claimMs_lt h
  simp only [shape, Bool.and_eq_true, beq_iff_eq] at h
  obtain ⟨⟨⟨⟨⟨⟨⟨⟨⟨⟨⟨⟨⟨schema, -⟩, valid⟩, -⟩, -⟩, -⟩, -⟩, -⟩, -⟩, -⟩, -⟩, -⟩, reached⟩, -⟩ := h
  have sequence := sequence_le reached
  obtain ⟨armed, handoff⟩ := words
  simp only [payloadLayout, fits_append, fits_cons, fits_nil, and_true, schema, bindingLayout_fits valid]
  refine ⟨⟨by decide, by decide, by decide, by decide, (phaseByte r.phase).toNat_lt,
    (captureByte r.capture).toNat_lt, by omega⟩, get_lt _ _ _, bootByte_lt _, get_lt _ _ _, bootByte_lt _,
    by decide, armed, handoff, by omega, get_lt _ _ _, zero_fits 1248⟩

section Reading

variable {p : ByteFields.Bytes 1536}

theorem phaseOf_phaseByte (x : Phase) : phaseOf (phaseByte x) = x := by
  cases x <;> rfl

theorem captureOf_captureByte (x : CaptureResult) : captureOf (captureByte x) = x := by
  cases x <;> rfl

theorem recoveryOf_recoveryByte (x : RecoveryBinding) : recoveryOf (recoveryByte x) = x := by
  cases x <;> rfl

theorem phaseByte_phaseOf {v : UInt8} (listed : phaseOf v ≠ .unlisted) : phaseByte (phaseOf v) = v := by
  revert listed
  fun_cases phaseOf v <;> intro listed <;> first | rfl | exact absurd rfl listed

theorem captureByte_captureOf {v : UInt8} (listed : captureOf v ≠ .unlisted) :
    captureByte (captureOf v) = v := by
  revert listed
  fun_cases captureOf v <;> intro listed <;> first | rfl | exact absurd rfl listed

theorem recoveryByte_recoveryOf {v : UInt8} (listed : recoveryOf v ≠ .unlisted) :
    recoveryByte (recoveryOf v) = v := by
  revert listed
  fun_cases recoveryOf v <;> intro listed <;> first | rfl | exact absurd rfl listed

theorem boot_eq {t : BootToken} {v : UInt8} (h : v.toNat = bootByte t) : (v != 0) = t.verified := by
  have zero : v = 0 ↔ v.toNat = 0 := UInt8.toNat_inj.symm
  rw [bne, Bool.eq_iff_iff, Bool.not_eq_true', beq_eq_false_iff_ne, ne_eq, zero, h, bootByte]
  split <;> simp_all

theorem bootByte_eq {v : UInt8} {nonce : Nonce} (h : ¬1 < v) :
    v.toNat = bootByte { nonce := nonce, verified := v != 0 } := by
  have small : v.toNat ≤ 1 := by simpa [UInt8.lt_iff_toNat_lt] using h
  have zero : v = 0 ↔ v.toNat = 0 := UInt8.toNat_inj.symm
  rw [bootByte]
  split
  · rename_i some_
    rw [bne_iff_ne, ne_eq, zero] at some_
    omega
  · rename_i none_
    rw [bne_iff_ne, ne_eq, not_not, zero] at none_
    exact none_

/-- The bytes of a record are those of its fields. -/
theorem unwire_eq (values : getAll p 0 (widths (payloadLayout r)) = (payloadLayout r).map Prod.snd) :
    unwire p = r := by
  simp only [payloadLayout, bindingLayout, widths, List.map_cons, List.map_nil, List.cons_append,
    List.nil_append, getAll, Nat.zero_add, Nat.reduceAdd, List.cons.injEq, and_true, get_one,
    UInt8.toNat_inj] at values
  have binding : readBinding p 16 = r.binding := by
    have mac : slice p 16 6 6 = r.binding.mac := slice_of_get (by simp only [values]) (by omega)
    have nonce : slice p 48 16 16 = r.binding.nonce := slice_of_get (by simp only [values]) (by omega)
    have first : slice p 64 32 32 = r.binding.slotHashes.1 := slice_of_get (by simp only [values]) (by omega)
    have second : slice p 96 32 32 = r.binding.slotHashes.2 := slice_of_get (by simp only [values]) (by omega)
    have contract : slice p 128 32 32 = r.binding.contractDigest := slice_of_get (by simp only [values]) (by omega)
    have receipt : slice p 160 32 32 = r.binding.source131ReceiptDigest :=
      slice_of_get (by simp only [values]) (by omega)
    have build : get p 26 1 = r.binding.identity.build := by simp only [get_one, values]
    simp only [readBinding, Nat.reduceAdd, mac, nonce, first, second, contract, receipt, build, values,
      recoveryOf_recoveryByte]
  have armed : slice p 196 16 16 = r.armedBoot.nonce := slice_of_get (by simp only [values]) (by omega)
  have claimed : slice p 213 16 16 = r.claimedBoot.nonce := slice_of_get (by simp only [values]) (by omega)
  have evidence : slice p 256 32 32 = r.evidenceDigest := slice_of_get (by simp only [values]) (by omega)
  have armedV : (byteAt p 212 != 0) = r.armedBoot.verified := boot_eq (by simp only [values])
  have claimedV : (byteAt p 229 != 0) = r.claimedBoot.verified := boot_eq (by simp only [values])
  simp only [unwire, binding, armed, claimed, evidence, armedV, claimedV, values, phaseOf_phaseByte,
    captureOf_captureByte]

theorem inWords_unwire (p : ByteFields.Bytes 1536) : InWords (unwire p) := ⟨get_lt p 232 8, get_lt p 240 8⟩

theorem listed_of_shape (h : shape r = true) :
    r.phase ≠ .unlisted ∧ r.capture ≠ .unlisted ∧ r.binding.recovery ≠ .unlisted := by
  simp only [shape, Bool.and_eq_true, Bool.or_eq_true, beq_iff_eq, bne_iff_ne, ne_eq] at h
  obtain ⟨⟨⟨⟨⟨⟨⟨⟨⟨⟨⟨⟨-, valid⟩, -⟩, phase⟩, capture⟩, -⟩, -⟩, -⟩, -⟩, -⟩, -⟩, -⟩, -⟩ := h
  refine ⟨phase, fun other => ?_, fun other => ?_⟩
  · rw [other] at capture
    revert capture
    decide
  · simp [validBinding, other] at valid

/-- What is read as a record, with nothing in the gaps, is that record's bytes. -/
theorem wire_unwire (shaped : shape (unwire p) = true)
    (header : get p 0 4 = magic ∧ get p 4 2 = codecVersion ∧ get p 6 2 = wireSize)
    (boots : ¬1 < byteAt p 212 ∧ ¬1 < byteAt p 229) (gap : byteAt p 230 = 0 ∧ byteAt p 231 = 0)
    (tail : zeros p wireSize 1536 = true) : wire (unwire p) (zero 1536) = p := by
  obtain ⟨phase, capture, recovery⟩ := listed_of_shape shaped
  rw [wire_eq]
  refine record_eq (payloadLayout_fits shaped (inWords_unwire p)) (width_payloadLayout _) ?_
  simp only [payloadLayout, bindingLayout, widths, List.map_cons, List.map_nil, List.cons_append,
    List.nil_append, getAll, Nat.zero_add, Nat.reduceAdd, get_one]
  have reserved : get p 230 2 = 0 := by
    rw [get_eq_zero_iff]
    intro i low high
    obtain rfl | rfl : i = 230 ∨ i = 231 := by omega
    · exact gap.1
    · exact gap.2
  have mac : get (unwire p).binding.mac 0 6 = get p 16 6 := get_slice p 16 6 (Nat.le_refl _)
  have nonce : get (unwire p).binding.nonce 0 16 = get p 48 16 := get_slice p 48 16 (Nat.le_refl _)
  have first : get (unwire p).binding.slotHashes.1 0 32 = get p 64 32 := get_slice p 64 32 (Nat.le_refl _)
  have second : get (unwire p).binding.slotHashes.2 0 32 = get p 96 32 := get_slice p 96 32 (Nat.le_refl _)
  have contract : get (unwire p).binding.contractDigest 0 32 = get p 128 32 := get_slice p 128 32 (Nat.le_refl _)
  have receipt : get (unwire p).binding.source131ReceiptDigest 0 32 = get p 160 32 :=
    get_slice p 160 32 (Nat.le_refl _)
  have armed : get (unwire p).armedBoot.nonce 0 16 = get p 196 16 := get_slice p 196 16 (Nat.le_refl _)
  have claimed : get (unwire p).claimedBoot.nonce 0 16 = get p 213 16 := get_slice p 213 16 (Nat.le_refl _)
  have evidence : get (unwire p).evidenceDigest 0 32 = get p 256 32 := get_slice p 256 32 (Nat.le_refl _)
  have phase_ : phaseByte (unwire p).phase = byteAt p 10 := phaseByte_phaseOf phase
  have capture_ : captureByte (unwire p).capture = byteAt p 11 := captureByte_captureOf capture
  have recovery_ : recoveryByte (unwire p).binding.recovery = byteAt p 27 := recoveryByte_recoveryOf recovery
  have armedByte : (byteAt p 212).toNat = bootByte (unwire p).armedBoot := bootByte_eq boots.1
  have claimedByte : (byteAt p 229).toNat = bootByte (unwire p).claimedBoot := bootByte_eq boots.2
  have build : (byteAt p 26).toNat = (unwire p).binding.identity.build := (get_one p 26).symm
  have rest : get p 288 1248 = 0 := get_of_zeros tail 1248 (by decide)
  rw [header.1, header.2.1, header.2.2, mac, nonce, first, second, contract, receipt, armed, claimed,
    evidence, phase_, capture_, recovery_, armedByte, claimedByte, build, reserved, rest]
  rfl

end Reading

def holder (r : Record) (d : Digest) : StoreRecord where
  sequence := .ofNat r.sequence
  phase := phaseByte r.phase
  nonce := r.binding.nonce
  binding := d
  size := .ofNat wireSize
  payload := wire r (zero _)

theorem anyNonzero_eq {n : Nat} (v : ByteFields.Bytes n) : anyNonzero v = nonzero v := by
  rw [Bool.eq_iff_iff, anyNonzero, Vector.any_eq_true, nonzero, bne_iff_ne]
  constructor
  · rintro ⟨i, hi, some_⟩ rfl
    simp [ColdTrial.zeros] at some_
  · intro other
    by_contra none_
    refine other (Vector.ext fun i hi => ?_)
    rw [ColdTrial.zeros, Vector.getElem_replicate]
    by_contra some_
    exact none_ ⟨i, hi, bne_iff_ne.mpr some_⟩

theorem encode_some (h : encode r e d = some s) :
    canonical r = true ∧ validBinding e = true ∧ r.binding = e ∧ nonzero d = true ∧
      Nand.ColdStore.shape s = true ∧ s = holder r d := by
  unfold encode at h
  split at h
  · cases h
  · rename_i checks
    simp only [not_or, Bool.not_eq_true', Bool.not_eq_false, beq_iff_eq] at checks
    obtain ⟨canon, valid, same, some_⟩ := checks
    dsimp only at h
    split at h
    · rename_i shaped
      rw [Option.some.inj h] at shaped
      exact ⟨canon, valid, same, some_, shaped, (Option.some.inj h).symm⟩
    · cases h

theorem shape_of_canonical (h : canonical r = true) : shape r = true := by
  simp only [canonical, Bool.and_eq_true] at h
  exact h.1.2

theorem values_wire (canon : canonical r = true) (words : InWords r) :
    getAll (wire r (zero 1536)) 0 (widths (payloadLayout r)) = (payloadLayout r).map Prod.snd := by
  rw [wire_eq]
  exact getAll_record (payloadLayout_fits (shape_of_canonical canon) words) (Nat.le_of_eq (width_payloadLayout r))

/-- The bytes that the fields leave open are as the decoder asks. -/
theorem header_wire {p : ByteFields.Bytes 1536}
    (values : getAll p 0 (widths (payloadLayout r)) = (payloadLayout r).map Prod.snd) :
    ¬(get p 0 4 ≠ magic ∨ get p 4 2 ≠ codecVersion ∨ get p 6 2 ≠ wireSize ∨ 1 < byteAt p 212 ∨
      1 < byteAt p 229 ∨ byteAt p 230 ≠ 0 ∨ byteAt p 231 ≠ 0) ∧ zeros p wireSize 1536 = true := by
  simp only [payloadLayout, bindingLayout, widths, List.map_cons, List.map_nil, List.cons_append, List.nil_append,
    getAll, Nat.zero_add, Nat.reduceAdd, List.cons.injEq, and_true, get_one] at values
  have boots : ∀ {v : UInt8} {t : BootToken}, v.toNat = bootByte t → ¬1 < v := by
    intro v t same
    rw [UInt8.lt_iff_toNat_lt, same, bootByte]
    split <;> decide
  have armed : (byteAt p 212).toNat = bootByte r.armedBoot := by simp only [values]
  have claimed : (byteAt p 229).toNat = bootByte r.claimedBoot := by simp only [values]
  have gap : get p 230 2 = 0 := by simp only [values]
  rw [get_eq_zero_iff] at gap
  have low : byteAt p 230 = 0 := gap 230 (by omega) (by omega)
  have high : byteAt p 231 = 0 := gap 231 (by omega) (by omega)
  refine ⟨?_, zeros_of_get 1248 (by simp only [values]) (by decide)⟩
  simp only [values, low, high, boots armed, boots claimed]
  decide

/-- The store takes what a capsule is put into. -/
theorem shape_holder (canon : canonical r = true) (words : InWords r) (some_ : nonzero d = true) :
    Nand.ColdStore.shape (holder r d) = true := by
  have shaped := shape_of_canonical canon
  have listed := (listed_of_shape shaped).1
  have tail := (header_wire (values_wire canon words)).2
  simp only [shape, validBinding, Bool.and_eq_true, bne_iff_ne] at shaped
  obtain ⟨⟨⟨⟨⟨⟨⟨⟨⟨⟨⟨⟨⟨-, positive⟩, valid⟩, -⟩, -⟩, -⟩, -⟩, -⟩, -⟩, -⟩, -⟩, -⟩, reached⟩, -⟩ := shaped
  obtain ⟨⟨⟨⟨⟨-, nonce⟩, -⟩, -⟩, -⟩, -⟩ := valid
  have bound := sequence_le reached
  have sequence : (holder r d).sequence ≠ 0 := by
    intro zero
    have same : (holder r d).sequence.toNat = r.sequence := UInt64.toNat_ofNat_of_lt' (show _ < 2 ^ 64 by omega)
    rw [zero] at same
    exact positive same.symm
  have phase : (holder r d).phase ≠ 0 := by
    show phaseByte r.phase ≠ 0
    revert listed
    cases r.phase <;> decide
  have size : (holder r d).size.toNat = wireSize := UInt16.toNat_ofNat_of_lt' (by decide)
  have nonce : anyNonzero (holder r d).nonce = true := (anyNonzero_eq _).trans nonce
  have digest : anyNonzero (holder r d).binding = true := (anyNonzero_eq _).trans some_
  simp only [Nand.ColdStore.shape, size, nonce, digest, Bool.and_eq_true, bne_iff_ne, decide_eq_true_eq]
  exact ⟨⟨⟨⟨⟨sequence, phase⟩, trivial⟩, trivial⟩, by decide⟩, tail⟩

theorem encode_iff (words : InWords r) : (canonical r = true ∧ validBinding e = true ∧ r.binding = e ∧
    nonzero d = true) ↔ ∃ s, encode r e d = some s := by
  constructor
  · rintro ⟨canon, valid, same, some_⟩
    refine ⟨holder r d, ?_⟩
    unfold encode
    rw [if_neg (by simp [canon, valid, same, some_])]
    show (if Nand.ColdStore.shape (holder r d) then some (holder r d) else none) = some (holder r d)
    rw [shape_holder canon words some_, if_pos rfl]
  · rintro ⟨s, made⟩
    obtain ⟨canon, valid, same, some_, -, -⟩ := encode_some made
    exact ⟨canon, valid, same, some_⟩

theorem decode_encode (words : InWords r) (h : encode r e d = some s) : decode s e d = some r := by
  obtain ⟨canon, valid, same, some_, shaped, rfl⟩ := encode_some h
  have values := values_wire canon words
  have back : unwire (holder r d).payload = r := unwire_eq values
  have header := (header_wire (p := (holder r d).payload) values).1
  have small : r.sequence < 2 ^ 64 := by
    have whole := shape_of_canonical canon
    simp only [shape, Bool.and_eq_true] at whole
    have := sequence_le whole.1.2
    omega
  have sequence : (holder r d).sequence.toNat = r.sequence := UInt64.toNat_ofNat_of_lt' small
  have size : (holder r d).size.toNat = wireSize := UInt16.toNat_ofNat_of_lt' (by decide)
  have digest : (holder r d).binding = d := rfl
  have phase : (holder r d).phase = phaseByte r.phase := rfl
  have nonce : (holder r d).nonce = r.binding.nonce := rfl
  unfold decode
  dsimp only
  rw [back, if_neg, if_neg header, if_neg]
  · simp [sequence, phase, nonce, same, canon]
  · simp [shaped, valid, some_, size, digest]

theorem encode_decode (h : decode s e d = some r) : InWords r ∧ encode r e d = some s := by
  simp only [decode] at h
  split at h
  · cases h
  rename_i outer
  split at h
  · cases h
  rename_i header
  split at h
  · cases h
  rename_i checks
  obtain rfl := Option.some.inj h
  simp only [not_or, Bool.not_eq_true', Bool.not_eq_false, not_not, ne_eq, beq_iff_eq] at outer header checks
  obtain ⟨shaped, size, valid, some_, digest⟩ := outer
  obtain ⟨magic_, version, length, armed, claimed, low, high⟩ := header
  obtain ⟨sequence, phase, nonce, same, canon⟩ := checks
  have tail : zeros s.payload wireSize 1536 = true := by
    rw [← size]
    exact (Nand.ColdStore.shape_iff shaped).2
  have whole := wire_unwire (shape_of_canonical canon) ⟨magic_, version, length⟩ ⟨armed, claimed⟩
      ⟨low, high⟩ tail
  have record_ : holder (unwire s.payload) d = s := by
    rw [holder, whole, ← sequence, ← phase, ← nonce, ← digest, ← size, UInt64.ofNat_toNat, UInt16.ofNat_toNat]
  refine ⟨inWords_unwire s.payload, ?_⟩
  unfold encode
  rw [if_neg (by simp [canon, valid, same, some_])]
  show (if Nand.ColdStore.shape (holder (unwire s.payload) d) then some (holder (unwire s.payload) d)
      else none) = some s
  rw [record_, if_pos shaped]

end Mosaico.Gauge.ColdCapsule
