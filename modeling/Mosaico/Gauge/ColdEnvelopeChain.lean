import Mosaico.Gauge.ColdEnvelope
import Mosaico.Gauge.ColdCapsuleLayout
import Mosaico.Gauge.ColdEvidenceLayout

/-! Envelopes that were encoded decode to what went into them, and along every chain of
accepted envelopes the evidence is only appended. -/
namespace Mosaico.Gauge.ColdEnvelope

open ByteFields ColdTrial ColdCapsule
open ColdEvidence (Frame Wire Kind)

/-! ## The layout of an envelope -/

section Layout

variable {metadata : Record} {frames : Frames} {count : Nat} {expected : Binding}
  {bindingDigest : Digest} {hash : Hasher} {s : StoreRecord}

abbrev Payload := ByteFields.Bytes Nand.ColdStore.payloadMax

def header (count : Nat) : Payload :=
  put (put (put (put (put (put (zero _) 0 magic 4) 4 1 2) 6 headerSize 2)
    8 ColdCapsule.wireSize 2) 10 ColdEvidence.wireSize 2) 12 count 1

def packed (inner : Payload) (frames : Frames) (count : Nat) : Payload :=
  blitRows (blit (header count) headerSize inner ColdCapsule.wireSize) rawOffset
    (frames.toList.take count)

def unsealed (inner : StoreRecord) (frames : Frames) (count : Nat) : StoreRecord :=
  { inner with size := .ofNat (payloadSize count), payload := packed inner.payload frames count }

def sealed (inner : StoreRecord) (frames : Frames) (count : Nat) (rawHash : Digest) : StoreRecord :=
  { inner with
    size := .ofNat (payloadSize count),
    payload := blit (packed inner.payload frames count) 16 rawHash 32 }

theorem toList_frames (frames : Frames) : frames.toList = [frames[0], frames[1]] := by
  apply List.ext_getElem
  · simp
  · intro i hi _
    match i with
    | 0 => simp
    | 1 => simp
    | i + 2 => simp at hi

theorem packed_eq (inner : Payload) (frames : Frames) (few : count ≤ maxFrames) :
    packed inner frames count =
      let p := blit (header count) headerSize inner ColdCapsule.wireSize
      let p := if 0 < count then blit p rawOffset frames[0] ColdEvidence.wireSize else p
      if 1 < count then blit p (rawOffset + ColdEvidence.wireSize) frames[1] ColdEvidence.wireSize
      else p := by
  unfold packed
  rw [toList_frames]
  match count, few with
  | 0, _ => rfl
  | 1, _ => rfl
  | 2, _ => rfl

theorem encodeInto_some
    (h : encodeInto metadata frames count expected bindingDigest hash = some s) :
    count ≤ maxFrames ∧ ∃ inner rawHash, ColdCapsule.encode metadata expected bindingDigest = some inner ∧
      rawDigest (unsealed inner frames count) count hash = some rawHash ∧
      s = sealed inner frames count rawHash ∧ Nand.ColdStore.shape s = true ∧
      frameRules { metadata := metadata, frames := frames, count := count, rawHash := rawHash } = true := by
  by_cases many : maxFrames < count
  · simp only [encodeInto, if_pos many, Option.bind_eq_bind, Option.bind_none] at h
    cases h
  · have few := Nat.le_of_not_lt many
    simp only [encodeInto, if_neg many, Option.bind_eq_bind] at h
    obtain ⟨inner, encoded, h⟩ := Option.bind_eq_some_iff.mp h
    obtain ⟨rawHash, digest, h⟩ := Option.bind_eq_some_iff.mp h
    have same := packed_eq inner.payload frames few
    dsimp only [header] at same digest h
    rw [← same] at digest h
    by_cases rules : Nand.ColdStore.shape (sealed inner frames count rawHash) = true ∧
        frameRules { metadata := metadata, frames := frames, count := count, rawHash := rawHash } = true
    · have made : s = sealed inner frames count rawHash := by grind [sealed]
      rw [made]
      exact ⟨few, inner, rawHash, encoded, digest, rfl, rules.1, rules.2⟩
    · rw [if_pos (by grind [sealed])] at h
      cases h

variable {inner : StoreRecord} {rawHash : Digest}

theorem room (frames : Frames) (few : count ≤ maxFrames) :
    (frames.toList.take count).length = count ∧
      rawOffset + (frames.toList.take count).length * ColdEvidence.wireSize ≤ Nand.ColdStore.payloadMax := by
  have length : (frames.toList.take count).length = count := by
    rw [List.length_take, Vector.length_toList, Nat.min_eq_left few]
  rw [length]
  refine ⟨rfl, ?_⟩
  have := Nat.mul_le_mul_right ColdEvidence.wireSize few
  simp only [rawOffset, headerSize, ColdCapsule.wireSize, ColdEvidence.wireSize, maxFrames,
    Nand.ColdStore.payloadMax] at *
  omega

/-- In front of the hash the payload is the header. -/
theorem byteAt_before {i : Nat} (h : i < 16) :
    byteAt (sealed inner frames count rawHash).payload i = byteAt (header count) i := by
  show byteAt (blit (packed inner.payload frames count) 16 rawHash 32) i = _
  rw [byteAt_blit_of_not_mem _ _ _ _ _ (.inl h), packed,
    byteAt_blitRows_of_not_mem _ _ _ _ (.inl (by simp only [rawOffset, headerSize]; omega)),
    byteAt_blit_of_not_mem _ _ _ _ _ (.inl (by simp only [headerSize]; omega))]

theorem get_before {q w : Nat} (h : q + w ≤ 16) :
    get (sealed inner frames count rawHash).payload q w = get (header count) q w :=
  get_congr fun i _ last => byteAt_before (by omega)

/-- Behind the hash it is what was packed. -/
theorem byteAt_behind {i : Nat} (h : headerSize ≤ i) :
    byteAt (sealed inner frames count rawHash).payload i = byteAt (packed inner.payload frames count) i :=
  byteAt_blit_of_not_mem _ _ _ _ _ (.inr h)

theorem slice_rawHash : slice (sealed inner frames count rawHash).payload 16 32 32 = rawHash :=
  slice_blit _ _ _ _ (by decide) fun _ first last => by omega

theorem innerOf_sealed (shaped : Nand.ColdStore.shape inner = true)
    (size : inner.size = .ofNat ColdCapsule.wireSize) :
    innerOf (sealed inner frames count rawHash) = inner := by
  have tail := (Nand.ColdStore.shape_iff shaped).2
  rw [size, zeros_iff] at tail
  have payload : slice (sealed inner frames count rawHash).payload headerSize ColdCapsule.wireSize
      Nand.ColdStore.payloadMax = inner.payload := by
    rw [slice_congr fun i first _ => byteAt_behind first, packed,
      slice_congr fun i _ last => byteAt_blitRows_of_not_mem _ _ _ _ (.inl last)]
    exact slice_blit _ _ _ _ (by decide) tail
  unfold innerOf
  rw [payload, ← size]
  rfl

theorem framesOf_sealed (few : count ≤ maxFrames)
    (rest : ∀ i (hi : i < maxFrames), count ≤ i → frames[i] = zero _) :
    framesOf (sealed inner frames count rawHash) count = frames := by
  obtain ⟨length, fits⟩ := room frames few
  apply Vector.ext
  intro i hi
  rw [framesOf, Vector.getElem_ofFn]
  dsimp only
  split
  · rename_i inside
    rw [slice_congr fun j first _ => byteAt_behind (Nat.le_trans (by simp only [rawOffset]; omega) first),
      packed, slice_blitRows _ _ _ _ (by rw [length]; exact inside) fits, List.getElem_take,
      Vector.getElem_toList]
  · exact (rest i hi (by omega)).symm

theorem rawBytes_congr {s t : StoreRecord}
    (same : ∀ i, rawOffset ≤ i → byteAt s.payload i = byteAt t.payload i) :
    rawBytes s count = rawBytes t count := by
  unfold rawBytes
  congr 1
  apply List.ext_getElem
  · simp
  · intro i hi _
    rw [List.length_drop, Vector.length_toList] at hi
    have := same (rawOffset + i) (Nat.le_add_right _ _)
    simpa [byteAt, show rawOffset + i < Nand.ColdStore.payloadMax by omega] using this

def headerFields (count : Nat) : RecordLayout.Layout :=
  [(4, magic), (2, 1), (2, headerSize), (2, ColdCapsule.wireSize), (2, ColdEvidence.wireSize), (1, count)]

theorem header_eq (count : Nat) : header count = RecordLayout.record _ (headerFields count) := by
  rw [header, RecordLayout.record_nil, RecordLayout.put_next magic 4 (by simp),
    RecordLayout.put_next 1 2 (by simp), RecordLayout.put_next headerSize 2 (by simp),
    RecordLayout.put_next ColdCapsule.wireSize 2 (by simp),
    RecordLayout.put_next ColdEvidence.wireSize 2 (by simp), RecordLayout.put_next count 1 (by simp)]
  rfl

private theorem headerFields_fits (few : count ≤ maxFrames) : RecordLayout.Fits (headerFields count) := by
  simp only [headerFields, RecordLayout.fits_cons, RecordLayout.fits_nil, and_true]
  exact ⟨by decide, by decide, by decide, by decide, by decide, Nat.lt_of_le_of_lt few (by decide)⟩

theorem wellFramed_sealed (few : count ≤ maxFrames)
    (shaped : Nand.ColdStore.shape (sealed inner frames count rawHash) = true) :
    wellFramed (sealed inner frames count rawHash) = true ∧
      (byteAt (sealed inner frames count rawHash).payload 12).toNat = count := by
  have values := RecordLayout.getAll_record (n := Nand.ColdStore.payloadMax) (headerFields_fits few)
    (Nat.le_trans (by simp [headerFields]) (show 13 ≤ Nand.ColdStore.payloadMax by decide))
  rw [← header_eq] at values
  simp only [headerFields, RecordLayout.widths, List.map_cons, List.map_nil, getAll, Nat.zero_add, Nat.reduceAdd,
    List.cons.injEq, and_true] at values
  have number : (byteAt (sealed inner frames count rawHash).payload 12).toNat = count := by
    rw [← RecordLayout.get_one, get_before (by decide), values.2.2.2.2.2]
  have size : (sealed inner frames count rawHash).size.toNat = payloadSize count := by
    have fits := (room frames few).2
    rw [(room frames few).1] at fits
    exact UInt16.toNat_ofNat_of_lt' (Nat.lt_of_le_of_lt fits (by decide))
  have gap : zeros (sealed inner frames count rawHash).payload 13 16 = true := by
    rw [zeros_iff]
    intro i first last
    rw [byteAt_before last, header_eq]
    exact RecordLayout.byteAt_record_of_le _ first
  refine ⟨?_, number⟩
  unfold wellFramed
  dsimp only
  simp only [number, size, shaped, gap, get_before, values, Nat.reduceAdd, Nat.reduceLeDiff, payloadSize,
    Nat.le_add_right, few, decide_true, beq_self_eq_true, Bool.and_self]

/-- What was encoded decodes to what went into it. -/
theorem decodeInto_encodeInto (words : InWords metadata)
    (rest : ∀ i (hi : i < maxFrames), count ≤ i → frames[i] = zero _)
    (h : encodeInto metadata frames count expected bindingDigest hash = some s)
    (hashed : rawDigest (unsealed (holder metadata bindingDigest) frames count) count hash = some rawHash) :
    decodeInto s expected bindingDigest hash =
      some { metadata := metadata, frames := frames, count := count, rawHash := rawHash } := by
  obtain ⟨few, inner, actual, encoded, digest, rfl, shaped, rules⟩ := encodeInto_some h
  obtain rfl : actual = rawHash := by
    obtain ⟨-, -, -, -, -, rfl⟩ := encode_some encoded
    exact Option.some.inj (digest.symm.trans hashed)
  obtain ⟨framed, number⟩ := wellFramed_sealed few shaped
  obtain ⟨-, -, -, -, whole, made⟩ := encode_some encoded
  have held : innerOf (sealed inner frames count actual) = inner := by
    apply innerOf_sealed whole
    rw [made]
    rfl
  have digest : rawDigest (sealed inner frames count actual) count hash = some actual := by
    have bytes :
        rawBytes (sealed inner frames count actual) count = rawBytes (unsealed inner frames count) count :=
      rawBytes_congr fun i first => byteAt_behind (Nat.le_trans (by simp only [rawOffset]; omega) first)
    rw [← digest, rawDigest, rawDigest, bytes]
  simp only [decodeInto, framed, number, held, ColdCapsule.decode_encode words encoded,
    framesOf_sealed few rest, digest, slice_rawHash, rules, Option.bind_eq_bind, Option.bind_some,
    Bool.not_true, Bool.false_eq_true, if_false, ne_eq, not_true, or_self]

/-- The store takes what an envelope is sealed into. -/
theorem shape_sealed (few : count ≤ maxFrames) (shaped : Nand.ColdStore.shape inner = true) :
    Nand.ColdStore.shape (sealed inner frames count rawHash) = true := by
  obtain ⟨length, fits⟩ := room frames few
  rw [length] at fits
  have size : (sealed inner frames count rawHash).size.toNat = payloadSize count :=
    UInt16.toNat_ofNat_of_lt' (Nat.lt_of_le_of_lt fits (by decide))
  have tail : zeros (sealed inner frames count rawHash).payload (payloadSize count)
      Nand.ColdStore.payloadMax = true := by
    rw [zeros_iff]
    intro i first _
    have behind : rawOffset ≤ i := Nat.le_trans (Nat.le_add_right _ _) first
    rw [byteAt_behind (Nat.le_trans (by simp only [rawOffset]; omega) behind), packed,
      byteAt_blitRows_of_not_mem _ _ _ _ (.inr (by rw [length]; exact first)),
      byteAt_blit_of_not_mem _ _ _ _ _ (.inr behind), header_eq]
    exact RecordLayout.byteAt_record_of_le _ (Nat.le_trans (show 13 ≤ rawOffset by decide) behind)
  simp only [Nand.ColdStore.shape, Bool.and_eq_true, decide_eq_true_eq] at shaped ⊢
  rw [size]
  exact ⟨⟨shaped.1.1, fits⟩, tail⟩

/-- Every envelope that keeps the rules is encoded. -/
theorem encodeInto_of_rules (words : InWords metadata) (few : count ≤ maxFrames)
    (canon : canonical metadata = true) (bound : metadata.binding = expected)
    (digested : nonzero bindingDigest = true)
    (digest : rawDigest (unsealed (holder metadata bindingDigest) frames count) count hash = some rawHash)
    (rules : frameRules { metadata := metadata, frames := frames, count := count, rawHash := rawHash } = true) :
    ∃ s, encodeInto metadata frames count expected bindingDigest hash = some s := by
  have valid : validBinding expected = true := by
    have shaped := shape_of_canonical canon
    simp only [shape, Bool.and_eq_true, bound] at shaped
    grind
  obtain ⟨inner, encoded⟩ := (encode_iff words).mp ⟨canon, valid, bound, digested⟩
  obtain ⟨-, -, -, -, whole, rfl⟩ := encode_some encoded
  have same := packed_eq (holder metadata bindingDigest).payload frames few
  have shaped : Nand.ColdStore.shape (sealed (holder metadata bindingDigest) frames count rawHash) = true :=
    shape_sealed few whole
  refine ⟨sealed (holder metadata bindingDigest) frames count rawHash, ?_⟩
  simp only [encodeInto, if_neg (Nat.not_lt.mpr few), encoded, Option.bind_eq_bind, Option.bind_some]
  dsimp only [header] at same
  rw [unsealed] at digest
  rw [← same, digest, Option.bind_some, if_neg]
  · rfl
  · rw [sealed] at shaped
    rw [shaped, rules]
    decide

end Layout

/-- Envelopes of a chain hold ever more evidence, and a captured one holds its two frames. -/
structure AppendOnly (p : Policy) (records : List StoreRecord) : Prop where
  grows : records.Pairwise (Extends p)
  bounded : ∀ s ∈ records, ∀ d, p.decode s = some d → d.count ≤ maxFrames
  captured : ∀ s ∈ records, ∀ d, p.decode s = some d →
    d.metadata.phase = .captured ∨ d.metadata.capture = .success →
    ∃ first last, CaptureHeld d first last

/-- Along every chain, each envelope accepted after the one before it, evidence is only
appended, and a captured envelope holds its frames. -/
theorem evidence_append_only (p : Policy) (records : List StoreRecord)
    (accepted : records.IsChain fun a b => p.transition a b = true) : AppendOnly p records where
  grows := by
    have : IsTrans StoreRecord (Extends p) := ⟨fun _ _ _ => extends_trans⟩
    exact (accepted.imp fun _ _ => extends_of_transition).pairwise
  bounded _ _ _ h := (decode_rules h).2.2
  captured _ _ d h held := by
    obtain ⟨rules, shaped, -⟩ := decode_rules h
    apply captureHeld_of_rules rules
    cases held with
    | inl phase => exact success_of_captured shaped phase
    | inr success => exact success


/-! ## One trial, from arming to capture -/

def ones (n : Nat) : ColdTrial.Bytes n := Vector.replicate n 1

def trialBinding : Binding :=
  { mac := Vector.replicate 6 2, originalGctGeneration := 1, originalGctEpoch := 1, nonce := ones 16,
    recovery := .contractDigest, contractDigest := ones 32, source131ReceiptDigest := ones 32 }

def trialPolicy : Policy where
  expected := trialBinding
  bindingDigest := ones 32
  hash _ := some (ones 32)

def trialFrame (kind : Kind) (us : UInt64) : Frame where
  kind := kind
  bootNonce := Vector.replicate 16 2
  standard := { sampledUs := us, validMask := allRaw }
  engine :=
    { sampledUs := us, validMask := 0x1fff, echo73 := 0x73, echo76 := 0x76, echo02 := 2,
      rawIdentity := #v[2, 0x20, 0, 3, 0, 4, 0, 0, 0, 0, 0] }

def armed : Decoded where
  metadata :=
    { binding := trialBinding, sequence := 1, phase := .armed, armedBoot := ⟨ones 16, true⟩, armedMs := 5 }

def handedOff : Decoded where
  metadata := { armed.metadata with sequence := 2, phase := .handedOff, handoffMs := 7 }

def claimed : Decoded where
  metadata :=
    { handedOff.metadata with
      sequence := 3, phase := .captureClaimed, claimedBoot := ⟨Vector.replicate 16 2, true⟩, claimMs := 2 }
  frames := #v[ColdEvidence.image (trialFrame .initial 1000), zero _]
  count := 1
  rawHash := ones 32

def captured : Decoded where
  metadata :=
    { claimed.metadata with sequence := 4, phase := .captured, capture := .success, evidenceDigest := ones 32 }
  frames := #v[ColdEvidence.image (trialFrame .initial 1000), ColdEvidence.image (trialFrame .final 3000)]
  count := 2
  rawHash := ones 32

def envelope (d : Decoded) : Option StoreRecord :=
  encodeInto d.metadata d.frames d.count trialBinding (ones 32) trialPolicy.hash

theorem decode_image {f : Frame} (shaped : ColdEvidence.shape f = true) :
    ColdEvidence.decode (ColdEvidence.image f) = some f :=
  ColdEvidence.decode_encode (ColdEvidence.encode_eq shaped)

private theorem claimed_rules : frameRules claimed = true := by
  have first : firstFrame claimed = some (trialFrame .initial 1000) := decode_image (by decide +kernel)
  have last : lastFrame claimed = some (trialFrame .initial 1000) := decode_image (by decide +kernel)
  rw [frameRules, first, last]
  decide +kernel

private theorem captured_rules : frameRules captured = true := by
  have first : firstFrame captured = some (trialFrame .initial 1000) := decode_image (by decide +kernel)
  have last : lastFrame captured = some (trialFrame .final 3000) := decode_image (by decide +kernel)
  rw [frameRules, first, last]
  decide +kernel

/-- Each step of the trial keeps the rules and is accepted. -/
private theorem trial_rules : ∀ d ∈ [armed, handedOff, claimed, captured], frameRules d = true ∧
    canonical d.metadata = true ∧ d.count ≤ maxFrames ∧ InWords d.metadata ∧
    d.metadata.binding = trialBinding := by
  intro d mem
  simp only [List.mem_cons, List.not_mem_nil, or_false] at mem
  obtain rfl | rfl | rfl | rfl := mem
  · exact ⟨by decide +kernel, by decide +kernel, by decide, ⟨by decide +kernel, by decide +kernel⟩, rfl⟩
  · exact ⟨by decide +kernel, by decide +kernel, by decide, ⟨by decide +kernel, by decide +kernel⟩, rfl⟩
  · exact ⟨claimed_rules, by decide +kernel, by decide, ⟨by decide +kernel, by decide +kernel⟩, rfl⟩
  · exact ⟨captured_rules, by decide +kernel, by decide, ⟨by decide +kernel, by decide +kernel⟩, rfl⟩

theorem trial_accepted : transitionDecoded armed handedOff = true ∧
    transitionDecoded handedOff claimed = true ∧ transitionDecoded claimed captured = true := by
  refine ⟨by decide +kernel, by decide +kernel, ?_⟩
  have kept : keepsFrames claimed captured = true := by
    have first : captured.frames[0] = claimed.frames[0] := by
      simp only [captured, claimed, Vector.getElem_mk, List.getElem_toArray, List.getElem_cons_zero]
    rw [keepsFrames, toList_frames, toList_frames, beq_iff_eq, first,
      show claimed.count = 1 from rfl, List.take_succ_cons, List.take_succ_cons, List.take_zero, List.take_zero]
  rw [transitionDecoded, kept]
  decide +kernel

/-- Every envelope of the trial is encoded, and decodes to its step. -/
private theorem envelope_decodes {d : Decoded} (mem : d ∈ [armed, handedOff, claimed, captured])
    (digest : ∀ inner, rawDigest (unsealed inner d.frames d.count) d.count trialPolicy.hash = some d.rawHash)
    (rest : ∀ i (hi : i < maxFrames), d.count ≤ i → d.frames[i] = zero _) :
    ∃ s, envelope d = some s ∧ trialPolicy.decode s = some d := by
  obtain ⟨rules, canon, few, words, bound⟩ := trial_rules d mem
  have digested : nonzero (ones 32) = true := by decide +kernel
  obtain ⟨s, encoded⟩ := encodeInto_of_rules words few canon bound digested (digest _) rules
  exact ⟨s, encoded, decodeInto_encodeInto words rest encoded (digest _)⟩

theorem trial_decodes : ∃ a b c d,
    (trialPolicy.decode a = some armed ∧ trialPolicy.decode b = some handedOff) ∧
    (trialPolicy.decode c = some claimed ∧ trialPolicy.decode d = some captured) ∧
    [armed, handedOff, claimed, captured].map envelope = [some a, some b, some c, some d] := by
  have none_ : ∀ i (hi : i < maxFrames),
      (Vector.replicate maxFrames (zero ColdEvidence.wireSize))[i] = zero _ :=
    fun i hi => Vector.getElem_replicate hi
  obtain ⟨a, encodedA, decodedA⟩ :=
    envelope_decodes (d := armed) (by simp) (fun _ => rfl) fun i hi _ => none_ i hi
  obtain ⟨b, encodedB, decodedB⟩ :=
    envelope_decodes (d := handedOff) (by simp) (fun _ => rfl) fun i hi _ => none_ i hi
  have second : ∀ i (hi : i < maxFrames), claimed.count ≤ i → claimed.frames[i] = zero _ := by
    intro i hi behind
    obtain rfl : i = 1 := Nat.le_antisymm (Nat.le_of_lt_succ hi) behind
    simp only [claimed, Vector.getElem_mk, List.getElem_toArray, List.getElem_cons_succ, List.getElem_cons_zero]
  obtain ⟨c, encodedC, decodedC⟩ := envelope_decodes (d := claimed) (by simp) (fun _ => rfl) second
  obtain ⟨d, encodedD, decodedD⟩ := envelope_decodes (d := captured) (by simp) (fun _ => rfl)
    fun i hi behind => absurd hi (Nat.not_lt.mpr behind)
  refine ⟨a, b, c, d, ⟨decodedA, decodedB⟩, ⟨decodedC, decodedD⟩, ?_⟩
  simp only [List.map_cons, List.map_nil, encodedA, encodedB, encodedC, encodedD]

private theorem transition_of_decoded {p : Policy} {s t : StoreRecord} {a b : Decoded} (first : p.decode s = some a)
    (second : p.decode t = some b) (h : transitionDecoded a b = true) : p.transition s t = true := by
  unfold Policy.transition
  rw [first, second]
  exact h

/-- A trial whose four envelopes were encoded, the last with both frames. -/
theorem evidence_append_only_trial : ∃ records, AppendOnly trialPolicy records ∧
    [armed, handedOff, claimed, captured].map envelope = records.map some ∧
    records.IsChain (fun a b => trialPolicy.transition a b = true) := by
  obtain ⟨a, b, c, d, ⟨decodedA, decodedB⟩, ⟨decodedC, decodedD⟩, encoded⟩ := trial_decodes
  obtain ⟨first, second, third⟩ := trial_accepted
  have accepted : [a, b, c, d].IsChain fun a b => trialPolicy.transition a b = true := by
    simp only [List.isChain_cons_cons]
    exact ⟨transition_of_decoded decodedA decodedB first, transition_of_decoded decodedB decodedC second,
      transition_of_decoded decodedC decodedD third, .singleton d⟩
  exact ⟨[a, b, c, d], evidence_append_only trialPolicy [a, b, c, d] accepted, encoded, accepted⟩

end Mosaico.Gauge.ColdEnvelope
