import Mosaico.Gauge.FccRepair

/-! The record of the repair's journal, `mosaico_fcc_limit_journal_codec.h`: what it accepts is
what it writes. -/
namespace Mosaico.Gauge.FccRepair

open ByteFields

abbrev Record := Bytes 48

def State.byte : State → UInt8
  | .pending => 1 | .failed => 2 | .verified => 3

def State.ofByte (v : UInt8) : Option State :=
  if v = 1 then some .pending else if v = 2 then some .failed
  else if v = 3 then some .verified else none

def Mode.byte : Mode → UInt8
  | .runtime => 0 | .coldFactory => 1

def allIntents : Mode → UInt16
  | .runtime => 1023 | .coldFactory => 4095

def bits (flags : List Intent) : UInt16 := (flags.map Intent.bit).foldr (· ||| ·) 0

def restores : UInt16 := bits [.restoreConfig, .restoreFcc, .restoreDc]

def required (mode : Mode) (before : Dm) : UInt16 :=
  bits [.unseal, .full, .enter, .config, .targetVerified, .exit, .seal] |||
    (if before.fcc ≠ 65 then Intent.fcc.bit else 0) |||
    if mode = .coldFactory then Intent.dc.bit else 0

def verifiedShape (j : Journal) (mode : Mode) : Bool :=
  j.backupValid && j.fullAccessVerified &&
    j.intents &&& required mode j.before == required mode j.before && j.intents &&& restores == 0

def startValues (mode : Mode) (d : Dm) : Bool :=
  match mode with
  | .runtime => d.dc == 65 && (d.fcc == 65 || d.fcc == 100)
  | .coldFactory => d.dc == 3000 && d.fcc == 3000

def backupShape (j : Journal) (mode : Mode) : Bool :=
  j.fullAccessVerified && decide (j.before.config ≤ 0x1fff) && j.before.config &&& limitBit == 0 &&
    startValues mode j.before && j.target == targetOf j.before

def journalShape (j : Journal) (mode : Mode) : Bool :=
  j.schema == 1 && j.intents &&& ~~~allIntents mode == 0 &&
    (j.state != .verified || verifiedShape j mode) &&
    if j.backupValid then backupShape j mode else j.before == {} && j.target == {}

def proofs (j : Journal) : UInt8 :=
  (if j.backupValid then 1 else 0) ||| if j.fullAccessVerified then 2 else 0

def header (j : Journal) (mode : Mode) : List (Nat × Nat) :=
  [(4, 0x31434346), (2, j.schema.toNat), (2, 0x0220), (1, 1), (1, j.state.byte.toNat),
    (1, (proofs j).toNat), (1, mode.byte.toNat)]

def payload (j : Journal) : List (Nat × Nat) :=
  [(2, j.intents.toNat), (2, j.before.config.toNat), (2, j.before.dc.toNat),
    (2, j.before.fcc.toNat), (2, j.target.config.toNat), (2, j.target.dc.toNat),
    (2, j.target.fcc.toNat)]

def image (j : Journal) (mode : Mode) : Record :=
  closeCrc (putAll (blit (putAll (zero 48) 0 (header j mode)) 12 j.mac 6) 18 (payload j)) 44

def encode (j : Journal) (mode : Mode) : Option Record :=
  if journalShape j mode then some (image j mode) else none

def get16 (r : Record) (p : Nat) : UInt16 := UInt16.ofNat (get r p 2)

def decode (r : Record) (mac : Bytes 6) (mode : Mode) : Option Journal :=
  if get r 0 4 != 0x31434346 || get16 r 4 != 1 || get16 r 6 != 0x0220 || byteAt r 8 != 1 ||
      byteAt r 11 != mode.byte || byteAt r 10 &&& ~~~3 != 0 then none
  else if !zeros r 32 44 then none
  else if !crcMatches r 44 then none
  else if slice r 12 6 6 ≠ mac then none
  else do
    let state ← State.ofByte (byteAt r 9)
    let v : Journal :=
      { schema := get16 r 4
        state := state
        mac := mac
        intents := get16 r 18
        backupValid := byteAt r 10 &&& 1 != 0
        fullAccessVerified := byteAt r 10 &&& 2 != 0
        before := { config := get16 r 20, dc := get16 r 22, fcc := get16 r 24 }
        target := { config := get16 r 26, dc := get16 r 28, fcc := get16 r 30 } }
    if journalShape v mode then some v else none

def verifiedRuntimePermission (j : Journal) : Bool :=
  let required := bits [.unseal, .full, .enter, .config, .targetVerified, .exit, .seal] |||
    if j.before.fcc = 100 then Intent.fcc.bit else 0
  journalShape j .runtime && j.state == .verified && j.backupValid && j.fullAccessVerified &&
    j.intents &&& required == required &&
    j.intents &&& bits [.restoreConfig, .restoreFcc, .dc, .restoreDc] == 0

section Records

variable {j : Journal} {mode : Mode} {r : Record}

theorem ofByte_byte (s : State) : State.ofByte s.byte = some s := by
  cases s <;> rfl

theorem byte_of_ofByte {v : UInt8} {s : State} (h : State.ofByte v = some s) : s.byte = v := by
  unfold State.ofByte at h
  split_ifs at h with one two three <;> cases h
  · exact one.symm
  · exact two.symm
  · exact three.symm

/-- Everything that a record of the journal reads as. -/
structure Reads (r : Record) (j : Journal) (mode : Mode) : Prop where
  header : getAll r 0 ((header j mode).map Prod.fst) = (header j mode).map Prod.snd
  mac : slice r 12 6 6 = j.mac
  payload : getAll r 18 ((payload j).map Prod.fst) = (payload j).map Prod.snd
  rest : zeros r 32 44 = true
  crc : crcMatches r 44 = true

theorem header_fits (j : Journal) (mode : Mode) :
    ∀ field ∈ header j mode, field.2 < 256 ^ field.1 := by
  have schema := j.schema.toNat_lt
  have state := j.state.byte.toNat_lt
  have flags := (proofs j).toNat_lt
  have byte := mode.byte.toNat_lt
  simp only [header, List.forall_mem_cons, List.not_mem_nil, false_imp_iff, implies_true, and_true]
  norm_num
  omega

private theorem payload_fits (j : Journal) : ∀ field ∈ payload j, field.2 < 256 ^ field.1 := by
  have fits (v : UInt16) : v.toNat < 256 ^ 2 := v.toNat_lt
  simp only [payload, List.forall_mem_cons, List.not_mem_nil, false_imp_iff, implies_true, and_true, fits]

theorem image_reads (j : Journal) (mode : Mode) : Reads (image j mode) j mode := by
  have early (i : Nat) (hi : i < 44) := byteAt_closeCrc
    (putAll (blit (putAll (zero 48) 0 (header j mode)) 12 j.mac 6) 18 (payload j)) 44 i hi
  constructor
  · rw [← getAll_putAll (zero 48) 0 (header j mode) (show 12 ≤ 48 by omega)
      (header_fits j mode)]
    apply getAll_congr
    intro i _ hi
    have inside : i < 12 := hi
    rw [image, early i (by omega), byteAt_putAll_of_not_mem _ _ _ _ (.inl (by omega)),
      byteAt_blit_of_not_mem _ _ _ _ _ (.inl (by omega))]
  · rw [← slice_blit (putAll (zero 48) 0 (header j mode)) 12 j.mac 6 (by decide) fun i _ _ => by omega]
    apply slice_congr
    intro i _ hi
    rw [image, early i (by omega), byteAt_putAll_of_not_mem _ _ _ _ (.inl (by omega))]
  · rw [← getAll_putAll (blit (putAll (zero 48) 0 (header j mode)) 12 j.mac 6) 18 (payload j)
      (show 18 + 14 ≤ 48 by omega) (payload_fits j)]
    apply getAll_congr
    intro i _ hi
    have inside : i < 32 := hi
    rw [image, early i (by omega)]
  · rw [zeros_iff]
    intro i hi hlt
    rw [image, early i hlt, byteAt_putAll_of_not_mem _ _ _ _ (.inr hi),
      byteAt_blit_of_not_mem _ _ _ _ _ (.inr (by omega)),
      byteAt_putAll_of_not_mem _ _ _ _ (.inr (show 12 ≤ i by omega)), byteAt_zero]
  · exact crcMatches_closeCrc _ 44 (by decide)

/-- Only the image reads so. -/
theorem Reads.image (h : Reads r j mode) : r = image j mode := by
  have h' := image_reads j mode
  have early : ∀ i, i < 44 → byteAt r i = byteAt (FccRepair.image j mode) i := by
    intro i hi
    by_cases head : i < 12
    · exact byteAt_eq_of_getAll (h.header.trans h'.header.symm) (Nat.zero_le i) head
    · by_cases mac : i < 18
      · exact byteAt_eq_of_slice (h.mac.trans h'.mac.symm) (show 12 ≤ i by omega)
          (show i < 12 + 6 by omega)
      · by_cases body : i < 32
        · exact byteAt_eq_of_getAll (h.payload.trans h'.payload.symm) (by omega) body
        · rw [(zeros_iff r 32 44).mp h.rest i (by omega) hi,
            (zeros_iff _ 32 44).mp h'.rest i (by omega) hi]
  apply ext_byteAt
  intro i hi
  by_cases before : i < 44
  · exact early i before
  · have sums : get r 44 4 = get (FccRepair.image j mode) 44 4 := by
      have one := h.crc
      have two := h'.crc
      rw [crcMatches, beq_iff_eq] at one two
      rw [one, two, crc_congr early]
    exact byteAt_eq_of_get sums (by omega) (by omega)

theorem proofs_spec (j : Journal) : (proofs j &&& ~~~3 == 0) = true ∧
    (proofs j &&& 1 != 0) = j.backupValid ∧ (proofs j &&& 2 != 0) = j.fullAccessVerified := by
  unfold proofs
  cases j.backupValid <;> cases j.fullAccessVerified <;> decide

/-- Two bits are all that a flags byte may have. -/
private theorem flags_known (v : UInt8) (h : v &&& ~~~3 = 0) :
    ((if v &&& 1 != 0 then 1 else 0) ||| if v &&& 2 != 0 then 2 else 0) = v := by
  have all : ∀ n : Fin 256, UInt8.ofNat n &&& ~~~3 = 0 →
      ((if UInt8.ofNat n &&& 1 != 0 then 1 else 0) |||
        if UInt8.ofNat n &&& 2 != 0 then 2 else 0) = UInt8.ofNat n := by decide +kernel
  have this := all ⟨v.toNat, v.toNat_lt⟩
  rw [UInt8.ofNat_toNat] at this
  exact this h

theorem get_one (r : Record) (p : Nat) : get r p 1 = (byteAt r p).toNat := by
  simp [ByteFields.get]

private theorem toNat_get16 (r : Record) (p : Nat) : (get16 r p).toNat = get r p 2 :=
  UInt16.toNat_ofNat_of_lt (get_lt r p 2)

theorem journalShape_schema (h : journalShape j mode = true) : j.schema = 1 := by
  simp only [journalShape, Bool.and_eq_true, beq_iff_eq] at h
  exact h.1.1.1

theorem get16_eq {p : Nat} {v : UInt16} : get16 r p = v ↔ get r p 2 = v.toNat := by
  rw [← UInt16.toNat_inj, toNat_get16]

theorem byteAt_eq {p : Nat} {v : UInt8} : byteAt r p = v ↔ get r p 1 = v.toNat := by
  rw [get_one, UInt8.toNat_inj]

/-- What the fields of the record are, one by one. -/
theorem reads_fields : Reads r j mode ↔
    (get r 0 4 = 0x31434346 ∧ get16 r 4 = j.schema ∧ get16 r 6 = 0x0220 ∧ byteAt r 8 = 1 ∧
      byteAt r 9 = j.state.byte ∧ byteAt r 10 = proofs j ∧ byteAt r 11 = mode.byte) ∧
    slice r 12 6 6 = j.mac ∧
    (get16 r 18 = j.intents ∧ get16 r 20 = j.before.config ∧ get16 r 22 = j.before.dc ∧
      get16 r 24 = j.before.fcc ∧ get16 r 26 = j.target.config ∧ get16 r 28 = j.target.dc ∧
      get16 r 30 = j.target.fcc) ∧
    zeros r 32 44 = true ∧ crcMatches r 44 = true := by
  have head : getAll r 0 ((header j mode).map Prod.fst) = (header j mode).map Prod.snd ↔
      (get r 0 4 = 0x31434346 ∧ get16 r 4 = j.schema ∧ get16 r 6 = 0x0220 ∧ byteAt r 8 = 1 ∧
        byteAt r 9 = j.state.byte ∧ byteAt r 10 = proofs j ∧ byteAt r 11 = mode.byte) := by
    simp only [header, List.map_cons, List.map_nil, getAll, List.cons.injEq, and_true,
      get16_eq, byteAt_eq, Nat.zero_add, Nat.reduceAdd]
    rfl
  have body : getAll r 18 ((payload j).map Prod.fst) = (payload j).map Prod.snd ↔
      (get16 r 18 = j.intents ∧ get16 r 20 = j.before.config ∧ get16 r 22 = j.before.dc ∧
        get16 r 24 = j.before.fcc ∧ get16 r 26 = j.target.config ∧ get16 r 28 = j.target.dc ∧
        get16 r 30 = j.target.fcc) := by
    simp only [payload, List.map_cons, List.map_nil, getAll, List.cons.injEq, and_true,
      get16_eq, Nat.reduceAdd]
  rw [← head, ← body]
  exact ⟨fun h => ⟨h.header, h.mac, h.payload, h.rest, h.crc⟩,
    fun h => ⟨h.1, h.2.1, h.2.2.1, h.2.2.2.1, h.2.2.2.2⟩⟩

/-- The record decodes to the journal it is the image of. -/
theorem Reads.decode (h : Reads r j mode) (shape : journalShape j mode = true) :
    decode r j.mac mode = some j := by
  obtain ⟨⟨magic, schema, device, version, state, flags, byte⟩, mac,
    ⟨intents, config, dc, fcc, config', dc', fcc'⟩, rest, crc⟩ := reads_fields.mp h
  have one := journalShape_schema shape
  obtain ⟨known, backup, access⟩ := proofs_spec j
  unfold FccRepair.decode
  rw [if_neg (by simpa [magic, schema, device, version, flags, byte, one] using known),
    if_neg (by simp [rest]), if_neg (by simp [crc]), if_neg (by simp [mac])]
  simp only [state, ofByte_byte, Option.bind_eq_bind, Option.bind_some, schema, intents, flags, backup,
    access, config, dc, fcc, config', dc', fcc', if_pos shape]

theorem decode_reads {mac : Bytes 6} (h : decode r mac mode = some j) :
    Reads r j mode ∧ j.mac = mac ∧ journalShape j mode = true := by
  unfold decode at h
  split_ifs at h with head rest crc same
  simp only [Bool.or_eq_true, bne_iff_ne, not_or, not_not] at head
  obtain ⟨⟨⟨⟨⟨magic, schema⟩, device⟩, version⟩, byte⟩, flags⟩ := head
  obtain ⟨state, known, h⟩ := Option.bind_eq_some_iff.mp h
  dsimp only at h
  split_ifs at h with shape
  have journal := Option.some.inj h
  rw [← journal]
  refine ⟨reads_fields.mpr ?_, rfl, shape⟩
  have both := flags_known _ flags
  exact ⟨⟨magic, rfl, device, version, (byte_of_ofByte known).symm, both.symm, byte⟩, not_not.mp same,
    ⟨rfl, rfl, rfl, rfl, rfl, rfl, rfl⟩, by simpa using rest, by simpa using crc⟩

/-- Exactly the images of well-shaped journals are accepted, each as its journal. -/
theorem decode_eq_some_iff {mac : Bytes 6} :
    decode r mac mode = some j ↔ encode j mode = some r ∧ j.mac = mac := by
  constructor
  · intro h
    obtain ⟨reads, same, shape⟩ := decode_reads h
    exact ⟨by rw [encode, if_pos shape, reads.image], same⟩
  · rintro ⟨h, rfl⟩
    unfold encode at h
    split_ifs at h with shape
    rw [← Option.some.inj h]
    exact (image_reads j mode).decode shape

end Records

end Mosaico.Gauge.FccRepair
