import Mosaico.Library.ByteFields
import Mosaico.Host.GaugeTraceRetention

/-! The blob of a trace: a header, the rows from the oldest on, zeros and a checksum. What
`decode` makes of an encoded model is told field by field, whether it accepts it or not. -/
namespace Mosaico.Host.GaugeTrace

open ByteFields

abbrev recordSize : Nat := 48
abbrev blobSize : Nat := 32 + capacity * recordSize + 4
abbrev Blob := Bytes blobSize
abbrev Row := Bytes recordSize

def Sample.fields (s : Sample) : List (Nat × Nat) :=
  [(4, s.boot.toNat), (8, s.monotonicMs.toNat), (8, s.epoch.toNat), (2, s.flags.toNat),
    (2, s.soc.toNat), (2, s.voltageMv.toNat), (2, s.currentMa.toUInt16.toNat),
    (2, s.averageCurrentMa.toUInt16.toNat), (2, s.remainingMah.toNat), (2, s.fullMah.toNat),
    (2, s.designMah.toNat), (2, s.operationStatus.toNat), (2, s.batteryStatus.toNat),
    (2, s.stateOfHealth.toNat), (2, s.cycleCount.toNat), (2, s.temperatureDeciK.toNat),
    (2, if s.rawCoulombValid then s.rawCoulombMah.toNat else 0)]

def encodeRow (s : Sample) : Row := putAll (zero recordSize) 0 s.fields

def Model.header (m : Model) : List (Nat × Nat) :=
  [(4, 0x31544447), (2, if m.items.any Sample.rawCoulombValid then 2 else 1), (2, recordSize),
    (2, m.count), (1, m.armed.toNat),
    (1, (if m.lowSeen then 1 else 0) ||| if m.finalizedChargeAfterLow then 2 else 0),
    (4, m.boot.toNat)]

def encodeInto (m : Model) : Blob :=
  closeCrc (blitRows (putAll (zero blobSize) 0 m.header) 32 (m.items.map encodeRow)) (blobSize - 4)

def readRow (r : Row) : Sample where
  boot := .ofNat (get r 0 4)
  monotonicMs := .ofNat (get r 4 8)
  epoch := .ofNat (get r 12 8)
  flags := .ofNat (get r 20 2)
  soc := .ofNat (get r 22 2)
  voltageMv := .ofNat (get r 24 2)
  currentMa := (UInt16.ofNat (get r 26 2)).toInt16
  averageCurrentMa := (UInt16.ofNat (get r 28 2)).toInt16
  remainingMah := .ofNat (get r 30 2)
  fullMah := .ofNat (get r 32 2)
  designMah := .ofNat (get r 34 2)
  operationStatus := .ofNat (get r 36 2)
  batteryStatus := .ofNat (get r 38 2)
  stateOfHealth := .ofNat (get r 40 2)
  cycleCount := .ofNat (get r 42 2)
  temperatureDeciK := .ofNat (get r 44 2)
  rawCoulombMah := .ofNat (get r 46 2)

def rowBytes (b : Blob) (i : Nat) : Row := slice b (32 + i * recordSize) recordSize recordSize

def rowAt (b : Blob) (i : Nat) : Sample := readRow (rowBytes b i)

def inOrder (previous s : Sample) : Bool :=
  !(decide (s.boot < previous.boot) ||
    (s.boot == previous.boot && decide (s.monotonicMs < previous.monotonicMs)))

def rowAccepted (version : Nat) (boot : UInt32) (b : Blob) (i : Nat) : Bool :=
  let s := rowAt b i
  s.boot != 0 && decide (s.boot ≤ boot) &&
    s.flags &&& ~~~(if version = 2 then 63 else 31) == 0 &&
    (i == 0 || inOrder (rowAt b (i - 1)) s) &&
    (s.rawCoulombValid || get (rowBytes b i) 46 2 == 0)

def statesAccepted (armed states : Nat) : Bool :=
  decide (states ≤ 3) &&
    !(states &&& 2 != 0 && (states &&& 1 == 0 || armed != 0))

def decode (b : Blob) : Option Model :=
  let version := get b 4 2
  let count := get b 8 2
  let boot := UInt32.ofNat (get b 12 4)
  let states := get b 11 1
  if get b 0 4 != 0x31544447 || (version != 1 && version != 2) || get b 6 2 != recordSize ||
      decide (count > capacity) || decide (get b 10 1 > 1) || !crcMatches b (blobSize - 4) then none
  else if !statesAccepted (get b 10 1) states || boot == 0 then none
  else if (List.range count).all (rowAccepted version boot b) && zeros b 16 32 &&
      zeros b (32 + count * recordSize) (blobSize - 4) then
    some
      { rows := Vector.ofFn fun i => if i.val < count then rowAt b i.val else {}
        head := count % capacity, count := count
        armed := get b 10 1 != 0, lowSeen := states &&& 1 != 0
        finalizedChargeAfterLow := states &&& 2 != 0, boot := boot }
  else none

def Sample.stored (s : Sample) : Sample :=
  if s.rawCoulombValid then s else { s with rawCoulombMah := 0 }

section Rows

theorem Sample.fits (s : Sample) : ∀ field ∈ s.fields, field.2 < 256 ^ field.1 := by
  have raw : (if s.rawCoulombValid then s.rawCoulombMah.toNat else 0) < 256 ^ 2 := by
    split
    · exact UInt16.toNat_lt _
    · decide
  intro field mem
  simp only [Sample.fields, List.mem_cons, List.not_mem_nil, or_false] at mem
  rcases mem with rfl | rfl | rfl | rfl | rfl | rfl | rfl | rfl | rfl | rfl | rfl | rfl | rfl | rfl
    | rfl | rfl | rfl
  case inr.inr.inr.inr.inr.inr.inr.inr.inr.inr.inr.inr.inr.inr.inr.inr => exact raw
  case inl => exact UInt32.toNat_lt _
  case inr.inl | inr.inr.inl => exact UInt64.toNat_lt _
  all_goals exact UInt16.toNat_lt _

theorem getAll_encodeRow (s : Sample) :
    getAll (encodeRow s) 0 (s.fields.map Prod.fst) = s.fields.map Prod.snd := by
  apply getAll_putAll _ _ _ _ s.fits
  simp [width, Sample.fields]

theorem readRow_encodeRow (s : Sample) : readRow (encodeRow s) = s.stored := by
  have values := getAll_encodeRow s
  simp only [Sample.fields, List.map_cons, List.map_nil, getAll, Nat.zero_add, Nat.reduceAdd,
    List.cons.injEq, and_true] at values
  obtain ⟨h0, h1, h2, h3, h4, h5, h6, h7, h8, h9, h10, h11, h12, h13, h14, h15, h16⟩ := values
  simp only [readRow, h0, h1, h2, h3, h4, h5, h6, h7, h8, h9, h10, h11, h12, h13, h14, h15, h16,
    UInt16.ofNat_toNat, UInt32.ofNat_toNat, UInt64.ofNat_toNat, Int16.toInt16_toUInt16]
  unfold Sample.stored
  split <;> simp

theorem raw_encodeRow (s : Sample) :
    get (encodeRow s) 46 2 = if s.rawCoulombValid then s.rawCoulombMah.toNat else 0 := by
  have values := getAll_encodeRow s
  simp only [Sample.fields, List.map_cons, List.map_nil, getAll, Nat.zero_add, Nat.reduceAdd,
    List.cons.injEq, and_true] at values
  exact values.2.2.2.2.2.2.2.2.2.2.2.2.2.2.2.2

end Rows

section Blobs

variable (m : Model)

theorem Model.header_fits (h : m.Bounded) : ∀ field ∈ m.header, field.2 < 256 ^ field.1 := by
  have count := h.count
  intro field mem
  simp only [Model.header, List.mem_cons, List.not_mem_nil, or_false] at mem
  rcases mem with rfl | rfl | rfl | rfl | rfl | rfl | rfl
  · decide
  · dsimp only
    split <;> decide
  · decide
  · simp only [capacity] at count
    dsimp only
    omega
  · have bit := m.armed.toNat_le
    dsimp only
    omega
  · dsimp only
    split <;> split <;> decide
  · exact UInt32.toNat_lt _

theorem blobSize_eq : blobSize = 3108 := rfl

theorem Model.width_header : width m.header = 16 := by simp [width, Model.header]

/-- The header reads back. -/
theorem getAll_header (h : m.Bounded) :
    getAll (encodeInto m) 0 (m.header.map Prod.fst) = m.header.map Prod.snd := by
  have fits : 0 + width m.header ≤ blobSize := by
    rw [m.width_header, blobSize_eq]
    omega
  rw [← getAll_putAll (zero blobSize) 0 m.header fits (m.header_fits h)]
  apply getAll_congr
  intro i _ hi
  have early : i < 16 := by simpa [Model.header] using hi
  rw [encodeInto, byteAt_closeCrc _ _ _ (by rw [blobSize_eq]; omega),
    byteAt_blitRows_of_not_mem _ _ _ _ (.inl (by omega))]

/-- Every row reads back. -/
theorem rowBytes_encodeInto (h : m.Bounded) {i : Nat} (hi : i < m.count) :
    rowBytes (encodeInto m) i = encodeRow (m.at_ i) := by
  have count := h.count
  have row : (m.items.map encodeRow)[i]? = some (encodeRow (m.at_ i)) := by
    rw [List.getElem?_map, m.items_getElem hi, Option.map_some]
  obtain ⟨inside, here⟩ := List.getElem?_eq_some_iff.mp row
  rw [rowBytes, encodeInto, slice_closeCrc]
  · rw [slice_blitRows _ 32 i _ inside, here]
    simp only [List.length_map, Model.items_length, blobSize_eq, recordSize, capacity] at *
    omega
  · simp only [blobSize_eq, recordSize, capacity] at *
    omega

theorem zeros_encodeInto :
    zeros (encodeInto m) 16 32 = true ∧
      zeros (encodeInto m) (32 + m.count * recordSize) (blobSize - 4) = true := by
  have size := m.width_header
  have rows : (m.items.map encodeRow).length = m.count := by simp
  have blank : ∀ i, 16 ≤ i → i < blobSize - 4 → (i < 32 ∨ 32 + m.count * recordSize ≤ i) →
      byteAt (encodeInto m) i = 0 := by
    intro i first last outside
    rw [encodeInto, byteAt_closeCrc _ _ _ last,
      byteAt_blitRows_of_not_mem _ _ _ _ (by rw [rows]; exact outside),
      byteAt_putAll_of_not_mem _ _ _ _ (.inr (by omega)), byteAt_zero]
  constructor
  · rw [zeros_iff]
    exact fun i first last => blank i first (by rw [blobSize_eq]; omega) (.inl last)
  · rw [zeros_iff]
    exact fun i first last => blank i (by omega) last (.inr first)

end Blobs

def Model.rowOk (m : Model) (i : Nat) : Bool :=
  (m.at_ i).boot != 0 && decide ((m.at_ i).boot ≤ m.boot) &&
    (m.at_ i).flags &&& ~~~63 == 0 && (i == 0 || inOrder (m.at_ (i - 1)) (m.at_ i))

def Model.accepted (m : Model) : Bool :=
  !(m.finalizedChargeAfterLow && (!m.lowSeen || m.armed)) && m.boot != 0 &&
    (List.range m.count).all m.rowOk

/-- The model that is read back: only what is persisted, in a ring that starts at its first row. -/
def Model.restored (m : Model) : Model where
  rows := Vector.ofFn fun i => if i.val < m.count then (m.at_ i.val).stored else {}
  head := m.count % capacity
  count := m.count
  armed := m.armed
  lowSeen := m.lowSeen
  finalizedChargeAfterLow := m.finalizedChargeAfterLow
  boot := m.boot

theorem Sample.stored_eq (s : Sample) :
    s.stored.boot = s.boot ∧ s.stored.flags = s.flags ∧ s.stored.monotonicMs = s.monotonicMs := by
  unfold Sample.stored
  split <;> exact ⟨rfl, rfl, rfl⟩

theorem inOrder_stored (previous s : Sample) :
    inOrder previous.stored s.stored = inOrder previous s := by
  simp only [inOrder, previous.stored_eq, s.stored_eq]

/-- Without raw coulomb counts the flags of the first version are enough. -/
private theorem flags_version {s : Sample} (plain : s.rawCoulombValid = false) :
    (s.flags &&& ~~~31 == 0) = (s.flags &&& ~~~63 == 0) := by
  have bit : s.flags &&& 32 = 0 := by simpa [Sample.rawCoulombValid] using plain
  have split : s.flags &&& ~~~31 = (s.flags &&& ~~~63) ||| (s.flags &&& 32) := by
    apply UInt16.toBitVec_inj.mp
    have masks : (~~~31 : UInt16).toBitVec = (~~~63 : UInt16).toBitVec ||| (32 : UInt16).toBitVec := by
      decide
    rw [UInt16.toBitVec_and, masks, BitVec.and_or_distrib_left, UInt16.toBitVec_or,
      UInt16.toBitVec_and, UInt16.toBitVec_and]
  rw [split, bit, UInt16.or_zero]

theorem rowAt_encodeInto {m : Model} (h : m.Bounded) {i : Nat} (hi : i < m.count) :
    rowAt (encodeInto m) i = (m.at_ i).stored := by
  rw [rowAt, rowBytes_encodeInto m h hi, readRow_encodeRow]

theorem rowAccepted_encodeInto {m : Model} (h : m.Bounded) {i : Nat} (hi : i < m.count) :
    rowAccepted (if m.items.any Sample.rawCoulombValid then 2 else 1) m.boot (encodeInto m) i =
      m.rowOk i := by
  have stored := (m.at_ i).stored_eq
  have raw : ((m.at_ i).stored.rawCoulombValid || get (rowBytes (encodeInto m) i) 46 2 == 0) =
      true := by
    rw [rowBytes_encodeInto m h hi, raw_encodeRow, Sample.rawCoulombValid, stored.2.1,
      ← Sample.rawCoulombValid]
    cases (m.at_ i).rawCoulombValid <;> rfl
  have flags : ((m.at_ i).flags &&& ~~~(if (if m.items.any Sample.rawCoulombValid then 2 else 1) = 2
      then 63 else 31) == 0) = ((m.at_ i).flags &&& ~~~63 == 0) := by
    cases some_ : m.items.any Sample.rawCoulombValid with
    | true => rfl
    | false =>
      have member : m.at_ i ∈ m.items := List.mem_map.mpr ⟨i, List.mem_range.mpr hi, rfl⟩
      exact flags_version (by simpa using List.any_eq_false.mp some_ _ member)
  have order : (i == 0 || inOrder (rowAt (encodeInto m) (i - 1)) (m.at_ i).stored) =
      (i == 0 || inOrder (m.at_ (i - 1)) (m.at_ i)) := by
    rw [rowAt_encodeInto h (by omega), inOrder_stored]
  unfold rowAccepted Model.rowOk
  dsimp only
  rw [rowAt_encodeInto h hi, raw, order, stored.1, stored.2.1, flags, Bool.and_true]

/-- The states byte tells all three flags. -/
private theorem states_header (m : Model) :
    let states := (if m.lowSeen then 1 else 0) ||| if m.finalizedChargeAfterLow then 2 else 0
    statesAccepted m.armed.toNat states =
        !(m.finalizedChargeAfterLow && (!m.lowSeen || m.armed)) ∧
      (states &&& 1 != 0) = m.lowSeen ∧ (states &&& 2 != 0) = m.finalizedChargeAfterLow ∧
        (m.armed.toNat != 0) = m.armed := by
  cases m.armed <;> cases m.lowSeen <;> cases m.finalizedChargeAfterLow <;> decide

theorem decode_encodeInto {m : Model} (h : m.Bounded) :
    decode (encodeInto m) = if m.accepted then some m.restored else none := by
  have values := getAll_header m h
  simp only [Model.header, List.map_cons, List.map_nil, getAll, Nat.zero_add, Nat.reduceAdd,
    List.cons.injEq, and_true] at values
  obtain ⟨magic, version, size, count, armed, states, boot⟩ := values
  obtain ⟨accepted, lowSeen, finalized, isArmed⟩ := states_header m
  have crc : crcMatches (encodeInto m) (blobSize - 4) = true :=
    crcMatches_closeCrc _ _ (by rw [blobSize_eq])
  have known : ((if m.items.any Sample.rawCoulombValid then 2 else 1) != 1 &&
      (if m.items.any Sample.rawCoulombValid then 2 else 1) != 2) = false := by
    cases m.items.any Sample.rawCoulombValid <;> decide
  have header : (0x31544447 != 0x31544447 || false || recordSize != recordSize ||
      decide (m.count > capacity) || decide (m.armed.toNat > 1) || !true) = false := by
    have room := h.count
    have bit := m.armed.toNat_le
    simp
    omega
  have rows : (List.range m.count).all
      (rowAccepted (if m.items.any Sample.rawCoulombValid then 2 else 1) m.boot (encodeInto m)) =
        (List.range m.count).all m.rowOk := by
    rw [Bool.eq_iff_iff, List.all_eq_true, List.all_eq_true]
    apply forall₂_congr
    intro i hi
    rw [rowAccepted_encodeInto h (List.mem_range.mp hi)]
  have stored : (Vector.ofFn fun i : Fin capacity =>
      if i.val < m.count then rowAt (encodeInto m) i.val else {}) =
        Vector.ofFn fun i => if i.val < m.count then (m.at_ i.val).stored else {} := by
    apply congrArg Vector.ofFn
    funext i
    split
    · rename_i inside
      exact rowAt_encodeInto h inside
    · rfl
  unfold decode
  simp only [magic, version, size, count, armed, states, boot, crc, known, UInt32.ofNat_toNat,
    accepted, lowSeen, finalized, isArmed, rows, stored, (zeros_encodeInto m).1,
    (zeros_encodeInto m).2]
  rw [if_neg (by rw [header]; decide)]
  unfold Model.accepted
  cases (m.finalizedChargeAfterLow && (!m.lowSeen || m.armed)) <;> cases hb : m.boot == 0 <;>
    cases (List.range m.count).all m.rowOk <;> simp [Model.restored, bne, hb]

end Mosaico.Host.GaugeTrace
