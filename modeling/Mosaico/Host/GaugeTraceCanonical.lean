import Mosaico.Host.GaugeTraceCodec

/-! Which blobs `encodeInto` gives back after `decode` has accepted them. -/
namespace Mosaico.Host.GaugeTrace

open ByteFields

section Rows

theorem fields_readRow (r : Row)
    (raw : (readRow r).rawCoulombValid = true ∨ get r 46 2 = 0) :
    (readRow r).fields.map Prod.snd = getAll r 0 ((readRow r).fields.map Prod.fst) := by
  have word : ∀ p, get r p 2 % 2 ^ 16 = get r p 2 := fun p => Nat.mod_eq_of_lt (get_lt r p 2)
  have double : ∀ p, get r p 4 % 2 ^ 32 = get r p 4 := fun p => Nat.mod_eq_of_lt (get_lt r p 4)
  have long : ∀ p, get r p 8 % 2 ^ 64 = get r p 8 := fun p => Nat.mod_eq_of_lt (get_lt r p 8)
  have last : (if (readRow r).rawCoulombValid then (readRow r).rawCoulombMah.toNat else 0) =
      get r 46 2 := by
    split
    · simp only [readRow, UInt16.toNat_ofNat', word]
    · rename_i absent
      exact (raw.resolve_left absent).symm
  simp only [Sample.fields, List.map_cons, List.map_nil, getAll, Nat.zero_add, Nat.reduceAdd, last]
  simp only [readRow, UInt16.toNat_ofNat', UInt32.toNat_ofNat', UInt64.toNat_ofNat',
    UInt16.toUInt16_toInt16, word, double, long]

/-- A row that is read is written as it was. -/
theorem encodeRow_readRow (r : Row)
    (raw : (readRow r).rawCoulombValid = true ∨ get r 46 2 = 0) : encodeRow (readRow r) = r := by
  apply ext_byteAt
  intro i hi
  have same := (getAll_encodeRow (readRow r)).trans (fields_readRow r raw)
  exact byteAt_eq_of_getAll same (Nat.zero_le i) (by simpa [Sample.fields] using hi)

end Rows

/-- What `decode` has found in a blob that it accepts. -/
structure Found (b : Blob) (m : Model) : Prop where
  magic : get b 0 4 = 0x31544447
  version : get b 4 2 = 1 ∨ get b 4 2 = 2
  size : get b 6 2 = recordSize
  room : m.Bounded
  count : get b 8 2 = m.count
  armed : get b 10 1 = m.armed.toNat
  states : get b 11 1 =
    (if m.lowSeen then 1 else 0) ||| if m.finalizedChargeAfterLow then 2 else 0
  boot : get b 12 4 = m.boot.toNat
  rows : ∀ i, i < m.count → m.at_ i = rowAt b i ∧ rowAccepted (get b 4 2) m.boot b i = true
  reserved : zeros b 16 32 = true
  unused : zeros b (32 + m.count * recordSize) (blobSize - 4) = true
  checksum : crcMatches b (blobSize - 4) = true

private theorem states_read {states : Nat} (h : states ≤ 3) :
    ((if (states &&& 1 != 0) = true then 1 else 0) ||| if (states &&& 2 != 0) = true then 2 else 0) =
      states := by
  have cases_ : states = 0 ∨ states = 1 ∨ states = 2 ∨ states = 3 := by omega
  rcases cases_ with rfl | rfl | rfl | rfl <;> rfl

private theorem armed_read {armed : Nat} (h : armed ≤ 1) : (armed != 0).toNat = armed := by
  have cases_ : armed = 0 ∨ armed = 1 := by omega
  rcases cases_ with rfl | rfl <;> rfl

/-- The rows are put at the start of the ring. -/
private theorem at_ofFn (f : Nat → Sample) {m : Model} {i : Nat} (h : m.count ≤ capacity)
    (rows : m.rows = Vector.ofFn fun i => if i.val < m.count then f i.val else {})
    (head : m.head = m.count % capacity) (hi : i < m.count) : m.at_ i = f i := by
  have count : m.count ≤ 64 := h
  have inside : i < capacity := show i < 64 by omega
  have here : slot (m.start + i) = ⟨i, inside⟩ := by
    apply Fin.ext
    rw [Model.start, head, slot, Fin.val_ofNat]
    simp only [capacity]
    omega
  have row : m.rows.get ⟨i, inside⟩ = if i < m.count then f i else {} := by
    rw [rows]
    exact Vector.getElem_ofFn inside
  rw [Model.at_, here, row, if_pos hi]

theorem found_of_decode {b : Blob} {m : Model} (h : decode b = some m) : Found b m := by
  unfold decode at h
  dsimp only at h
  split at h
  · cases h
  rename_i header
  split at h
  · cases h
  rename_i flags
  split at h
  · rename_i body
    simp only [Bool.or_eq_true, Bool.and_eq_true, bne_iff_ne, ne_eq, decide_eq_true_eq,
      Bool.not_eq_true', not_or, Nat.not_lt, Bool.not_eq_false, not_and, Decidable.not_not,
      beq_iff_eq] at header flags body
    obtain ⟨⟨⟨⟨⟨magic, version⟩, size⟩, room⟩, armed⟩, checksum⟩ := header
    obtain ⟨states, boot⟩ := flags
    obtain ⟨⟨rows, reserved⟩, unused⟩ := body
    have few : get b 11 1 ≤ 3 := by
      simp only [statesAccepted, Bool.and_eq_true, decide_eq_true_eq] at states
      exact states.1
    have made := Option.some.inj h
    have rows_ := congrArg Model.rows made
    have head := congrArg Model.head made
    have count := congrArg Model.count made
    have armed_ := congrArg Model.armed made
    have lowSeen := congrArg Model.lowSeen made
    have finalized := congrArg Model.finalizedChargeAfterLow made
    have boot_ := congrArg Model.boot made
    dsimp only at rows_ head count armed_ lowSeen finalized boot_
    rw [boot_] at rows
    rw [count] at rows rows_ head unused room
    constructor
    case magic => exact magic
    case version =>
      by_cases first : get b 4 2 = 1
      · exact .inl first
      · exact .inr (version first)
    case size => exact size
    case room => exact ⟨head ▸ Nat.mod_lt _ (by decide), room⟩
    case count => exact count
    case armed => rw [← armed_, armed_read armed]
    case states => rw [← lowSeen, ← finalized, states_read few]
    case boot =>
      have small : get b 12 4 < 2 ^ 32 := get_lt b 12 4
      rw [← boot_, UInt32.toNat_ofNat', Nat.mod_eq_of_lt small]
    case rows =>
      intro i hi
      exact ⟨at_ofFn (rowAt b) room rows_.symm head.symm hi,
        List.all_eq_true.mp rows i (List.mem_range.mpr hi)⟩
    case reserved => exact reserved
    case unused => exact unused
    case checksum => exact checksum
  · cases h

def rawShown (b : Blob) : Bool :=
  (List.range (get b 8 2)).any fun i => (rowAt b i).rawCoulombValid

section Found

variable {b : Blob} {m : Model} (h : Found b m)
include h

theorem Found.raw : m.items.any Sample.rawCoulombValid = rawShown b := by
  rw [Model.items, List.any_map, rawShown, h.count, Bool.eq_iff_iff, List.any_eq_true,
    List.any_eq_true]
  apply exists_congr
  intro i
  apply and_congr_right
  intro hi
  rw [Function.comp_apply, (h.rows i (List.mem_range.mp hi)).1]

/-- The first version has no raw coulomb counts. -/
theorem Found.first_version (first : get b 4 2 = 1) : rawShown b = false := by
  rw [rawShown, h.count, List.any_eq_false]
  intro i hi
  have accepted := (h.rows i (List.mem_range.mp hi)).2
  rw [first] at accepted
  simp only [rowAccepted, Bool.and_eq_true, beq_iff_eq] at accepted
  have flags : (rowAt b i).flags &&& ~~~31 = 0 := accepted.1.1.2
  have bit : (rowAt b i).flags &&& 32 = ((rowAt b i).flags &&& ~~~31) &&& 32 := by
    rw [UInt16.and_assoc]
    rfl
  rw [Sample.rawCoulombValid, bit, flags]
  decide

theorem Found.header (version : get b 4 2 = if rawShown b then 2 else 1) :
    getAll (encodeInto m) 0 (m.header.map Prod.fst) = getAll b 0 (m.header.map Prod.fst) := by
  rw [getAll_header m h.room]
  simp only [Model.header, List.map_cons, List.map_nil, getAll, Nat.zero_add, Nat.reduceAdd,
    h.magic, version, h.size, h.count, h.armed, h.states, h.boot, h.raw]

theorem Found.row {i : Nat} (hi : i < m.count) : rowBytes (encodeInto m) i = rowBytes b i := by
  obtain ⟨here, accepted⟩ := h.rows i hi
  simp only [rowAccepted, Bool.and_eq_true, Bool.or_eq_true, beq_iff_eq] at accepted
  rw [rowBytes_encodeInto m h.room hi, here, rowAt, encodeRow_readRow _ accepted.2]

/-- All bytes before the checksum are written as they were. -/
theorem Found.body (version : get b 4 2 = if rawShown b then 2 else 1) {i : Nat}
    (hi : i < blobSize - 4) : byteAt (encodeInto m) i = byteAt b i := by
  have blank := zeros_encodeInto m
  rw [zeros_iff, zeros_iff] at blank
  by_cases header : i < 16
  · exact byteAt_eq_of_getAll (h.header version) (Nat.zero_le i) (by simpa [Model.header] using header)
  by_cases reserved : i < 32
  · rw [blank.1 i (by omega) reserved, (zeros_iff b 16 32).mp h.reserved i (by omega) reserved]
  by_cases row : i < 32 + m.count * recordSize
  · have same := h.row (i := (i - 32) / recordSize) (by
      simp only [recordSize] at *
      omega)
    exact byteAt_eq_of_slice same (by simp only [recordSize]; omega)
      (by simp only [recordSize]; omega)
  · rw [blank.2 i (by omega) hi, (zeros_iff b _ _).mp h.unused i (by omega) hi]

theorem Found.needed (same : encodeInto m = b) (second : get b 4 2 = 2) : rawShown b = true := by
  have values := getAll_header m h.room
  simp only [Model.header, List.map_cons, List.map_nil, getAll, Nat.zero_add, Nat.reduceAdd,
    List.cons.injEq, and_true] at values
  have version := values.2.1
  rw [same, second, h.raw] at version
  by_contra plain
  rw [if_neg plain] at version
  cases version

theorem Found.written (needed : get b 4 2 = 2 → rawShown b = true) : encodeInto m = b := by
  have version : get b 4 2 = if rawShown b then 2 else 1 := by
    rcases h.version with first | second
    · rw [first, h.first_version first]
      rfl
    · rw [second, needed second]
      rfl
  have body := fun i (hi : i < blobSize - 4) => h.body version hi
  apply ext_byteAt
  intro i hi
  by_cases early : i < blobSize - 4
  · exact body i early
  · have crc : get (encodeInto m) (blobSize - 4) 4 = get b (blobSize - 4) 4 := by
      have stored := h.checksum
      have closed := crcMatches_closeCrc (blitRows (putAll (zero blobSize) 0 m.header) 32
        (m.items.map encodeRow)) (blobSize - 4) (by rw [blobSize_eq])
      rw [crcMatches, beq_iff_eq] at stored closed
      rw [stored, ← crc_congr body]
      exact closed
    exact byteAt_eq_of_get crc (by omega) (by omega)

end Found

/-- An accepted blob is written again as it was, unless it has the second version without need. -/
theorem encodeInto_decode_iff {b : Blob} {m : Model} (h : decode b = some m) :
    encodeInto m = b ↔ (get b 4 2 = 2 → rawShown b = true) := by
  have found := found_of_decode h
  constructor
  · exact fun same second => found.needed same second
  · exact fun needed => found.written needed

def rawTrace : Model := Model.push {} { boot := 1, flags := 33, soc := 40, voltageMv := 3600, rawCoulombMah := 1200 }

theorem rawTrace_bounded : rawTrace.Bounded := ⟨by decide, by decide⟩

private theorem rawTrace_read : decode (encodeInto rawTrace) = some rawTrace.restored := by
  rw [decode_encodeInto rawTrace_bounded, if_pos (by decide)]

/-- It is of the second version, and written again as it was. -/
theorem raw_written : get (encodeInto rawTrace) 4 2 = 2 ∧ rawShown (encodeInto rawTrace) = true ∧
    decode (encodeInto rawTrace) = some rawTrace.restored ∧ encodeInto rawTrace.restored = encodeInto rawTrace := by
  have values := getAll_header rawTrace rawTrace_bounded
  simp only [Model.header, List.map_cons, List.map_nil, getAll, Nat.zero_add, Nat.reduceAdd,
    List.cons.injEq, and_true] at values
  have version : get (encodeInto rawTrace) 4 2 = 2 := values.2.1
  have shown : rawShown (encodeInto rawTrace) = true := by
    rw [← (found_of_decode rawTrace_read).raw]
    decide
  exact ⟨version, shown, rawTrace_read, (encodeInto_decode_iff rawTrace_read).mpr fun _ => shown⟩

def needlessHeader : List (Nat × Nat) :=
  [(4, 0x31544447), (2, 2), (2, recordSize), (2, 0), (1, 0), (1, 0), (4, 1)]

def needless : Blob := closeCrc (putAll (zero blobSize) 0 needlessHeader) (blobSize - 4)

theorem needless_header :
    getAll needless 0 (needlessHeader.map Prod.fst) = needlessHeader.map Prod.snd := by
  have fits : 0 + width needlessHeader ≤ blobSize := by decide
  rw [← getAll_putAll (zero blobSize) 0 needlessHeader fits (by decide)]
  apply getAll_congr
  intro i _ hi
  have early : i < 16 := by simpa [needlessHeader] using hi
  rw [needless, byteAt_closeCrc _ _ _ (by rw [blobSize_eq]; omega)]

private theorem needless_zeros {first last : Nat} (h : 16 ≤ first) (h' : last ≤ blobSize - 4) :
    zeros needless first last = true := by
  rw [zeros_iff]
  intro i hi inside
  have size : width needlessHeader = 16 := by decide
  rw [needless, byteAt_closeCrc _ _ _ (by omega),
    byteAt_putAll_of_not_mem _ _ _ _ (.inr (by omega)), byteAt_zero]

theorem needless_read : ∃ m, decode needless = some m := by
  have values := needless_header
  simp only [needlessHeader, List.map_cons, List.map_nil, getAll, Nat.zero_add, Nat.reduceAdd,
    List.cons.injEq, and_true] at values
  obtain ⟨magic, version, size, count, armed, states, boot⟩ := values
  have checksum : crcMatches needless (blobSize - 4) = true :=
    crcMatches_closeCrc _ _ (by rw [blobSize_eq])
  have unused := needless_zeros (show 16 ≤ 32 by omega) (le_refl (blobSize - 4))
  have reserved : zeros needless 16 32 = true := needless_zeros (le_refl 16) (by rw [blobSize_eq]; omega)
  apply Option.isSome_iff_exists.mp
  unfold decode
  dsimp only
  rw [magic, version, size, count, armed, states, boot, checksum, reserved, Nat.zero_mul, Nat.add_zero,
    unused, if_neg (by decide), if_neg (by decide), List.range_zero, List.all_nil,
    if_pos (by decide), Option.isSome_some]

/-- A blob of the second version without rows is accepted, and written in the first. -/
theorem decode_not_canonical :
    ¬ ∀ (b : Blob) (m : Model), decode b = some m → encodeInto m = b := by
  intro canonical
  obtain ⟨m, read⟩ := needless_read
  have values := needless_header
  simp only [needlessHeader, List.map_cons, List.map_nil, getAll, Nat.zero_add, Nat.reduceAdd,
    List.cons.injEq, and_true] at values
  have shown := (found_of_decode read).needed (canonical needless m read) values.2.1
  rw [rawShown, values.2.2.2.1] at shown
  cases shown

end Mosaico.Host.GaugeTrace
