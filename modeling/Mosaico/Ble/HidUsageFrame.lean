import Mosaico.Library.WireLists
import Mosaico.Ble.HidOutput

/-! Usage frames on both sides: `format_hid_usage_report` of `stopwatch_bridge.py` and the decoder
in `onOutput` lay out the same fields. -/
namespace Mosaico.Ble.HidOutput

open Host ByteFields WireLists

@[ext] structure UsageSnapshot where
  remainingBasisPoints : Int
  resetEpoch : Int
  capturedEpoch : Int
  resetCredits : Int
  deriving DecidableEq

/-- `fnv1a32` of the host tools. -/
def hostFnv1a32 (payload : List UInt8) : Nat :=
  payload.foldl (fun value b => ((value ^^^ b.toNat) * 0x01000193) &&& 0xFFFFFFFF) 0x811C9DC5

/-- The body as it is packed; the values are in range. -/
def usageBody (sequence remaining reset captured credits : Nat) : Bytes 63 :=
  let body := paste (zero 63) 0 [0xA5]
  let body := paste body 1 [0x01]
  let body := paste body 2 (le 4 sequence)
  let body := paste body 6 (le 2 remaining)
  let body := paste body 8 (le 4 reset)
  let body := paste body 12 (le 4 captured)
  let body := paste body 16 [UInt8.ofNat credits]
  paste body 17 (le 4 (hostFnv1a32 (body.toList.take 17)))

/-- The report with its id; `none` is the `BridgeError`. -/
def formatHidUsageReport (sequence : Int) (snapshot : UsageSnapshot) : Option (List UInt8) :=
  if sequence < 1 ∨ sequence > 0xFFFFFFFF then none
  else if ¬(0 ≤ snapshot.remainingBasisPoints ∧ snapshot.remainingBasisPoints ≤ 10000) then none
  else if ¬(0 ≤ snapshot.resetEpoch ∧ snapshot.resetEpoch ≤ 0xFFFFFFFF) then none
  else if ¬(1 ≤ snapshot.capturedEpoch ∧ snapshot.capturedEpoch ≤ 0xFFFFFFFF) then none
  else if ¬(0 ≤ snapshot.resetCredits ∧ snapshot.resetCredits ≤ 99) then none
  else
    some (reportId :: (usageBody sequence.toNat snapshot.remainingBasisPoints.toNat
      snapshot.resetEpoch.toNat snapshot.capturedEpoch.toNat snapshot.resetCredits.toNat).toList)

/-- What a frame carries. -/
structure Fields where
  sequence : Nat
  remainingBasisPoints : Nat
  resetEpoch : Nat
  capturedEpoch : Nat
  resetCredits : Nat

namespace Fields

variable (u : Fields)

structure Admissible : Prop where
  sequence : 1 ≤ u.sequence ∧ u.sequence < 256 ^ 4
  remaining : u.remainingBasisPoints ≤ 10000
  reset : u.resetEpoch < 256 ^ 4
  captured : 1 ≤ u.capturedEpoch ∧ u.capturedEpoch < 256 ^ 4
  credits : u.resetCredits ≤ 99

def snapshot : UsageSnapshot where
  remainingBasisPoints := u.remainingBasisPoints
  resetEpoch := u.resetEpoch
  capturedEpoch := u.capturedEpoch
  resetCredits := u.resetCredits

def data : List UInt8 :=
  [0xA5] ++ [0x01] ++ le 4 u.sequence ++ le 2 u.remainingBasisPoints ++ le 4 u.resetEpoch ++
    le 4 u.capturedEpoch ++ [UInt8.ofNat u.resetCredits]

def frame : List UInt8 := u.data ++ le 4 (fnv1a32 u.data).toNat

example : frame ⟨0x01020304, 8275, 1788295390, 1787740000, 2⟩ =
    [0xa5, 0x01, 0x04, 0x03, 0x02, 0x01, 0x53, 0x20, 0xde, 0x38, 0x97, 0x6a, 0x60, 0xbf, 0x8e, 0x6a,
      0x02, 0x10, 0xaf, 0xe3, 0x9a] := by decide +kernel

def sample (nowUs : Nat) : HostBridge.Sample where
  remainingBasisPoints := BitVec.ofNat 16 u.remainingBasisPoints
  resetEpoch := BitVec.ofNat 32 u.resetEpoch
  capturedEpoch := BitVec.ofNat 32 u.capturedEpoch
  resetCredits := BitVec.ofNat 8 u.resetCredits
  receivedAtMs := HostBridge.millis nowUs

@[simp] theorem length_data : u.data.length = 17 := by simp [data]

@[simp] theorem length_frame : u.frame.length = 21 := by simp [frame]

end Fields

section Host

theorem hostFnv_eq (payload : List UInt8) : hostFnv1a32 payload = (fnv1a32 payload).toNat := by
  unfold hostFnv1a32 fnv1a32
  have run (value : Nat) (hash : BitVec 32) (same : value = hash.toNat) :
      payload.foldl (fun value b => ((value ^^^ b.toNat) * 0x01000193) &&& 0xFFFFFFFF) value =
        (payload.foldl (fun hash b => (hash ^^^ b.toBitVec.setWidth 32) * 16777619) hash).toNat := by
    induction payload generalizing value hash with
    | nil => exact same
    | cons b payload ih =>
      apply ih
      have small := b.toNat_lt
      have low : b.toNat % 2 ^ 32 = b.toNat := Nat.mod_eq_of_lt (by omega)
      have masked := Nat.and_two_pow_sub_one_eq_mod ((value ^^^ b.toNat) * 16777619) 32
      rw [BitVec.toNat_mul, BitVec.toNat_xor, BitVec.toNat_setWidth, UInt8.toNat_toBitVec, low,
        ← same]
      exact masked
  exact run _ _ rfl

theorem usageBody_eq (u : Fields) :
    (usageBody u.sequence u.remainingBasisPoints u.resetEpoch u.capturedEpoch u.resetCredits).toList =
      u.frame ++ List.replicate 42 0 := by
  have data : paste (paste (paste (paste (paste (paste (paste (zero 63) 0 [0xA5]) 1 [0x01]) 2
      (le 4 u.sequence)) 6 (le 2 u.remainingBasisPoints)) 8 (le 4 u.resetEpoch)) 12
      (le 4 u.capturedEpoch)) 16 [UInt8.ofNat u.resetCredits] = paste (zero 63) 0 u.data := by
    rw [paste_next (by simp), paste_next (by simp), paste_next (by simp), paste_next (by simp),
      paste_next (by simp), paste_next (by simp)]
    simp only [Fields.data, List.append_assoc]
  have hashed : (paste (zero 63) 0 u.data).toList.take 17 = u.data := by
    rw [toList_paste _ (by simp), List.take_append_of_le_length (by simp),
      List.take_of_length_le (by simp)]
  unfold usageBody
  dsimp only
  rw [data, hashed, hostFnv_eq, paste_next (by simp), ← Fields.frame, toList_paste _ (by simp),
    Fields.length_frame]

/-- The values that are no error, and the report for them. -/
theorem formatHidUsageReport_iff {sequence : Int} {snapshot : UsageSnapshot} {report : List UInt8} :
    formatHidUsageReport sequence snapshot = some report ↔
      ∃ u : Fields, u.Admissible ∧ sequence = u.sequence ∧ snapshot = u.snapshot ∧
        report = reportId :: (u.frame ++ List.replicate 42 0) := by
  constructor
  · intro h
    unfold formatHidUsageReport at h
    split at h
    · cases h
    rename_i sequence_
    split at h
    · cases h
    rename_i remaining
    split at h
    · cases h
    rename_i reset
    split at h
    · cases h
    rename_i captured
    split at h
    · cases h
    rename_i credits
    let u : Fields := ⟨sequence.toNat, snapshot.remainingBasisPoints.toNat,
      snapshot.resetEpoch.toNat, snapshot.capturedEpoch.toNat, snapshot.resetCredits.toNat⟩
    refine ⟨u, ⟨?_, ?_, ?_, ?_, ?_⟩, ?_, ?_, ?_⟩
    · simp only [u]
      omega
    · simp only [u]
      omega
    · simp only [u]
      omega
    · simp only [u]
      omega
    · simp only [u]
      omega
    · simp only [u]
      omega
    · simp only [u, Fields.snapshot, UsageSnapshot.ext_iff]
      omega
    · rw [← usageBody_eq u]
      exact (Option.some.inj h).symm
  · rintro ⟨u, admissible, rfl, rfl, rfl⟩
    obtain ⟨sequence, remaining, reset, captured, credits⟩ := admissible
    have values : u.snapshot.remainingBasisPoints = u.remainingBasisPoints ∧
        u.snapshot.resetEpoch = u.resetEpoch ∧ u.snapshot.capturedEpoch = u.capturedEpoch ∧
          u.snapshot.resetCredits = u.resetCredits := ⟨rfl, rfl, rfl, rfl⟩
    obtain ⟨remaining_, reset_, captured_, credits_⟩ := values
    rw [formatHidUsageReport, if_neg (by omega), if_neg (by omega), if_neg (by omega),
      if_neg (by omega), if_neg (by omega), remaining_, reset_, captured_, credits_,
      Int.toNat_natCast, Int.toNat_natCast, Int.toNat_natCast, Int.toNat_natCast,
      Int.toNat_natCast, usageBody_eq]

end Host

/-- `w` bytes from `p` on. -/
def part (f : List UInt8) (p w : Nat) : List UInt8 := (f.drop p).take w

section Parts

variable {f : List UInt8} {p q w : Nat}

theorem length_part (h : p + w ≤ f.length) : (part f p w).length = w := by
  rw [part, List.length_take, List.length_drop]
  omega

theorem getD_part (i : Nat) (h : i < w) : (part f p w).getD i 0 = f.getD (p + i) 0 := by
  rw [part, List.getD_eq_getElem?_getD, List.getElem?_take_of_lt h, List.getElem?_drop,
    List.getD_eq_getElem?_getD]

theorem part_one (h : p < f.length) : part f p 1 = [f.getD p 0] := by
  apply List.ext_getElem
  · rw [length_part (by omega), List.length_singleton]
  · intro i hi _
    rw [length_part (by omega)] at hi
    have value := getD_part (f := f) (p := p) i hi
    rw [List.getD_eq_getElem _ _ (by rw [length_part (by omega)]; exact hi)] at value
    rw [value, List.getElem_singleton, show p + i = p by omega]

theorem join (low v k : Nat) (h : low < 2 ^ k) : low ||| v <<< k = low + v * 2 ^ k := by
  rw [Nat.or_comm, ← Nat.shiftLeft_add_eq_or_of_lt h, Nat.shiftLeft_eq, Nat.add_comm]

private theorem toNat_byte (b : UInt8) {k n : Nat} (h : 8 + k ≤ n) :
    (b.toBitVec.setWidth n <<< k).toNat = b.toNat <<< k := by
  have small := b.toNat_lt
  have room : 2 ^ (8 + k) ≤ 2 ^ n := Nat.pow_le_pow_right (by decide) h
  have product : b.toNat * 2 ^ k < 2 ^ (8 + k) := by
    rw [pow_add]
    exact Nat.mul_lt_mul_of_pos_right small (Nat.two_pow_pos k)
  have fits : b.toNat < 2 ^ n := by
    have least : 2 ^ 8 ≤ 2 ^ n := Nat.pow_le_pow_right (by decide) (by omega)
    omega
  rw [BitVec.toNat_shiftLeft, BitVec.toNat_setWidth, UInt8.toNat_toBitVec, Nat.mod_eq_of_lt fits,
    Nat.shiftLeft_eq, Nat.mod_eq_of_lt (by omega)]

theorem readUint16Le_part (h : p + 2 ≤ f.length) :
    (readUint16Le f p).toNat = leValue (part f p 2) := by
  have length := length_part h
  have first := getD_part (f := f) (p := p) 0 (show 0 < 2 by decide)
  have second := getD_part (f := f) (p := p) 1 (show 1 < 2 by decide)
  match bytes : part f p 2, length with
  | [a, b], _ =>
    rw [bytes] at first second
    have small := a.toNat_lt
    rw [readUint16Le, ← Nat.add_zero p, ← first, Nat.add_zero, ← second, BitVec.toNat_or]
    have low := toNat_byte a (show 8 + 0 ≤ 16 by decide)
    have high := toNat_byte b (show 8 + 8 ≤ 16 by decide)
    rw [BitVec.shiftLeft_zero, Nat.shiftLeft_zero] at low
    simp only [List.getD_cons_zero, List.getD_cons_succ, low, high, leValue]
    rw [join _ _ 8 (by omega)]
    omega

theorem readUint32Le_part (h : p + 4 ≤ f.length) :
    (readUint32Le f p).toNat = leValue (part f p 4) := by
  have length := length_part h
  have first := getD_part (f := f) (p := p) 0 (show 0 < 4 by decide)
  have second := getD_part (f := f) (p := p) 1 (show 1 < 4 by decide)
  have third := getD_part (f := f) (p := p) 2 (show 2 < 4 by decide)
  have fourth := getD_part (f := f) (p := p) 3 (show 3 < 4 by decide)
  match bytes : part f p 4, length with
  | [a, b, c, d], _ =>
    rw [bytes] at first second third fourth
    have small := a.toNat_lt
    have small_ := b.toNat_lt
    have smaller := c.toNat_lt
    rw [readUint32Le, ← Nat.add_zero p, ← first, Nat.add_zero, ← second, ← third, ← fourth,
      BitVec.toNat_or, BitVec.toNat_or, BitVec.toNat_or]
    have low := toNat_byte a (show 8 + 0 ≤ 32 by decide)
    have next := toNat_byte b (show 8 + 8 ≤ 32 by decide)
    have after := toNat_byte c (show 8 + 16 ≤ 32 by decide)
    have high := toNat_byte d (show 8 + 24 ≤ 32 by decide)
    rw [BitVec.shiftLeft_zero, Nat.shiftLeft_zero] at low
    simp only [List.getD_cons_zero, List.getD_cons_succ, low, next, after, high, leValue]
    rw [join _ _ 8 (by omega), join _ _ 16 (by omega), join _ _ 24 (by omega)]
    omega

theorem take_part (h : q = p + w) : f.take q = f.take p ++ part f p w := by
  rw [h, part, List.take_add]

end Parts

section Frame

variable {f rest : List UInt8}

def Fields.pieces (u : Fields) : List (List UInt8) :=
  [[0xA5], [0x01], le 4 u.sequence, le 2 u.remainingBasisPoints, le 4 u.resetEpoch,
    le 4 u.capturedEpoch, [UInt8.ofNat u.resetCredits], le 4 (fnv1a32 u.data).toNat]

theorem Fields.flatten_pieces (u : Fields) : u.pieces.flatten = u.frame := by
  simp [Fields.pieces, Fields.frame, Fields.data]

theorem Fields.widths_pieces (u : Fields) : u.pieces.map List.length = [1, 1, 4, 2, 4, 4, 1, 4] := by
  simp [Fields.pieces]

private theorem cut_frame (f : List UInt8) : cut [1, 1, 4, 2, 4, 4, 1, 4] f =
    [part f 0 1, part f 1 1, part f 2 4, part f 6 2, part f 8 4, part f 12 4, part f 16 1,
      part f 17 4] ++ [f.drop 21] := by
  simp [cut, part]

/-- A frame is its fields, one behind the other. -/
theorem frame_iff {u : Fields} : f = u.frame ++ rest ↔
    [part f 0 1, part f 1 1, part f 2 4, part f 6 2, part f 8 4, part f 12 4, part f 16 1,
      part f 17 4] ++ [f.drop 21] = u.pieces ++ [rest] := by
  rw [← cut_frame, ← u.flatten_pieces]
  constructor
  · intro same
    have pieces := flatten_cut u.pieces rest
    rwa [u.widths_pieces, ← same] at pieces
  · intro pieces
    have whole := congrArg List.flatten pieces
    rwa [cut_flatten, List.flatten_append, List.flatten_singleton] at whole

theorem frame_parts {u : Fields} (h : f = u.frame ++ rest) :
    part f 0 1 = [0xA5] ∧ part f 1 1 = [0x01] ∧ part f 2 4 = le 4 u.sequence ∧
      part f 6 2 = le 2 u.remainingBasisPoints ∧ part f 8 4 = le 4 u.resetEpoch ∧
      part f 12 4 = le 4 u.capturedEpoch ∧ part f 16 1 = [UInt8.ofNat u.resetCredits] ∧
      part f 17 4 = le 4 (fnv1a32 u.data).toNat ∧ f.drop 21 = rest := by
  have pieces := frame_iff.mp h
  simp only [Fields.pieces, List.cons_append, List.nil_append, List.cons.injEq, and_true] at pieces
  exact pieces

/-- The bytes under the hash, part by part. -/
theorem take_data (f : List UInt8) : f.take 17 = part f 0 1 ++ part f 1 1 ++ part f 2 4 ++
    part f 6 2 ++ part f 8 4 ++ part f 12 4 ++ part f 16 1 := by
  have first : f.take 1 = part f 0 1 := by rw [part, List.drop_zero]
  rw [take_part (show 17 = 16 + 1 by rfl), take_part (show 16 = 12 + 4 by rfl),
    take_part (show 12 = 8 + 4 by rfl), take_part (show 8 = 6 + 2 by rfl),
    take_part (show 6 = 2 + 4 by rfl), take_part (show 2 = 1 + 1 by rfl), first]

def fieldsOf (f : List UInt8) : Fields where
  sequence := leValue (part f 2 4)
  remainingBasisPoints := leValue (part f 6 2)
  resetEpoch := leValue (part f 8 4)
  capturedEpoch := leValue (part f 12 4)
  resetCredits := (f.getD 16 0).toNat

private theorem le_part {p w : Nat} (h : p + w ≤ f.length) : le w (leValue (part f p w)) = part f p w := by
  have bytes := le_leValue (part f p w)
  rwa [length_part h] at bytes

theorem leValue_part_lt {p w : Nat} (h : p + w ≤ f.length) : leValue (part f p w) < 256 ^ w := by
  have small := leValue_lt (part f p w)
  rwa [length_part h] at small

theorem frame_of_read (long : 21 ≤ f.length) (marker : f.getD 0 0 = 0xA5)
    (version : f.getD 1 0 = 0x01)
    (hash : fnv1a32 (f.take 17) = readUint32Le f 17) : f = (fieldsOf f).frame ++ f.drop 21 := by
  have first := part_one (show 0 < f.length by omega)
  have second := part_one (show 1 < f.length by omega)
  have last := part_one (show 16 < f.length by omega)
  have data : (fieldsOf f).data = f.take 17 := by
    rw [take_data, first, second, last, marker, version, Fields.data]
    simp only [fieldsOf, le_part (show 2 + 4 ≤ f.length by omega),
      le_part (show 6 + 2 ≤ f.length by omega), le_part (show 8 + 4 ≤ f.length by omega),
      le_part (show 12 + 4 ≤ f.length by omega), UInt8.ofNat_toNat]
  have closing : le 4 (fnv1a32 (fieldsOf f).data).toNat = part f 17 4 := by
    rw [data, hash, readUint32Le_part (by omega), le_part (by omega)]
  have split : f.take 21 = (fieldsOf f).frame := by
    rw [take_part (show 21 = 17 + 4 by rfl), Fields.frame, closing, data]
  rw [← split, List.take_append_drop]

theorem toNat_ofNat_of_lt {w v : Nat} (h : v < 2 ^ w) : (BitVec.ofNat w v).toNat = v := by
  rw [BitVec.toNat_ofNat, Nat.mod_eq_of_lt h]

theorem readUint32Le_le {p v : Nat} (inside : p + 4 ≤ f.length) (bytes : part f p 4 = le 4 v)
    (small : v < 256 ^ 4) : readUint32Le f p = BitVec.ofNat 32 v := by
  apply BitVec.eq_of_toNat_eq
  rw [readUint32Le_part inside, bytes, leValue_le small, toNat_ofNat_of_lt small]

private theorem readUint16Le_le {p v : Nat} (inside : p + 2 ≤ f.length) (bytes : part f p 2 = le 2 v)
    (small : v < 256 ^ 2) : readUint16Le f p = BitVec.ofNat 16 v := by
  apply BitVec.eq_of_toNat_eq
  rw [readUint16Le_part inside, bytes, leValue_le small, toNat_ofNat_of_lt small]

private theorem getD_of_part {p : Nat} {v : UInt8} (inside : p < f.length) (bytes : part f p 1 = [v]) :
    f.getD p 0 = v := by
  rw [part_one inside] at bytes
  exact List.singleton_inj.mp bytes

end Frame

section Decoder

variable {data : List UInt8} {u : Fields} {nowUs : Nat}

theorem usageFrame_of_frame (h : u.Admissible) {k : Nat}
    (frame : data.drop (wirelessOffset data) = u.frame ++ List.replicate k 0) :
    usageFrame data nowUs = some (BitVec.ofNat 32 u.sequence, u.sample nowUs) := by
  obtain ⟨sequence, remaining, reset, captured, credits⟩ := h
  unfold usageFrame
  dsimp only
  generalize data.drop (wirelessOffset data) = f at frame ⊢
  have long : 21 ≤ f.length := by
    rw [frame, List.length_append, u.length_frame]
    omega
  obtain ⟨-, version, seq, left, until_, at_, resets, hash, tail⟩ := frame_parts frame
  have data_ : f.take 17 = u.data := by
    rw [frame, Fields.frame, List.append_assoc, List.take_append_of_le_length (by simp),
      List.take_of_length_le (by simp)]
  have hashed : readUint32Le f 17 = fnv1a32 u.data := by
    rw [readUint32Le_le (by omega) hash (fnv1a32 u.data).isLt, BitVec.ofNat_toNat,
      BitVec.setWidth_eq]
  have reads : readUint32Le f 2 = BitVec.ofNat 32 u.sequence ∧
      readUint16Le f 6 = BitVec.ofNat 16 u.remainingBasisPoints ∧
      readUint32Le f 8 = BitVec.ofNat 32 u.resetEpoch ∧
      readUint32Le f 12 = BitVec.ofNat 32 u.capturedEpoch ∧
      (f.getD 16 0).toBitVec = BitVec.ofNat 8 u.resetCredits :=
    ⟨readUint32Le_le (by omega) seq sequence.2, readUint16Le_le (by omega) left (by omega),
      readUint32Le_le (by omega) until_ reset, readUint32Le_le (by omega) at_ captured.2,
      congrArg UInt8.toBitVec (getD_of_part (by omega) resets)⟩
  obtain ⟨seq_, left_, until__, at__, resets_⟩ := reads
  have sequence_ : (BitVec.ofNat 32 u.sequence).toNat = u.sequence := toNat_ofNat_of_lt sequence.2
  have captured_ : (BitVec.ofNat 32 u.capturedEpoch).toNat = u.capturedEpoch :=
    toNat_ofNat_of_lt captured.2
  have remaining_ : (BitVec.ofNat 16 u.remainingBasisPoints).toNat = u.remainingBasisPoints :=
    toNat_ofNat_of_lt (by omega)
  have credits_ : (BitVec.ofNat 8 u.resetCredits).toNat = u.resetCredits :=
    toNat_ofNat_of_lt (by omega)
  have inRange : ¬ (BitVec.ofNat 32 u.sequence = 0 ∨ BitVec.ofNat 16 u.remainingBasisPoints > 10000 ∨
      BitVec.ofNat 32 u.capturedEpoch = 0 ∨ BitVec.ofNat 8 u.resetCredits > 99) := by
    rintro (none_ | many | none_ | many)
    · rw [none_] at sequence_
      simp at sequence_
      omega
    · rw [gt_iff_lt, BitVec.lt_def, remaining_] at many
      simp at many
      omega
    · rw [none_] at captured_
      simp at captured_
      omega
    · rw [gt_iff_lt, BitVec.lt_def, credits_] at many
      simp at many
      omega
  rw [if_neg (Nat.not_lt.mpr long), tail, if_neg (by simp), if_neg (not_not.mpr (getD_of_part (by omega) version)),
    data_, hashed, if_neg (not_not.mpr rfl), seq_, left_, until__, at__, resets_, if_neg inRange,
    Fields.sample]

theorem frame_of_usageFrame (marked : isWirelessUsage data = true)
    {sequence : BitVec 32} {sample : HostBridge.Sample}
    (h : usageFrame data nowUs = some (sequence, sample)) :
    ∃ u : Fields, u.Admissible ∧
      ∃ k, data.drop (wirelessOffset data) = u.frame ++ List.replicate k 0 := by
  have marker : (data.drop (wirelessOffset data)).getD 0 0 = 0xA5 := by
    simp only [isWirelessUsage, Bool.and_eq_true, beq_iff_eq] at marked
    rw [List.getD_eq_getElem?_getD, List.getElem?_drop, Nat.add_zero, ← List.getD_eq_getElem?_getD]
    exact marked.2
  unfold usageFrame at h
  dsimp only at h
  generalize data.drop (wirelessOffset data) = f at marker h ⊢
  split at h
  · cases h
  rename_i long
  split at h
  · cases h
  rename_i tail
  split at h
  · cases h
  rename_i version
  split at h
  · cases h
  rename_i hash
  split at h
  · cases h
  rename_i values
  have long_ : 21 ≤ f.length := Nat.le_of_not_lt long
  obtain ⟨seq, left, at_, resets⟩ : readUint32Le f 2 ≠ 0 ∧ ¬ readUint16Le f 6 > 10000 ∧
      readUint32Le f 12 ≠ 0 ∧ ¬ (f.getD 16 0).toBitVec > 99 := by
    simpa only [not_or] using values
  refine ⟨fieldsOf f, ?_, (f.drop 21).length, ?_⟩
  · constructor
    case sequence =>
      have some_ : (readUint32Le f 2).toNat ≠ 0 := fun none_ => seq (BitVec.eq_of_toNat_eq none_)
      rw [readUint32Le_part (by omega)] at some_
      exact ⟨Nat.pos_of_ne_zero some_, leValue_part_lt (by omega)⟩
    case remaining =>
      rw [gt_iff_lt, BitVec.lt_def, readUint16Le_part (by omega)] at left
      simpa [fieldsOf] using left
    case reset => exact leValue_part_lt (by omega)
    case captured =>
      have some_ : (readUint32Le f 12).toNat ≠ 0 := fun none_ => at_ (BitVec.eq_of_toNat_eq none_)
      rw [readUint32Le_part (by omega)] at some_
      exact ⟨Nat.pos_of_ne_zero some_, leValue_part_lt (by omega)⟩
    case credits =>
      rw [gt_iff_lt, BitVec.lt_def] at resets
      simpa [fieldsOf] using resets
  · have zeros : f.drop 21 = List.replicate (f.drop 21).length 0 := by
      rw [List.eq_replicate_iff]
      refine ⟨rfl, fun b hb => ?_⟩
      have zero_ := tail
      rw [Bool.not_eq_true, List.any_eq_false] at zero_
      simpa using zero_ b hb
    rw [← zeros]
    exact frame_of_read long_ marker (not_not.mp version) (not_not.mp hash)

private theorem getD_frame (u : Fields) (rest : List UInt8) : (u.frame ++ rest).getD 0 0 = 0xA5 := rfl

/-- The frame of these fields, with or without the report id, and zeros behind it. -/
def Carried (u : Fields) (data : List UInt8) : Prop :=
  ∃ k, data = u.frame ++ List.replicate k 0 ∨
    data = reportId :: (u.frame ++ List.replicate k 0)

theorem carried_iff : Carried u data ↔ isWirelessUsage data = true ∧
    ∃ k, data.drop (wirelessOffset data) = u.frame ++ List.replicate k 0 := by
  constructor
  · rintro ⟨k, rfl | rfl⟩
    · have offset : wirelessOffset (u.frame ++ List.replicate k 0) = 0 := by
        rw [wirelessOffset, if_neg]
        rintro ⟨-, id, -⟩
        rw [getD_frame] at id
        cases id
      rw [isWirelessUsage, offset, getD_frame]
      exact ⟨by simp, k, rfl⟩
    · have offset : wirelessOffset (reportId :: (u.frame ++ List.replicate k 0)) = 1 :=
        if_pos ⟨by simp; omega, rfl, rfl⟩
      have marker : (reportId :: (u.frame ++ List.replicate k 0)).getD 1 0 = wirelessUsageMarker := rfl
      rw [isWirelessUsage, offset, marker]
      exact ⟨by simp, k, rfl⟩
  · rintro ⟨marked, k, frame⟩
    refine ⟨k, ?_⟩
    rw [wirelessOffset] at frame
    split at frame
    · rename_i id
      right
      cases data with
      | nil => cases marked
      | cons b rest =>
        have first : b = reportId := id.2.1
        rw [first, ← frame, List.drop_succ_cons, List.drop_zero]
    · left
      exact frame

end Decoder

def UsageSnapshot.sample (snapshot : UsageSnapshot) (nowUs : Nat) : HostBridge.Sample where
  remainingBasisPoints := BitVec.ofInt 16 snapshot.remainingBasisPoints
  resetEpoch := BitVec.ofInt 32 snapshot.resetEpoch
  capturedEpoch := BitVec.ofInt 32 snapshot.capturedEpoch
  resetCredits := BitVec.ofInt 8 snapshot.resetCredits
  receivedAtMs := HostBridge.millis nowUs

/-- The report of these values up to its hash, with or without the report id, then only zeros. -/
def Sent (sequence : Int) (snapshot : UsageSnapshot) (data : List UInt8) : Prop :=
  ∃ report k, formatHidUsageReport sequence snapshot = some report ∧
    (data = part report 1 wirelessUsageFrameSize ++ List.replicate k 0 ∨
      data = reportId :: (part report 1 wirelessUsageFrameSize ++ List.replicate k 0))

def SentWhole (sequence : Int) (snapshot : UsageSnapshot) (data : List UInt8) : Prop :=
  ∃ report k, formatHidUsageReport sequence snapshot = some report ∧
    (data = report.drop 1 ++ List.replicate k 0 ∨ data = report ++ List.replicate k 0)

section Receiver

variable {rx : Receiver} {data : List UInt8} {nowUs : Nat} {queued : Bool}

theorem sent_iff {sequence : Int} {snapshot : UsageSnapshot} : Sent sequence snapshot data ↔
    ∃ u : Fields, u.Admissible ∧ sequence = u.sequence ∧ snapshot = u.snapshot ∧ Carried u data := by
  have frame (u : Fields) : part (reportId :: (u.frame ++ List.replicate 42 0)) 1
      wirelessUsageFrameSize = u.frame := by
    rw [part, List.drop_succ_cons, List.drop_zero, List.take_append_of_le_length (by simp),
      List.take_of_length_le (by simp)]
  constructor
  · rintro ⟨report, k, formatted, sent⟩
    obtain ⟨u, admissible, sequence_, snapshot_, rfl⟩ := formatHidUsageReport_iff.mp formatted
    rw [frame] at sent
    exact ⟨u, admissible, sequence_, snapshot_, k, sent⟩
  · rintro ⟨u, admissible, sequence_, snapshot_, k, sent⟩
    refine ⟨_, k, formatHidUsageReport_iff.mpr ⟨u, admissible, sequence_, snapshot_, rfl⟩, ?_⟩
    rw [frame]
    exact sent

theorem sample_snapshot (u : Fields) (nowUs : Nat) : u.snapshot.sample nowUs = u.sample nowUs := by
  simp [UsageSnapshot.sample, Fields.snapshot, Fields.sample, BitVec.ofInt_natCast]

private theorem malformed_of_usageFrame {sequence : BitVec 32} {sample : HostBridge.Sample}
    (h : usageFrame data nowUs = some (sequence, sample)) :
    HostBridge.malformed false sequence sample = false := by
  unfold usageFrame at h
  dsimp only at h
  repeat (split at h; · cases h)
  rename_i inRange
  have made := Option.some.inj h
  rw [Prod.mk.injEq] at made
  obtain ⟨rfl, rfl⟩ := made
  simpa [HostBridge.malformed, not_or, and_assoc] using inRange

/-- A frame that is taken reaches the bridge as it was sent, one that is not changes nothing there. -/
theorem onUsage_cases (marked : isWirelessUsage data = true) :
    let after := onOutput rx ⟨some data, nowUs, queued⟩
    (∀ sequence sample, usageFrame data nowUs = some (sequence, sample) →
      HostBridge.sequenceNewer sequence rx.bridge.lastUsageSequence = true →
        after.wirelessUsageAccepted = rx.wirelessUsageAccepted + 1 ∧ after.bridge =
          HostBridge.store { rx.bridge with lastUsageSequence := sequence } sample) ∧
      ((∀ sequence sample, usageFrame data nowUs = some (sequence, sample) →
        HostBridge.sequenceNewer sequence rx.bridge.lastUsageSequence = false) →
          after.wirelessUsageAccepted = rx.wirelessUsageAccepted ∧ after.bridge = rx.bridge) := by
  intro after
  have made : after = onUsage { rx with rxReports := rx.rxReports + 1 } data nowUs := if_pos marked
  rw [made]
  unfold onUsage
  cases frame : usageFrame data nowUs with
  | none => exact ⟨nofun, fun _ => ⟨rfl, rfl⟩⟩
  | some read =>
    obtain ⟨sequence, sample⟩ := read
    have good := malformed_of_usageFrame frame
    have applied : HostBridge.apply rx.bridge false sequence sample =
        if HostBridge.sequenceNewer sequence rx.bridge.lastUsageSequence = false then
          (false, rx.bridge)
        else (true, HostBridge.store { rx.bridge with lastUsageSequence := sequence } sample) := by
      rw [HostBridge.apply, good, if_neg Bool.false_ne_true, if_neg Bool.false_ne_true]
    dsimp only
    rw [applied]
    constructor
    · intro s x same newer
      rw [Option.some.injEq, Prod.mk.injEq] at same
      obtain ⟨rfl, rfl⟩ := same
      rw [if_neg (by rw [newer]; exact Bool.true_eq_false.mp)]
      exact ⟨rfl, rfl⟩
    · intro stale
      rw [if_pos (stale sequence sample rfl)]
      exact ⟨rfl, rfl⟩

def UsageKept (rx after : Receiver) : Prop :=
  after.wirelessUsageAccepted = rx.wirelessUsageAccepted ∧ after.bridge = rx.bridge

private theorem classify_keeps : UsageKept rx (classify rx queued) := by
  unfold classify
  cases rpcObjectState rx.rpcBuffer with
  | incomplete => exact ⟨rfl, rfl⟩
  | complete => cases queued <;> exact ⟨rfl, rfl⟩
  | invalid => exact ⟨rfl, rfl⟩

private theorem onPayload_keeps (payload : List UInt8) : UsageKept rx (onPayload rx payload queued) := by
  unfold onPayload
  dsimp only
  generalize (if startsTopLevel payload then [] else rx.rpcBuffer) = buffer
  by_cases long : maxRpcBufferSize < buffer.length + payload.length
  · rw [if_pos long]
    exact ⟨rfl, rfl⟩
  rw [if_neg long]
  by_cases empty : buffer = [] ∧ payload.dropWhile (· != openBrace) = []
  · rw [if_pos empty]
    exact ⟨rfl, rfl⟩
  · rw [if_neg empty]
    have kept := @classify_keeps { rx with rpcBuffer := appended buffer payload } queued
    exact kept

theorem onRpcReport_keeps : UsageKept rx (onRpcReport rx data queued) := by
  unfold onRpcReport
  dsimp only
  generalize (if 3 ≤ data.length ∧ data.getD 0 0 = reportId then 1 else 0) = offset
  by_cases short : data.length < offset + 2 ∨ data.getD offset 0 ≠ 2
  · rw [if_pos short]
    exact ⟨rfl, rfl⟩
  rw [if_neg short]
  by_cases long : payloadSize < (data.getD (offset + 1) 0).toNat
  · rw [if_pos long]
    exact ⟨rfl, rfl⟩
  rw [if_neg long]
  by_cases cut_ : data.length < offset + 2 + (data.getD (offset + 1) 0).toNat
  · rw [if_pos cut_]
    exact ⟨rfl, rfl⟩
  · rw [if_neg cut_]
    exact onPayload_keeps _

theorem onOutput_unmarked (unmarked : isWirelessUsage data = false) :
    UsageKept rx (onOutput rx ⟨some data, nowUs, queued⟩) := by
  unfold onOutput
  dsimp only
  rw [if_neg (by rw [unmarked]; exact Bool.false_ne_true)]
  split
  · exact ⟨rfl, rfl⟩
  · exact onRpcReport_keeps

def Newer (rx : Receiver) (sequence : Int) : Prop :=
  HostBridge.sequenceNewer (BitVec.ofInt 32 sequence) rx.bridge.lastUsageSequence = true

private theorem sent_taken {sequence : Int} {snapshot : UsageSnapshot} (sent : Sent sequence snapshot data)
    (newer : Newer rx sequence) :
    let after := onOutput rx ⟨some data, nowUs, queued⟩
    after.wirelessUsageAccepted = rx.wirelessUsageAccepted + 1 ∧ after.bridge =
      HostBridge.store { rx.bridge with lastUsageSequence := BitVec.ofInt 32 sequence }
        (snapshot.sample nowUs) := by
  obtain ⟨u, admissible, rfl, rfl, carried⟩ := sent_iff.mp sent
  obtain ⟨marked, k, frame⟩ := carried_iff.mp carried
  rw [Newer, BitVec.ofInt_natCast] at newer
  rw [BitVec.ofInt_natCast, sample_snapshot]
  exact (onUsage_cases marked).1 _ _ (usageFrame_of_frame admissible frame) newer

theorem unsent_kept (unsent : ¬ ∃ sequence snapshot, Sent sequence snapshot data ∧ Newer rx sequence) :
    UsageKept rx (onOutput rx ⟨some data, nowUs, queued⟩) := by
  cases marked : isWirelessUsage data with
  | false => exact onOutput_unmarked marked
  | true =>
    apply (onUsage_cases marked).2
    intro sequence sample taken
    obtain ⟨u, admissible, k, frame⟩ := frame_of_usageFrame marked taken
    have read := @usageFrame_of_frame data u nowUs admissible k frame
    rw [taken, Option.some.injEq, Prod.mk.injEq] at read
    have sent := sent_iff.mpr ⟨u, admissible, rfl, rfl, carried_iff.mpr ⟨marked, k, frame⟩⟩
    rw [← Bool.not_eq_true]
    intro newer
    refine unsent ⟨_, _, sent, ?_⟩
    rw [Newer, BitVec.ofInt_natCast, ← read.1]
    exact newer

/-- A report is taken as a usage frame exactly when it was laid out by `format_hid_usage_report` up
to its hash, with zeros behind, and is not stale; then its values reach the bridge. -/
theorem onOutput_usage (rx : Receiver) (data : List UInt8) (nowUs : Nat) (queued : Bool) :
    let after := onOutput rx ⟨some data, nowUs, queued⟩
    (after.wirelessUsageAccepted = rx.wirelessUsageAccepted + 1 ↔
      ∃ sequence snapshot, Sent sequence snapshot data ∧ Newer rx sequence) ∧
    (∀ sequence snapshot, Sent sequence snapshot data → Newer rx sequence → after.bridge =
      HostBridge.store { rx.bridge with lastUsageSequence := BitVec.ofInt 32 sequence }
        (snapshot.sample nowUs)) ∧
    ((¬ ∃ sequence snapshot, Sent sequence snapshot data ∧ Newer rx sequence) →
      UsageKept rx after) := by
  intro after
  refine ⟨⟨fun counted => ?_, ?_⟩, ?_, fun unsent => unsent_kept unsent⟩
  · by_contra unsent
    have kept : UsageKept rx after := unsent_kept unsent
    have same := kept.1.symm.trans counted
    have apart : rx.wirelessUsageAccepted ≠ rx.wirelessUsageAccepted + 1 := by
      intro equal
      have bits := congrArg UInt32.toBitVec equal
      simp at bits
    exact apart same
  · rintro ⟨sequence, snapshot, sent, newer⟩
    exact (sent_taken sent newer).1
  · intro sequence snapshot sent newer
    exact (sent_taken sent newer).2

def bareFrame : List UInt8 :=
  [0xa5, 0x01, 0x04, 0x03, 0x02, 0x01, 0x53, 0x20, 0xde, 0x38, 0x97, 0x6a, 0x60, 0xbf, 0x8e, 0x6a,
    0x02, 0x10, 0xaf, 0xe3, 0x9a]

/-- A frame without the padding of the report is taken as well. -/
theorem usage_not_whole :
    ¬ ∀ (rx : Receiver) (data : List UInt8) (nowUs : Nat) (queued : Bool),
      (onOutput rx ⟨some data, nowUs, queued⟩).wirelessUsageAccepted = rx.wirelessUsageAccepted + 1 ↔
        ∃ sequence snapshot, SentWhole sequence snapshot data := by
  intro whole
  have taken : (onOutput {} ⟨some bareFrame, 0, true⟩).wirelessUsageAccepted = 0 + 1 := by
    decide +kernel
  obtain ⟨sequence, snapshot, report, k, formatted, sent⟩ := (whole {} bareFrame 0 true).mp taken
  obtain ⟨u, -, -, -, rfl⟩ := formatHidUsageReport_iff.mp formatted
  rcases sent with bare | named
  · have length := congrArg List.length bare
    simp [bareFrame] at length
  · have length := congrArg List.length named
    simp [bareFrame] at length
    omega

end Receiver

end Mosaico.Ble.HidOutput
