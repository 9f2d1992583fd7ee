import Mosaico.Host.SystemLogExport
import Mosaico.Nand.LogLayout
import Mathlib.Data.List.Basic

/-! What the export says of a page, and of the items that the firmware enqueued. -/
namespace Mosaico.Host.SystemLogExport

open ByteFields PackedWords Nand.StoreModel Nand.LogModel SystemLog

section Codec

variable {n k p q len : Nat}

theorem byteAt_slice (b : Bytes n) (i : Nat) (hi : i < len) (hk : i < k) :
    byteAt (slice b p len k) i = byteAt b (p + i) := by
  rw [slice, byteAt_ofFn, if_pos hk, if_pos hi]

theorem get_slice (b : Bytes n) {size : Nat} (inside : q + size ≤ k) :
    get (slice b p k k) q size = get b (p + q) size := by
  induction size with
  | zero => rfl
  | succ size ih =>
    rw [ByteFields.get, ByteFields.get, ih (by omega), byteAt_slice b _ (by omega) (by omega), Nat.add_assoc]

theorem getAll_slice (b : Bytes n) {widths : List Nat} (inside : q + widths.sum ≤ k) :
    getAll (slice b p k k) q widths = getAll b (p + q) widths := by
  induction widths generalizing q with
  | nil => rfl
  | cons size widths ih =>
    rw [List.sum_cons] at inside
    rw [getAll, getAll, get_slice b (by omega), ih (by omega), Nat.add_assoc]

def argFields (args : List UInt32) : List (Nat × Nat) := args.map fun v => (4, v.toNat)

theorem putArgs_eq (b : Encoded) (args : Vector UInt32 11) :
    putArgs b args = putAll b 20 (argFields args.toList) := by
  have from_ (l : List UInt32) (b : Encoded) (k : Nat) :
      (l.zipIdx k).foldl (fun b entry => put b (20 + entry.2 * 4) entry.1.toNat 4) b =
        putAll b (20 + k * 4) (argFields l) := by
    induction l generalizing b k with
    | nil => rfl
    | cons v l ih =>
      have next : 20 + (k + 1) * 4 = 20 + k * 4 + 4 := by omega
      simp only [List.zipIdx_cons, List.foldl_cons, ih, next, argFields, List.map_cons, putAll]
  exact from_ args.toList b 0

theorem width_argFields (args : List UInt32) : width (argFields args) = args.length * 4 := by
  induction args with
  | nil => rfl
  | cons v args ih =>
    simp only [width, argFields, List.map_cons, List.sum_cons, List.length_cons] at ih ⊢
    omega

/-- The fields in front of the arguments. -/
private theorem get_encode (r : Record) (inside : q + k ≤ 20) :
    get (encode r) q k =
      get (put (put (put (put (zero recordSize) 0 r.type.code 2) 2 r.flags.toNat 2)
        4 r.monotonicMs.toNat 8) 12 r.epoch.toNat 8) q k := by
  rw [encode, putArgs_eq]
  exact get_congr fun i _ hi => byteAt_putAll_of_not_mem _ _ i _ (.inl (by omega))

private theorem code_lt (kind : Kind) : kind.code < 256 ^ 2 := by
  cases kind <;> decide

theorem encode_reads (r : Record) :
    get (encode r) 0 2 = r.type.code ∧ get (encode r) 2 2 = r.flags.toNat ∧
      get (encode r) 4 8 = r.monotonicMs.toNat ∧ get (encode r) 12 8 = r.epoch.toNat ∧
      getAll (encode r) 20 (List.replicate 11 4) = r.args.toList.map UInt32.toNat := by
  have kind := code_lt r.type
  have flags : r.flags.toNat < 256 ^ 2 := r.flags.toNat_lt
  have time : r.monotonicMs.toNat < 256 ^ 8 := r.monotonicMs.toNat_lt
  have epoch : r.epoch.toNat < 256 ^ 8 := r.epoch.toNat_lt
  refine ⟨?_, ?_, ?_, ?_, ?_⟩
  · rw [get_encode r (by decide)]
    simp (disch := first | assumption | decide) only [get_put_other, get_put]
  · rw [get_encode r (by decide)]
    simp (disch := first | assumption | decide) only [get_put_other, get_put]
  · rw [get_encode r (by decide)]
    simp (disch := first | assumption | decide) only [get_put_other, get_put]
  · rw [get_encode r (by decide), get_put _ _ _ _ (by decide) epoch]
  · have size : r.args.toList.length = 11 := r.args.length_toList
    have widths : (argFields r.args.toList).map Prod.fst = List.replicate 11 4 := by
      rw [argFields, List.map_map]
      exact List.eq_replicate_iff.mpr ⟨by simp, by simp⟩
    have values : (argFields r.args.toList).map Prod.snd = r.args.toList.map UInt32.toNat := by
      rw [argFields, List.map_map]
      rfl
    rw [encode, putArgs_eq, ← widths, ← values]
    apply getAll_putAll
    · rw [width_argFields, size]
    · intro field mem
      obtain ⟨v, _, rfl⟩ := List.mem_map.mp mem
      exact v.toNat_lt

end Codec

section Pages

variable {p p' : Page} {seq boot i : Nat} {records : List Record}

/-- The row of a record. -/
def rowOf (seq boot i : Nat) (raw : Raw) : Row where
  pageSeq := seq
  pageBoot := boot
  index := i
  type := typeName raw.typeId
  typeId := raw.typeId
  flags := raw.flags
  monotonicMs := raw.monotonicMs
  epoch := raw.epoch
  args := raw.args
  derpCandidate := if raw.typeId = 16 ∧ versionOne raw.flags then some (derpOf raw.args) else none
  unitContext := if raw.typeId = 14 then some (unitContextOf raw.args) else none

theorem decodeRow_encode {r : Record}
    (h : slice p (headerSize + i * recordSize) recordSize recordSize = encode r) :
    decodeRow p seq boot i = rowOf seq boot i (rawOf r) := by
  have field {q k : Nat} (inside : q + k ≤ recordSize) :
      get p (headerSize + i * recordSize + q) k = get (encode r) q k := by
    rw [← h, get_slice p inside]
  have args : getAll p (headerSize + i * recordSize + 20) (List.replicate 11 4) =
      getAll (encode r) 20 (List.replicate 11 4) := by
    rw [← h, getAll_slice p (by decide)]
  obtain ⟨h0, h2, h4, h12, h20⟩ := encode_reads r
  have base := field (q := 0) (k := 2) (by decide)
  rw [Nat.add_zero] at base
  rw [decodeRow]
  simp only [base, field (q := 2) (k := 2) (by decide), field (q := 4) (k := 8) (by decide),
    field (q := 12) (k := 8) (by decide), args, h0, h2, h4, h12, h20]
  rfl

/-- A valid page is decoded. -/
theorem decodePage_valid (valid : validPage p = true) :
    decodePage p (get p 8 8) =
      .ok ((List.range (get p 20 2)).map (decodeRow p (get p 8 8) (get p 16 4))) := by
  simp only [validPage, validHeader, crcMatches, Bool.and_eq_true, beq_iff_eq,
    decide_eq_true_eq] at valid
  obtain ⟨⟨⟨⟨⟨⟨⟨⟨⟨⟨magic, version⟩, header⟩, _⟩, pos⟩, le⟩, reserved⟩, headCrc⟩, rest⟩, padding⟩,
    pageCrc⟩ := valid
  unfold decodePage
  dsimp only
  rw [if_neg, if_neg, if_neg]
  · simp [pageCrc, padding]
  · simp [headCrc, reserved, rest]
  · simp only [not_or, not_not]
    exact ⟨magic, version, header, trivial, pos, le⟩

private theorem slice_finalized (hi : i < get p 20 2) (fits : get p 20 2 ≤ recordsPerPage) :
    slice (finalized p seq) (headerSize + i * recordSize) recordSize recordSize =
      slice p (headerSize + i * recordSize) recordSize recordSize := by
  have last : get p 20 2 ≤ 31 := fits
  apply slice_congr
  intro j first hlt
  simp only [headerSize, recordSize] at first hlt
  have before : j < crcOffset := show j < 2044 by omega
  rw [finalized, byteAt_closeCrc _ _ _ before,
    byteAt_clear_of_not_mem _ _ _ _ (.inl (by simp only [headerSize, recordSize]; omega)), headed,
    header]
  simp (disch := omega) only [byteAt_put_of_not_mem]
  exact byteAt_clear_of_not_mem _ _ _ _ (.inr (by simp only [headerSize]; omega))

private theorem get_finalized_boot : get (finalized p seq) 16 4 = get p 16 4 := by
  have boot : get p 16 4 < 256 ^ 4 := get_lt p 16 4
  rw [get_finalized (by decide), get_headed (by decide), header,
    get_put_other _ _ _ _ _ _ (by decide), get_put _ _ _ _ (by decide) boot]

/-- A finalized page is decoded to the records that were put in it. -/
theorem decodePage_finalized (final : finalize p seq = some p') (seq_le : seq ≤ maxSeq)
    (holds : recordsOf p = records.map encode) :
    decodePage p' seq = .ok ((List.range records.length).map fun i =>
      rowOf seq (get p 16 4) i (rawOf (records.getD i {}))) := by
  obtain ⟨rfl, pos, some', fits⟩ := finalize_eq final
  obtain ⟨valid, sequence⟩ := complete_finalized pos seq_le some' fits
  have count : get (finalized p seq) 20 2 = get p 20 2 := by
    have small : get p 20 2 < 256 ^ 2 := get_lt p 20 2
    rw [get_finalized (by decide), get_headed (by decide), header, get_put _ _ _ _ (by decide) small]
  have length : get p 20 2 = records.length := by
    have same := congrArg List.length holds
    simpa [recordsOf] using same
  have decoded := decodePage_valid valid
  rw [sequence, count, get_finalized_boot, length] at decoded
  rw [decoded]
  apply congrArg Except.ok
  apply List.map_congr_left
  intro i mem
  have inside : i < records.length := List.mem_range.mp mem
  apply decodeRow_encode
  rw [slice_finalized (by omega) fits]
  have at_i := congrArg (fun l => l[i]?) holds
  simp only [recordsOf, length, List.getElem?_map, List.getElem?_range inside, Option.map_some] at at_i
  rw [List.getElem?_eq_getElem inside] at at_i
  rw [List.getD_eq_getElem?_getD, List.getElem?_eq_getElem inside]
  simpa using at_i

end Pages

end Mosaico.Host.SystemLogExport
