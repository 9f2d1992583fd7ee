import Mosaico.Gauge.FactoryJournalModel
import Mosaico.Gauge.ScaleJournal

/-! A record of the factory journal and its blob determine each other: its blob is one of the scale journal
under other tags. -/
namespace Mosaico.Gauge.FactoryJournal

open ByteFields RecordLayout Recovery

variable {b c : ScaleJournal.Blob} {r : Record}

section Tags

variable {letter letter' profile profile' : UInt8} {version version' : Nat}

def untagged (i : Nat) : Prop := i ≠ 3 ∧ i ≠ 4 ∧ i ≠ 5 ∧ i ≠ 21 ∧ i < 508

theorem byteAt_tag {i : Nat} (h : untagged i) : byteAt (tag b letter version profile) i = byteAt b i := by
  obtain ⟨three, four, five, profiled, inside⟩ := h
  rw [tag, byteAt_closeCrc _ _ _ inside, byteAt_put_of_not_mem _ _ _ _ _ (by omega),
    byteAt_put_of_not_mem _ _ _ _ _ (by omega), byteAt_put_of_not_mem _ _ _ _ _ (by omega)]

theorem tag_letter : byteAt (tag b letter version profile) 3 = letter := by
  have read : get (tag b letter version profile) 3 1 = letter.toNat := by
    rw [tag, get_closeCrc _ _ _ _ (by omega), get_put_other _ _ _ _ _ _ (by omega),
      get_put_other _ _ _ _ _ _ (by omega), get_put _ _ _ _ (by omega) letter.toNat_lt]
  rwa [get_one, UInt8.toNat_inj] at read

theorem tag_version (small : version < 256 ^ 2) : get (tag b letter version profile) 4 2 = version := by
  rw [tag, get_closeCrc _ _ _ _ (by omega), get_put_other _ _ _ _ _ _ (by omega), get_put _ _ _ _ (by omega) small]

theorem tag_profile : byteAt (tag b letter version profile) 21 = profile := by
  have read : get (tag b letter version profile) 21 1 = profile.toNat := by
    rw [tag, get_closeCrc _ _ _ _ (by omega), get_put _ _ _ _ (by omega) profile.toNat_lt]
  rwa [get_one, UInt8.toNat_inj] at read

theorem tag_checksum : crcMatches (tag b letter version profile) 508 = true := crcMatches_closeCrc _ _ (by omega)

/-- What agrees under the tags is the same under the same tags. -/
theorem tag_eq (small : version < 256 ^ 2) (same : ∀ i, untagged i → byteAt b i = byteAt c i)
    (three : byteAt c 3 = letter) (versioned : get c 4 2 = version) (profiled : byteAt c 21 = profile)
    (checksum : crcMatches c 508 = true) :
    tag b letter version profile = c := by
  have body : ∀ i, i < 508 → byteAt (tag b letter version profile) i = byteAt c i := by
    intro i hi
    by_cases free : untagged i
    · exact (byteAt_tag free).trans (same i free)
    · have among : i = 3 ∨ (4 ≤ i ∧ i < 6) ∨ i = 21 := by
        by_contra apart
        exact free ⟨by omega, by omega, by omega, by omega, hi⟩
      rcases among with rfl | ⟨low, high⟩ | rfl
      · exact tag_letter.trans three.symm
      · exact byteAt_eq_of_get ((tag_version small).trans versioned.symm) low high
      · exact tag_profile.trans profiled.symm
  have closed : closeCrc (tag b letter version profile) 508 = c := closeCrc_of_body body checksum
  have again : closeCrc (tag b letter version profile) 508 = tag b letter version profile :=
    closeCrc_of_body (fun i _ => rfl) tag_checksum
  exact again.symm.trans closed

/-- The tags of a tagged blob are replaced. -/
theorem tag_tag (small : version < 256 ^ 2) :
    tag (tag b letter' version' profile') letter version profile = tag b letter version profile :=
  tag_eq small (fun _ free => (byteAt_tag free).trans (byteAt_tag free).symm) tag_letter
    (tag_version small) tag_profile
    tag_checksum

/-- A blob with these tags already is left alone. -/
theorem tag_same (three : byteAt b 3 = letter) (versioned : get b 4 2 = version) (profiled : byteAt b 21 = profile)
    (checksum : crcMatches b 508 = true) : tag b letter version profile = b :=
  tag_eq (by rw [← versioned]; exact get_lt _ _ _) (fun _ _ => rfl) three versioned profiled checksum

theorem magic_split (b : ScaleJournal.Blob) (letter : UInt8) {m : Nat}
    (read : get b 0 4 = m + letter.toNat * 256 ^ 3) (small : m < 256 ^ 3) : get b 0 3 = m ∧ byteAt b 3 = letter := by
  have split : get b 0 3 + (byteAt b 3).toNat * 256 ^ 3 = m + letter.toNat * 256 ^ 3 := read
  have low := get_lt b 0 3
  have byte : (byteAt b 3).toNat = letter.toNat := by omega
  exact ⟨by omega, UInt8.toNat_inj.mp byte⟩

end Tags

section Codec

theorem shaped (h : shape r = true) : ScaleJournal.Shaped (translated r) := by
  unfold shape at h
  dsimp only at h
  simp only [Bool.and_eq_true, beq_iff_eq, bne_iff_ne] at h
  obtain ⟨⟨⟨⟨⟨⟨⟨⟨-, identity⟩, generation⟩, -⟩, layoutId⟩, unicast⟩, closed⟩, bound⟩, same⟩ := h
  unfold closedImageTemplate at closed
  dsimp only at closed
  simp only [Bool.and_eq_true, beq_iff_eq] at closed
  exact ⟨unicast, identity, bound, same, layoutId, generation, closed.1.1.1.1.1.1.1.2, closed.1.1.1.1.1.1.2⟩

private theorem profile_of_shape (h : shape r = true) : r.profile = .factory3000RollbackToNominal65Virtual130 := by
  unfold shape at h
  dsimp only at h
  simp only [Bool.and_eq_true, beq_iff_eq] at h
  exact h.1.1.1.1.1.1.1.1

theorem encode_isSome (h : shape r = true) : ∃ bytes, ScaleJournal.encode (translated r) = some bytes ∧
    encode r = some (tag bytes 0x33 3 r.profile.byte) := by
  obtain ⟨bytes, made⟩ : ∃ bytes, ScaleJournal.encode (translated r) = some bytes :=
    ⟨_, if_pos (ScaleJournal.shape_iff.mpr (shaped h))⟩
  refine ⟨bytes, made, ?_⟩
  rw [encode, if_pos h, made]
  rfl

/-- `decode` takes exactly the image of `encode`, and gives back what was encoded. -/
theorem decode_eq_some_iff {mac : Bytes 6} : decode b mac = some r ↔ encode r = some b ∧ r.mac = mac := by
  constructor
  · intro h
    unfold decode at h
    split_ifs at h with head
    simp only [not_or, not_not, Bool.not_eq_false] at head
    obtain ⟨read, versioned, -, profiled, checksum⟩ := head
    obtain ⟨record, decoded, h⟩ := Option.bind_eq_some_iff.mp h
    dsimp only at h
    split_ifs at h with shape
    cases h
    obtain ⟨made, same⟩ := ScaleJournal.decode_eq_some_iff.mp decoded
    obtain ⟨bytes, made', encoded⟩ := encode_isSome shape
    have there : bytes = tag b 0x32 2 0 := Option.some.inj (made'.symm.trans made)
    have three := (magic_split b 0x33 (m := 0x4a5347) read (by decide)).2
    refine ⟨?_, same⟩
    rw [encoded, there, tag_tag (by decide)]
    exact congrArg some (tag_same three versioned profiled checksum)
  · rintro ⟨h, rfl⟩
    have shape : shape r = true := by
      unfold encode at h
      split_ifs at h with shape
      exact shape
    obtain ⟨bytes, made, encoded⟩ := encode_isSome shape
    have there : tag bytes 0x33 3 r.profile.byte = b := Option.some.inj (encoded.symm.trans h)
    have decoded := ScaleJournal.decode_eq_some_iff.mpr ⟨made, rfl⟩
    obtain ⟨fields, -, checksum, -, -⟩ := ScaleJournal.fields_of_decode decoded
    obtain ⟨low, three⟩ := magic_split bytes 0x32 (m := 0x4a5347) fields.magic (by decide)
    have back : tag b 0x32 2 0 = bytes := by
      rw [← there, tag_tag (by decide)]
      exact tag_same three fields.version fields.gap checksum
    have magic_ : get b 0 4 = magic := by
      have below : get b 0 3 = get bytes 0 3 := by
        rw [← there]
        exact get_congr fun i _ hi => byteAt_tag ⟨by omega, by omega, by omega, by omega, by omega⟩
      have letter : byteAt b 3 = 0x33 := by
        rw [← there]
        exact tag_letter
      show get b 0 3 + (byteAt b 3).toNat * 256 ^ 3 = _
      rw [below, low, letter]
      rfl
    have version : get b 4 2 = 3 := by
      rw [← there]
      exact tag_version (by decide)
    have size : get b 6 2 = ScaleJournal.blobSize := by
      rw [← fields.size, ← there]
      exact get_congr fun i low high => byteAt_tag ⟨by omega, by omega, by omega, by omega, by omega⟩
    have profile := profile_of_shape shape
    have profiled : byteAt b 21 = Profile.factory3000RollbackToNominal65Virtual130.byte := by
      rw [← there, ← profile]
      exact tag_profile
    have checked : crcMatches b 508 = true := by
      rw [← there]
      exact tag_checksum
    have whole : (⟨.factory3000RollbackToNominal65Virtual130, r.mac, r.snapshot⟩ : Record) = r := by
      rw [← profile]
    unfold decode
    rw [if_neg (by simp [magic_, version, size, profiled, checked]), back]
    have decoded' : ScaleJournal.decode bytes r.mac = some (translated r) := decoded
    simp only [decoded', Option.bind_eq_bind, Option.bind_some, translated, whole]
    exact if_pos shape

theorem tags_of_decode {mac : Bytes 6} (h : decode b mac = some r) : get b 0 4 = magic ∧ slice b 8 6 6 = mac := by
  unfold decode at h
  split_ifs at h with head
  simp only [not_or, not_not, Bool.not_eq_false] at head
  obtain ⟨record, decoded, -⟩ := Option.bind_eq_some_iff.mp h
  have read := (ScaleJournal.tags_of_decode decoded).2
  refine ⟨head.1, read.symm.trans ?_ |>.symm⟩
  exact slice_congr fun i low high => byteAt_tag ⟨by omega, by omega, by omega, by omega, by omega⟩

end Codec

end Mosaico.Gauge.FactoryJournal
