import Mosaico.Library.ByteFields

/-! Records written field after field from zero: the fields, gaps included, tell all of the bytes. -/
namespace RecordLayout

open ByteFields

abbrev Layout := List (Nat × Nat)

variable {n k : Nat}

def record (n : Nat) (fields : Layout) : Bytes n := putAll (zero n) 0 fields

def widths (fields : Layout) : List Nat := fields.map Prod.fst

def Fits (fields : Layout) : Prop := ∀ f ∈ fields, f.2 < 256 ^ f.1

@[simp] theorem fits_nil : Fits [] := nofun

@[simp] theorem fits_cons {len v : Nat} {fields : Layout} :
    Fits ((len, v) :: fields) ↔ v < 256 ^ len ∧ Fits fields := List.forall_mem_cons

@[simp] theorem fits_append {xs ys : Layout} : Fits (xs ++ ys) ↔ Fits xs ∧ Fits ys :=
  List.forall_mem_append

theorem zero_fits (len : Nat) : 0 < 256 ^ len := Nat.pow_pos (by decide)

@[simp] theorem width_nil : width [] = 0 := rfl

@[simp] theorem width_cons (f : Nat × Nat) (fields : Layout) :
    width (f :: fields) = f.1 + width fields := by simp [width]

@[simp] theorem width_append (xs ys : Layout) : width (xs ++ ys) = width xs + width ys := by
  simp [width]

theorem sum_widths (fields : Layout) : (widths fields).sum = width fields := rfl

theorem putAll_append (b : Bytes n) (p : Nat) (xs ys : Layout) :
    putAll b p (xs ++ ys) = putAll (putAll b p xs) (p + width xs) ys := by
  induction xs generalizing b p with
  | nil => rfl
  | cons f xs ih =>
    rw [List.cons_append, putAll, ih, putAll, width_cons, Nat.add_assoc]

theorem getAll_append (b : Bytes n) (p : Nat) (xs ys : List Nat) :
    getAll b p (xs ++ ys) = getAll b p xs ++ getAll b (p + xs.sum) ys := by
  induction xs generalizing p with
  | nil => rfl
  | cons len xs ih =>
    rw [List.cons_append, getAll, ih, getAll, List.sum_cons, List.cons_append, Nat.add_assoc]

theorem length_getAll (b : Bytes n) (p : Nat) (xs : List Nat) : (getAll b p xs).length = xs.length := by
  induction xs generalizing p with
  | nil => rfl
  | cons len xs ih => exact congrArg (· + 1) (ih _)

theorem record_nil (n : Nat) : zero n = record n [] := rfl

theorem byteAt_record_of_le (fields : Layout) {i : Nat} (h : width fields ≤ i) :
    byteAt (record n fields) i = 0 := by
  rw [record, byteAt_putAll_of_not_mem _ _ _ _ (.inr (by omega)), byteAt_zero]

theorem put_zeros (b : Bytes n) (p len : Nat) (h : ∀ i, p ≤ i → i < p + len → byteAt b i = 0) :
    put b p 0 len = b := by
  apply ext_byteAt
  intro i hi
  rw [byteAt_put, if_pos hi]
  split
  · rename_i inside
    rw [h i inside.1 inside.2]
    simp [digit]
  · rfl

/-- The next field, right behind the others. -/
theorem put_next {fields : Layout} {p : Nat} (v len : Nat) (h : p = width fields) :
    put (record n fields) p v len = record n (fields ++ [(len, v)]) := by
  rw [record, record, putAll_append, Nat.zero_add, ← h]
  rfl

/-- A gap is a field that is zero. -/
theorem record_gap (fields : Layout) (len : Nat) :
    record n fields = record n (fields ++ [(len, 0)]) := by
  rw [← put_next 0 len rfl]
  exact (put_zeros _ _ _ fun i hi _ => byteAt_record_of_le fields hi).symm

/-- The next field, with a gap before it. -/
theorem put_gap {fields : Layout} {p : Nat} (v len gap : Nat) (h : p = width fields + gap) :
    put (record n fields) p v len = record n (fields ++ [(gap, 0), (len, v)]) := by
  rw [record_gap fields gap, put_next v len (by simpa using h), List.append_assoc]
  rfl

theorem blit_eq_put (b : Bytes n) (p : Nat) (v : Bytes k) (len : Nat) :
    blit b p v len = put b p (get v 0 len) len := by
  apply ext_byteAt
  intro i hi
  rw [byteAt_put, if_pos hi, blit, byteAt_ofFn, if_pos hi]
  by_cases inside : p ≤ i ∧ i < p + len
  · rw [if_pos inside, if_pos inside, digit_get v 0 len (i - p) (by omega), Nat.zero_add]
  · rw [if_neg inside, if_neg inside]

theorem get_eq_zero_iff (b : Bytes n) (p len : Nat) :
    get b p len = 0 ↔ ∀ i, p ≤ i → i < p + len → byteAt b i = 0 := by
  constructor
  · intro h i first last
    have byte := digit_get b p len (i - p) (by omega)
    rw [h, Nat.add_sub_cancel' first] at byte
    rw [← byte]
    simp [digit]
  · intro h
    rw [get_congr fun i first last => (h i first last).trans (byteAt_zero i).symm, get_zero]

theorem get_of_zeros {b : Bytes n} {first last : Nat} (h : zeros b first last = true) (len : Nat)
    (range : first + len ≤ last) : get b first len = 0 := by
  rw [get_eq_zero_iff]
  rw [zeros_iff] at h
  exact fun i hi hlt => h i hi (by omega)

theorem zeros_of_get {b : Bytes n} {first last : Nat} (len : Nat) (h : get b first len = 0)
    (range : last ≤ first + len) : zeros b first last = true := by
  rw [zeros_iff]
  rw [get_eq_zero_iff] at h
  exact fun i hi hlt => h i hi (by omega)

theorem get_one (b : Bytes n) (p : Nat) : get b p 1 = (byteAt b p).toNat := by
  simp [ByteFields.get]

/-- A few bytes as an array of their own. -/
theorem get_slice (b : Bytes n) (p len : Nat) (h : len ≤ k) : get (slice b p len k) 0 len = get b p len := by
  induction len with
  | zero => rfl
  | succ len ih =>
    have earlier : get (slice b p (len + 1) k) 0 len = get (slice b p len k) 0 len := by
      apply get_congr
      intro i _ hi
      rw [slice, slice, byteAt_ofFn, byteAt_ofFn, if_pos (by omega), if_pos (by omega), if_pos (by omega),
        if_pos (by omega)]
    rw [ByteFields.get, ByteFields.get, earlier, ih (by omega), slice, byteAt_ofFn, if_pos (by omega),
      if_pos (by omega), Nat.zero_add]

/-- An array that is zero from `len` on is found again. -/
theorem slice_of_get {b : Bytes n} {v : Bytes k} {p len : Nat} (h : get b p len = get v 0 len)
    (rest : ∀ i, len ≤ i → i < k → byteAt v i = 0) : slice b p len k = v := by
  apply ext_byteAt
  intro i hi
  rw [slice, byteAt_ofFn, if_pos hi]
  by_cases inside : i < len
  · have byte := digit_get b p len i inside
    rw [h, digit_get v 0 len i inside, Nat.zero_add] at byte
    rw [if_pos inside, ← byte]
  · rw [if_neg inside, rest i (by omega) hi]

/-- Under a checksum the bytes before it tell all. -/
theorem closeCrc_of_body {a b : Bytes (k + 4)} (body : ∀ i, i < k → byteAt a i = byteAt b i)
    (checksum : crcMatches b k = true) : closeCrc a k = b := by
  have matches_ := crcMatches_closeCrc a k (by omega)
  rw [crcMatches, beq_iff_eq] at checksum matches_
  have same : ∀ i, i < k → byteAt (closeCrc a k) i = byteAt b i :=
    fun i hi => (byteAt_closeCrc a k i hi).trans (body i hi)
  have crc_ : get (closeCrc a k) k 4 = get b k 4 := by
    rw [checksum, matches_, crc_congr same]
  apply ext_byteAt
  intro i hi
  by_cases early : i < k
  · exact same i early
  · exact byteAt_eq_of_get crc_ (by omega) (by omega)

section Closed

variable {fields : Layout}

/-- The fields of a record read back, under a checksum behind them. -/
theorem getAll_closeCrc {c : Nat} (fits : Fits fields) (room : width fields ≤ c) (h : c ≤ n) :
    getAll (closeCrc (record n fields) c) 0 (widths fields) = fields.map Prod.snd := by
  rw [record, ← getAll_putAll (zero n) 0 fields (by omega) fits]
  apply getAll_congr
  intro i _ hi
  rw [Nat.zero_add, sum_widths] at hi
  exact byteAt_closeCrc _ _ _ (by omega)

theorem getAll_record (fits : Fits fields) (room : width fields ≤ n) :
    getAll (record n fields) 0 (widths fields) = fields.map Prod.snd :=
  getAll_putAll (zero n) 0 fields (by omega) fits

/-- A record with the right fields and checksum is the one that is written. -/
theorem closeCrc_eq {b : Bytes (k + 4)} (fits : Fits fields) (whole : width fields = k)
    (values : getAll b 0 (widths fields) = fields.map Prod.snd)
    (checksum : crcMatches b k = true) : closeCrc (record (k + 4) fields) k = b := by
  apply closeCrc_of_body _ checksum
  intro i hi
  have same := getAll_record (n := k + 4) fits (by omega)
  rw [← values] at same
  exact byteAt_eq_of_getAll same (Nat.zero_le i) (by rw [sum_widths]; omega)

/-- A record without a checksum, of whose bytes the fields tell all. -/
theorem record_eq {b : Bytes n} (fits : Fits fields) (whole : width fields = n)
    (values : getAll b 0 (widths fields) = fields.map Prod.snd) : record n fields = b := by
  have same := getAll_record fits (Nat.le_of_eq whole)
  rw [← values] at same
  apply ext_byteAt
  intro i hi
  exact byteAt_eq_of_getAll same (Nat.zero_le i) (by rw [sum_widths]; omega)

end Closed

end RecordLayout
