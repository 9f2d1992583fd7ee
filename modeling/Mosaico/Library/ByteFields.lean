import Mathlib.Data.Nat.Basic
import Mathlib.Tactic.Ring
import Mathlib.Algebra.Order.Ring.Nat

/-! Fixed-size byte records: little-endian fields, zero ranges and the
reflected CRC-32 of a leading part. -/
namespace ByteFields

abbrev Bytes (n : Nat) := Vector UInt8 n

variable {n : Nat}

/-- The byte at a position; positions past the end read as zero. -/
def byteAt (b : Bytes n) (i : Nat) : UInt8 := if h : i < n then b[i] else 0

@[ext] theorem ext_byteAt {a b : Bytes n} (h : ∀ i, i < n → byteAt a i = byteAt b i) : a = b := by
  apply Vector.ext
  intro i hi
  have := h i hi
  simpa only [byteAt, hi, ↓reduceDIte] using this

def ofFn (n : Nat) (f : Nat → UInt8) : Bytes n := Vector.ofFn fun i => f i.val

@[simp] theorem byteAt_ofFn (f : Nat → UInt8) (i : Nat) :
    byteAt (ofFn n f) i = if i < n then f i else 0 := by
  by_cases hi : i < n <;> simp [byteAt, ofFn, hi]

def zero (n : Nat) : Bytes n := ofFn n fun _ => 0

@[simp] theorem byteAt_zero (i : Nat) : byteAt (zero n) i = 0 := by
  simp [zero]

/-- The byte of weight `256 ^ i` of a number. -/
def digit (v i : Nat) : UInt8 := UInt8.ofNat (v / 256 ^ i)

/-- Write `len` little-endian bytes of `v` at `p`. -/
def put (b : Bytes n) (p v len : Nat) : Bytes n :=
  ofFn n fun i => if p ≤ i ∧ i < p + len then digit v (i - p) else byteAt b i

/-- Read `len` little-endian bytes at `p`. -/
def get (b : Bytes n) (p : Nat) : Nat → Nat
  | 0 => 0
  | len + 1 => get b p len + (byteAt b (p + len)).toNat * 256 ^ len

@[simp] theorem byteAt_put (b : Bytes n) (p v len i : Nat) :
    byteAt (put b p v len) i =
      if i < n then if p ≤ i ∧ i < p + len then digit v (i - p) else byteAt b i else 0 := by
  simp [put]

theorem byteAt_put_of_not_mem (b : Bytes n) (p v len i : Nat) (h : i < p ∨ p + len ≤ i) :
    byteAt (put b p v len) i = byteAt b i := by
  rw [byteAt_put, if_neg (show ¬(p ≤ i ∧ i < p + len) by omega)]
  split
  · rfl
  · rename_i hi
    simp [byteAt, hi]

theorem byteAt_lt (b : Bytes n) (i : Nat) : (byteAt b i).toNat < 256 := (byteAt b i).toNat_lt

theorem get_congr {a b : Bytes n} {p len : Nat}
    (h : ∀ i, p ≤ i → i < p + len → byteAt a i = byteAt b i) : get a p len = get b p len := by
  induction len with
  | zero => rfl
  | succ len ih =>
    rw [get, get, ih fun i hi hlt => h i hi (by omega), h (p + len) (by omega) (by omega)]

theorem get_lt (b : Bytes n) (p len : Nat) : get b p len < 256 ^ len := by
  induction len with
  | zero => simp [get]
  | succ len ih =>
    have hb := byteAt_lt b (p + len)
    have hle : (byteAt b (p + len)).toNat * 256 ^ len ≤ 255 * 256 ^ len :=
      Nat.mul_le_mul_right _ (by omega)
    rw [get, pow_succ]
    omega

/-- A field elsewhere is not disturbed. -/
theorem get_put_other (b : Bytes n) (p v len q k : Nat) (h : q + k ≤ p ∨ p + len ≤ q) :
    get (put b p v len) q k = get b q k :=
  get_congr fun i hi hlt => byteAt_put_of_not_mem b p v len i (by omega)

theorem digit_toNat (v i : Nat) : (digit v i).toNat = v / 256 ^ i % 256 := by
  simp [digit]

theorem get_put_mod (b : Bytes n) (p v len : Nat) (h : p + len ≤ n) :
    get (put b p v len) p len = v % 256 ^ len := by
  have prefix_get : ∀ k, k ≤ len → get (put b p v len) p k = v % 256 ^ k := by
    intro k
    induction k with
    | zero => intro _; simp [get, Nat.mod_one]
    | succ k ih =>
      intro hk
      rw [get, ih (by omega), byteAt_put, if_pos (by omega), if_pos (by omega),
        Nat.add_sub_cancel_left, digit_toNat, pow_succ, Nat.mod_mul]
      ring
  exact prefix_get len (Nat.le_refl _)

/-- A field reads back what was put there when it fits. -/
theorem get_put (b : Bytes n) (p v len : Nat) (h : p + len ≤ n) (hv : v < 256 ^ len) :
    get (put b p v len) p len = v := by
  rw [get_put_mod b p v len h, Nat.mod_eq_of_lt hv]

theorem get_zero (p len : Nat) : get (zero n) p len = 0 := by
  induction len with
  | zero => rfl
  | succ len ih => simp [get, ih]

/-- The bytes of a field are the digits of its value. -/
theorem digit_get (b : Bytes n) (p len i : Nat) (hi : i < len) :
    digit (get b p len) i = byteAt b (p + i) := by
  apply UInt8.toNat_inj.mp
  rw [digit_toNat]
  induction len with
  | zero => omega
  | succ len ih =>
    have hlow := get_lt b p len
    have hb := byteAt_lt b (p + len)
    by_cases heq : i = len
    · subst heq
      rw [get, Nat.add_mul_div_right _ _ (Nat.pow_pos (by decide)), Nat.div_eq_of_lt hlow, Nat.zero_add,
        Nat.mod_eq_of_lt hb]
    · have hsplit : (256 : Nat) ^ len = 256 ^ i * (256 * 256 ^ (len - i - 1)) := by
        rw [← pow_succ', ← pow_add]
        congr 1
        omega
      have hdiv : (get b p len + (byteAt b (p + len)).toNat * 256 ^ len) / 256 ^ i % 256 =
          get b p len / 256 ^ i % 256 := by
        rw [hsplit, show (byteAt b (p + len)).toNat * (256 ^ i * (256 * 256 ^ (len - i - 1))) =
          ((byteAt b (p + len)).toNat * 256 ^ (len - i - 1) * 256) * 256 ^ i by ring,
          Nat.add_mul_div_right _ _ (Nat.pow_pos (by decide)), Nat.add_mul_mod_self_right]
      rw [get, hdiv, ih (by omega)]

def clear (b : Bytes n) (first last : Nat) : Bytes n :=
  ofFn n fun i => if first ≤ i ∧ i < last then 0 else byteAt b i

theorem byteAt_clear (b : Bytes n) (first last i : Nat) :
    byteAt (clear b first last) i = if first ≤ i ∧ i < last then 0 else byteAt b i := by
  rw [clear, byteAt_ofFn]
  by_cases hi : i < n
  · rw [if_pos hi]
  · rw [if_neg hi]
    split
    · rfl
    · simp [byteAt, hi]

theorem byteAt_clear_of_not_mem (b : Bytes n) (first last i : Nat) (h : i < first ∨ last ≤ i) :
    byteAt (clear b first last) i = byteAt b i := by
  rw [byteAt_clear, if_neg (by omega)]

variable {k : Nat}

/-- Copy the first `len` bytes of `v` to `p`. -/
def blit (b : Bytes n) (p : Nat) (v : Bytes k) (len : Nat) : Bytes n :=
  ofFn n fun i => if p ≤ i ∧ i < p + len then byteAt v (i - p) else byteAt b i

/-- The `len` bytes at `p`, followed by zeros. -/
def slice (b : Bytes n) (p len k : Nat) : Bytes k :=
  ofFn k fun i => if i < len then byteAt b (p + i) else 0

theorem byteAt_of_le (b : Bytes n) {i : Nat} (h : n ≤ i) : byteAt b i = 0 := by
  simp [byteAt, Nat.not_lt.mpr h]

theorem byteAt_blit_of_not_mem (b : Bytes n) (p : Nat) (v : Bytes k) (len i : Nat)
    (h : i < p ∨ p + len ≤ i) : byteAt (blit b p v len) i = byteAt b i := by
  rw [blit, byteAt_ofFn, if_neg (show ¬(p ≤ i ∧ i < p + len) by omega)]
  split
  · rfl
  · rw [byteAt_of_le b (by omega)]

theorem byteAt_blit (b : Bytes n) (p : Nat) (v : Bytes k) (len i : Nat) (hi : i < len)
    (h : p + len ≤ n) : byteAt (blit b p v len) (p + i) = byteAt v i := by
  rw [blit, byteAt_ofFn, if_pos (by omega), if_pos (by omega), Nat.add_sub_cancel_left]

theorem get_blit_other (b : Bytes n) (p : Nat) (v : Bytes k) (len q c : Nat)
    (h : q + c ≤ p ∨ p + len ≤ q) : get (blit b p v len) q c = get b q c :=
  get_congr fun i hi hlt => byteAt_blit_of_not_mem b p v len i (by omega)

theorem slice_congr {a b : Bytes n} {p len : Nat}
    (h : ∀ i, p ≤ i → i < p + len → byteAt a i = byteAt b i) :
    slice a p len k = slice b p len k := by
  apply ext_byteAt
  intro i hi
  rw [slice, slice, byteAt_ofFn, byteAt_ofFn, if_pos hi, if_pos hi]
  by_cases hlt : i < len
  · rw [if_pos hlt, if_pos hlt, h (p + i) (by omega) (by omega)]
  · rw [if_neg hlt, if_neg hlt]

theorem slice_put_other (b : Bytes n) (p v len q l : Nat) (h : q + l ≤ p ∨ p + len ≤ q) :
    slice (put b p v len) q l k = slice b q l k :=
  slice_congr fun i hi hlt => byteAt_put_of_not_mem b p v len i (by omega)

theorem slice_blit_other {c : Nat} (b : Bytes n) (p : Nat) (v : Bytes c) (len q l : Nat)
    (h : q + l ≤ p ∨ p + len ≤ q) : slice (blit b p v len) q l k = slice b q l k :=
  slice_congr fun i hi hlt => byteAt_blit_of_not_mem b p v len i (by omega)

/-- What was copied reads back, when the rest of it is zero. -/
theorem slice_blit (b : Bytes n) (p : Nat) (v : Bytes k) (len : Nat) (h : p + len ≤ n)
    (rest : ∀ i, len ≤ i → i < k → byteAt v i = 0) : slice (blit b p v len) p len k = v := by
  apply ext_byteAt
  intro i hi
  rw [slice, byteAt_ofFn, if_pos hi]
  by_cases hlt : i < len
  · rw [if_pos hlt, byteAt_blit b p v len i hlt h]
  · rw [if_neg hlt, rest i (by omega) hi]

/-- Rows of `k` bytes, one behind the other from `p` on. -/
def blitRows (b : Bytes n) (p : Nat) : List (Bytes k) → Bytes n
  | [] => b
  | row :: rows => blitRows (blit b p row k) (p + k) rows

theorem slice_blitRows_before (b : Bytes n) (p q : Nat) (rows : List (Bytes k)) (h : q + k ≤ p) :
    slice (blitRows b p rows) q k k = slice b q k k := by
  induction rows generalizing b p with
  | nil => rfl
  | cons row rows ih =>
    rw [blitRows, ih _ _ (by omega)]
    exact slice_blit_other b p row k q k (.inl h)

theorem slice_blitRows (b : Bytes n) (p i : Nat) (rows : List (Bytes k)) (hi : i < rows.length)
    (room : p + rows.length * k ≤ n) : slice (blitRows b p rows) (p + i * k) k k = rows[i] := by
  induction rows generalizing b p i with
  | nil => cases hi
  | cons row rows ih =>
    rw [List.length_cons, Nat.succ_mul] at room
    rw [blitRows]
    cases i with
    | zero =>
      rw [Nat.zero_mul, Nat.add_zero, slice_blitRows_before _ _ _ _ (Nat.le_refl _),
        List.getElem_cons_zero]
      exact slice_blit b p row k (by omega) fun j hj hlt => by omega
    | succ i =>
      have next := ih (blit b p row k) (p + k) i (Nat.lt_of_succ_lt_succ hi) (by omega)
      rw [Nat.succ_mul, show p + (i * k + k) = p + k + i * k by omega, next,
        List.getElem_cons_succ]

theorem byteAt_blitRows_of_not_mem (b : Bytes n) (p i : Nat) (rows : List (Bytes k))
    (h : i < p ∨ p + rows.length * k ≤ i) : byteAt (blitRows b p rows) i = byteAt b i := by
  induction rows generalizing b p with
  | nil => rfl
  | cons row rows ih =>
    rw [List.length_cons, Nat.succ_mul] at h
    rw [blitRows, ih _ _ (by omega)]
    exact byteAt_blit_of_not_mem b p row k i (by omega)

/-- Fields of these widths and values, one behind the other from `p` on. -/
def putAll (b : Bytes n) (p : Nat) : List (Nat × Nat) → Bytes n
  | [] => b
  | (len, v) :: fields => putAll (put b p v len) (p + len) fields

def getAll (b : Bytes n) (p : Nat) : List Nat → List Nat
  | [] => []
  | len :: widths => get b p len :: getAll b (p + len) widths

def width (fields : List (Nat × Nat)) : Nat := (fields.map Prod.fst).sum

theorem byteAt_putAll_of_not_mem (b : Bytes n) (p i : Nat) (fields : List (Nat × Nat))
    (h : i < p ∨ p + width fields ≤ i) : byteAt (putAll b p fields) i = byteAt b i := by
  induction fields generalizing b p with
  | nil => rfl
  | cons field fields ih =>
    simp only [width, List.map_cons, List.sum_cons] at h
    rw [putAll, ih _ _ (by simp only [width]; omega)]
    exact byteAt_put_of_not_mem b p field.2 field.1 i (by omega)

/-- Fields read back what was put there when they fit. -/
theorem getAll_putAll (b : Bytes n) (p : Nat) (fields : List (Nat × Nat))
    (room : p + width fields ≤ n) (fit : ∀ field ∈ fields, field.2 < 256 ^ field.1) :
    getAll (putAll b p fields) p (fields.map Prod.fst) = fields.map Prod.snd := by
  induction fields generalizing b p with
  | nil => rfl
  | cons field fields ih =>
    obtain ⟨len, v⟩ := field
    simp only [width, List.map_cons, List.sum_cons] at room
    have rest := ih (put b p v len) (p + len) (by simp only [width]; omega)
      fun field mem => fit field (List.mem_cons_of_mem _ mem)
    have first : get (putAll (put b p v len) (p + len) fields) p len = v := by
      rw [get_congr fun i hi hlt => byteAt_putAll_of_not_mem _ _ i _ (.inl hlt)]
      exact get_put b p v len (by omega) (fit (len, v) List.mem_cons_self)
    rw [List.map_cons, List.map_cons, getAll, putAll, first, rest]

theorem getAll_congr {a b : Bytes n} {p : Nat} {widths : List Nat}
    (h : ∀ i, p ≤ i → i < p + widths.sum → byteAt a i = byteAt b i) :
    getAll a p widths = getAll b p widths := by
  induction widths generalizing p with
  | nil => rfl
  | cons len widths ih =>
    rw [List.sum_cons] at h
    rw [getAll, getAll, get_congr fun i hi hlt => h i hi (by omega),
      ih fun i hi hlt => h i (by omega) (by omega)]

/-- A field determines its bytes. -/
theorem byteAt_eq_of_get {a b : Bytes n} {p len i : Nat} (h : get a p len = get b p len)
    (first : p ≤ i) (last : i < p + len) : byteAt a i = byteAt b i := by
  have digits := digit_get a p len (i - p) (by omega)
  rw [h, digit_get b p len (i - p) (by omega), Nat.add_sub_cancel' first] at digits
  exact digits.symm

theorem byteAt_eq_of_getAll {a b : Bytes n} {p i : Nat} {widths : List Nat}
    (h : getAll a p widths = getAll b p widths) (first : p ≤ i) (last : i < p + widths.sum) :
    byteAt a i = byteAt b i := by
  induction widths generalizing p with
  | nil => simp only [List.sum_nil] at last; omega
  | cons len widths ih =>
    simp only [getAll, List.cons.injEq] at h
    rw [List.sum_cons] at last
    by_cases here : i < p + len
    · exact byteAt_eq_of_get h.1 first here
    · exact ih h.2 (by omega) (by omega)

theorem byteAt_eq_of_slice {a b : Bytes n} {p len i : Nat}
    (h : slice a p len len = slice b p len len) (first : p ≤ i) (last : i < p + len) :
    byteAt a i = byteAt b i := by
  have same := congrArg (fun s => byteAt s (i - p)) h
  simpa only [slice, byteAt_ofFn, if_pos (show i - p < len by omega),
    Nat.add_sub_cancel' first] using same

def zeros (b : Bytes n) (first last : Nat) : Bool :=
  (List.range' first (last - first)).all fun i => byteAt b i == 0

theorem zeros_iff (b : Bytes n) (first last : Nat) :
    zeros b first last = true ↔ ∀ i, first ≤ i → i < last → byteAt b i = 0 := by
  simp only [zeros, List.all_eq_true, List.mem_range'_1, beq_iff_eq]
  constructor
  · exact fun h i hi hlt => h i ⟨hi, by omega⟩
  · exact fun h i hi => h i hi.1 (by omega)

def anyNonzero (b : Bytes n) : Bool := b.any fun v => v != 0

/-! The table-free CRC-32: polynomial 0xedb88320, initial and final inversion. -/

def crcBit (c : UInt32) : UInt32 := (c >>> 1) ^^^ (0xedb88320 &&& (0 - (c &&& 1)))

def crcByte (c : UInt32) (v : UInt8) : UInt32 :=
  crcBit (crcBit (crcBit (crcBit (crcBit (crcBit (crcBit (crcBit (c ^^^ v.toUInt32))))))))

def crcFrom (b : Bytes n) : Nat → UInt32
  | 0 => 0xffffffff
  | k + 1 => crcByte (crcFrom b k) (byteAt b k)

/-- The checksum of the first `length` bytes. -/
def crc (b : Bytes n) (length : Nat) : Nat := (~~~ crcFrom b length).toNat

theorem crc_lt (b : Bytes n) (length : Nat) : crc b length < 256 ^ 4 :=
  UInt32.toNat_lt_size _

theorem crc_congr {a b : Bytes n} {length : Nat}
    (h : ∀ i, i < length → byteAt a i = byteAt b i) : crc a length = crc b length := by
  have same : crcFrom a length = crcFrom b length := by
    induction length with
    | zero => rfl
    | succ k ih =>
      rw [crcFrom, crcFrom, ih fun i hi => h i (by omega), h k (by omega)]
  rw [crc, crc, same]

theorem crc_put (b : Bytes n) (p v len length : Nat) (h : length ≤ p) :
    crc (put b p v len) length = crc b length :=
  crc_congr fun i hi => byteAt_put_of_not_mem b p v len i (by omega)

/-- Close a record with the checksum of everything before its last four bytes. -/
def closeCrc (b : Bytes n) (length : Nat) : Bytes n := put b length (crc b length) 4

def crcMatches (b : Bytes n) (length : Nat) : Bool := get b length 4 == crc b length

theorem crcMatches_closeCrc (b : Bytes n) (length : Nat) (h : length + 4 ≤ n) :
    crcMatches (closeCrc b length) length = true := by
  rw [crcMatches, beq_iff_eq, closeCrc, get_put _ _ _ _ h (crc_lt b length), crc_put _ _ _ _ _ le_rfl]

theorem get_closeCrc (b : Bytes n) (length q k : Nat) (h : q + k ≤ length) :
    get (closeCrc b length) q k = get b q k :=
  get_put_other b length _ 4 q k (.inl h)

theorem byteAt_closeCrc (b : Bytes n) (length i : Nat) (h : i < length) :
    byteAt (closeCrc b length) i = byteAt b i :=
  byteAt_put_of_not_mem b length _ 4 i (.inl h)

theorem slice_closeCrc (b : Bytes n) (length q l k : Nat) (h : q + l ≤ length) :
    slice (closeCrc b length) q l k = slice b q l k :=
  slice_put_other b length _ 4 q l (.inl h)

end ByteFields
