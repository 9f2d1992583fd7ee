import Mosaico.Library.ByteFields
import Mathlib.Data.List.GetD

/-! Wire records as lists: little-endian numbers, cutting into fields of given widths, and pasting
fields into a record one behind the other. -/
namespace WireLists

open ByteFields

/-- The `len` little-endian bytes of a number. -/
def le : Nat → Nat → List UInt8
  | 0, _ => []
  | len + 1, v => UInt8.ofNat v :: le len (v / 256)

def leValue : List UInt8 → Nat
  | [] => 0
  | b :: rest => b.toNat + 256 * leValue rest

@[simp] theorem length_le (len v : Nat) : (le len v).length = len := by
  induction len generalizing v with
  | zero => rfl
  | succ len ih => rw [le, List.length_cons, ih]

theorem le_leValue (bytes : List UInt8) : le bytes.length (leValue bytes) = bytes := by
  induction bytes with
  | nil => rfl
  | cons b rest ih =>
    have small := b.toNat_lt
    have low : UInt8.ofNat (b.toNat + 256 * leValue rest) = b := by
      apply UInt8.toNat_inj.mp
      rw [UInt8.toNat_ofNat']
      omega
    rw [leValue, List.length_cons, le, low, Nat.add_mul_div_left _ _ (by decide),
      Nat.div_eq_of_lt small, Nat.zero_add, ih]

theorem leValue_le {len v : Nat} (h : v < 256 ^ len) : leValue (le len v) = v := by
  induction len generalizing v with
  | zero =>
    rw [pow_zero] at h
    rw [le, leValue]
    omega
  | succ len ih =>
    rw [pow_succ] at h
    rw [le, leValue, ih (Nat.div_lt_of_lt_mul (by omega)), UInt8.toNat_ofNat']
    omega

theorem leValue_lt (bytes : List UInt8) : leValue bytes < 256 ^ bytes.length := by
  induction bytes with
  | nil => exact Nat.one_pos
  | cons b rest ih =>
    have small := b.toNat_lt
    rw [leValue, List.length_cons, pow_succ]
    omega

/-- A field is a number exactly when it has its bytes. -/
theorem leValue_eq_iff {bytes : List UInt8} {v : Nat} (h : v < 256 ^ bytes.length) :
    leValue bytes = v ↔ bytes = le bytes.length v := by
  constructor
  · rintro rfl
    exact (le_leValue bytes).symm
  · intro same
    exact (congrArg leValue same).trans (leValue_le h)

def cut : List Nat → List UInt8 → List (List UInt8)
  | [], bytes => [bytes]
  | width :: widths, bytes => bytes.take width :: cut widths (bytes.drop width)

theorem cut_flatten (widths : List Nat) (bytes : List UInt8) : (cut widths bytes).flatten = bytes := by
  induction widths generalizing bytes with
  | nil => exact List.append_nil bytes
  | cons width widths ih => rw [cut, List.flatten_cons, ih, List.take_append_drop]

theorem flatten_cut (fields : List (List UInt8)) (rest : List UInt8) :
    cut (fields.map List.length) (fields.flatten ++ rest) = fields ++ [rest] := by
  induction fields with
  | nil => rfl
  | cons field fields ih =>
    rw [List.map_cons, cut, List.flatten_cons, List.append_assoc, List.take_left, List.drop_left, ih,
      List.cons_append]

section Paste

variable {n k : Nat}

/-- Bytes of a list in the place of those from `p` on. -/
def paste (b : Bytes n) (p : Nat) (bytes : List UInt8) : Bytes n :=
  ofFn n fun i => if p ≤ i ∧ i < p + bytes.length then bytes.getD (i - p) 0 else byteAt b i

theorem paste_paste (b : Bytes n) (p : Nat) (xs ys : List UInt8) :
    paste (paste b p xs) (p + xs.length) ys = paste b p (xs ++ ys) := by
  apply ext_byteAt
  intro i hi
  simp only [paste, byteAt_ofFn, if_pos hi, List.length_append]
  by_cases second : p + xs.length ≤ i ∧ i < p + xs.length + ys.length
  · rw [if_pos second, if_pos (by omega), List.getD_append_right _ _ _ _ (by omega)]
    congr 1
    omega
  · rw [if_neg second]
    by_cases first : p ≤ i ∧ i < p + xs.length
    · rw [if_pos first, if_pos (by omega), List.getD_append _ _ _ _ (by omega)]
    · rw [if_neg first, if_neg (by omega)]

theorem paste_next {b : Bytes n} {p q : Nat} {xs ys : List UInt8} (h : q = p + xs.length) :
    paste (paste b p xs) q ys = paste b p (xs ++ ys) := by
  rw [h, paste_paste]

/-- Zeros after what was filled in are there already. -/
theorem paste_zeros (xs : List UInt8) (k : Nat) :
    paste (zero n) 0 (xs ++ List.replicate k 0) = paste (zero n) 0 xs := by
  apply ext_byteAt
  intro i hi
  simp only [paste, byteAt_ofFn, if_pos hi, List.length_append, List.length_replicate, byteAt_zero,
    Nat.sub_zero]
  by_cases first : i < xs.length
  · rw [if_pos (by omega), if_pos (by omega), List.getD_append _ _ _ _ first]
  · rw [if_neg (show ¬(0 ≤ i ∧ i < 0 + xs.length) by omega)]
    split
    · rw [List.getD_append_right _ _ _ _ (by omega)]
      exact List.getD_replicate 0 (by omega)
    · rfl

theorem digit_le (len v i : Nat) (h : i < len) : (le len v).getD i 0 = digit v i := by
  induction len generalizing v i with
  | zero => omega
  | succ len ih =>
    cases i with
    | zero => simp [le, digit]
    | succ i =>
      rw [le, List.getD_cons_succ, ih _ _ (by omega), digit, digit, Nat.div_div_eq_div_mul, pow_succ']

theorem put_eq_paste (b : Bytes n) (p v len : Nat) : put b p v len = paste b p (le len v) := by
  apply ext_byteAt
  intro i hi
  simp only [paste, put, byteAt_ofFn, if_pos hi, length_le]
  split
  · rename_i here
    rw [digit_le len v (i - p) (by omega)]
  · rfl

theorem blit_eq_paste (b : Bytes n) (p : Nat) (v : Bytes k) : blit b p v k = paste b p v.toList := by
  apply ext_byteAt
  intro i hi
  simp only [paste, blit, byteAt_ofFn, if_pos hi, Vector.length_toList]
  split
  · rename_i here
    rw [byteAt, dif_pos (show i - p < k by omega)]
    simp [List.getD_eq_getElem?_getD, show i - p < k by omega]
  · rfl

/-- A record that was zero and has been filled from its start. -/
theorem toList_paste (bytes : List UInt8) (room : bytes.length ≤ n) :
    (paste (zero n) 0 bytes).toList = bytes ++ List.replicate (n - bytes.length) 0 := by
  apply List.ext_getElem
  · rw [Vector.length_toList, List.length_append, List.length_replicate]
    omega
  · intro i hi hj
    have bound : i < n := by simpa using hi
    have entry : (paste (zero n) 0 bytes).toList[i] = byteAt (paste (zero n) 0 bytes) i := by
      simp [byteAt, bound]
    rw [entry, paste, byteAt_ofFn, if_pos bound]
    by_cases here : i < bytes.length
    · rw [if_pos (by omega), List.getElem_append_left here, Nat.sub_zero,
        List.getD_eq_getElem _ _ here]
    · rw [if_neg (by omega), List.getElem_append_right (by omega), byteAt_zero, List.getElem_replicate]

end Paste

end WireLists
