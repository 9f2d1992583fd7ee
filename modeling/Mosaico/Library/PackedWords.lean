import Mosaico.Library.ByteFields

/-! Bytes in the arguments of a record: four to a 32-bit word, the lowest first. -/
namespace PackedWords

open ByteFields

/-- Four bytes from `i` on. -/
def pack (b : Nat → UInt8) (i : Nat) : UInt32 :=
  (List.range 4).foldl (fun w j => w ||| (b (i + j)).toUInt32 <<< UInt32.ofNat (8 * j)) 0

def packAll (b : Nat → UInt8) (i : Nat) : Nat → List UInt32
  | 0 => []
  | n + 1 => pack b i :: packAll b (i + 4) n

def unpack (v : Nat) : List UInt8 := [digit v 0, digit v 1, digit v 2, digit v 3]

def unpackAll (words : List Nat) : List UInt8 := words.flatMap unpack

theorem pack_toNat (b : Nat → UInt8) (i : Nat) :
    (pack b i).toNat = (b i).toNat + (b (i + 1)).toNat * 2 ^ 8 + (b (i + 2)).toNat * 2 ^ 16 +
      (b (i + 3)).toNat * 2 ^ 24 := by
  have h0 := (b i).toNat_lt
  have h1 := (b (i + 1)).toNat_lt
  have h2 := (b (i + 2)).toNat_lt
  have h3 := (b (i + 3)).toNat_lt
  have shifted (v : UInt8) (j : Nat) (h : j < 4) :
      (v.toUInt32 <<< UInt32.ofNat (8 * j)).toNat = v.toNat <<< (8 * j) := by
    have lt := v.toNat_lt
    have small : 2 ^ (8 * j) ≤ 2 ^ 24 := Nat.pow_le_pow_right (by decide) (by omega)
    have inRange : 8 * j < UInt32.size := Nat.lt_trans (show 8 * j < 32 by omega) (by decide)
    have product : v.toNat * 2 ^ (8 * j) < 2 ^ 32 :=
      Nat.lt_of_lt_of_le (Nat.mul_lt_mul_of_pos_right lt (Nat.two_pow_pos _))
        (Nat.mul_le_mul_left _ small)
    rw [UInt32.toNat_shiftLeft, UInt8.toNat_toUInt32, UInt32.toNat_ofNat_of_lt' inRange,
      Nat.mod_eq_of_lt (show 8 * j < 32 by omega), Nat.shiftLeft_eq, Nat.mod_eq_of_lt product]
  have join (low v k : Nat) (h : low < 2 ^ k) : low ||| v <<< k = low + v * 2 ^ k := by
    rw [Nat.or_comm, ← Nat.shiftLeft_add_eq_or_of_lt h, Nat.shiftLeft_eq, Nat.add_comm]
  have all : (pack b i).toNat = ((((b i).toNat <<< 0 ||| (b (i + 1)).toNat <<< 8) |||
      (b (i + 2)).toNat <<< 16) ||| (b (i + 3)).toNat <<< 24) := by
    have range : List.range 4 = [0, 1, 2, 3] := rfl
    simp only [pack, range, List.foldl_cons, List.foldl_nil, UInt32.toNat_or,
      shifted _ 0 (by decide), shifted _ 1 (by decide), shifted _ 2 (by decide),
      shifted _ 3 (by decide), UInt32.toNat_zero, Nat.zero_or, Nat.add_zero, Nat.mul_zero]
  rw [all, Nat.shiftLeft_zero, join _ _ 8 (by omega), join _ _ 16 (by omega),
    join _ _ 24 (by omega)]

theorem unpack_pack (b : Nat → UInt8) (i : Nat) :
    unpack (pack b i).toNat = [b i, b (i + 1), b (i + 2), b (i + 3)] := by
  have h0 := (b i).toNat_lt
  have h1 := (b (i + 1)).toNat_lt
  have h2 := (b (i + 2)).toNat_lt
  have h3 := (b (i + 3)).toNat_lt
  have byte (v : UInt8) (n j : Nat) (h : n / 256 ^ j % 256 = v.toNat) : digit n j = v := by
    apply UInt8.toNat.inj
    rw [digit_toNat, h]
  have total := pack_toNat b i
  rw [unpack, byte (b i) _ 0 (by omega), byte (b (i + 1)) _ 1 (by omega),
    byte (b (i + 2)) _ 2 (by omega), byte (b (i + 3)) _ 3 (by omega)]

/-- Packed words hold the bytes they were made of. -/
theorem unpackAll_packAll (b : Nat → UInt8) (i n : Nat) :
    unpackAll ((packAll b i n).map UInt32.toNat) = (List.range' i (4 * n)).map b := by
  induction n generalizing i with
  | zero => rfl
  | succ n ih =>
    have rest := ih (i + 4)
    rw [unpackAll] at rest ⊢
    rw [packAll, List.map_cons, List.flatMap_cons, unpack_pack, rest, Nat.mul_succ]
    simp [List.range'_succ, Nat.add_assoc]

end PackedWords
