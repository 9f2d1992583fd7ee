import Mathlib.Data.Nat.Digits.Lemmas

/-! DER of a sequence of two non-negative integers, written and read. -/
namespace Der

def magnitude (n : Nat) : List UInt8 := (Nat.digits 256 n).reverse.map UInt8.ofNat

def value (bytes : List UInt8) : Nat := Nat.ofDigits 256 (bytes.reverse.map UInt8.toNat)

/-- The two's complement of a non-negative number in as few bytes as it takes. -/
def content (n : Nat) : List UInt8 :=
  match magnitude n with
  | [] => [0]
  | b :: rest => if b < 0x80 then b :: rest else 0 :: b :: rest

def length (n : Nat) : List UInt8 :=
  if n < 128 then [UInt8.ofNat n]
  else UInt8.ofNat (128 + (magnitude n).length) :: magnitude n

def integer (n : Nat) : List UInt8 := 2 :: (length (content n).length ++ content n)

def pair (r s : Nat) : List UInt8 :=
  0x30 :: (length (integer r ++ integer s).length ++ (integer r ++ integer s))

def Minimal : List UInt8 → Prop
  | [] => False
  | [b] => b < 0x80
  | b :: c :: _ => b < 0x80 ∧ (b = 0 → 0x80 ≤ c)

instance : DecidablePred Minimal := fun bytes =>
  match bytes with
  | [] => inferInstanceAs (Decidable False)
  | [_] => inferInstanceAs (Decidable (_ < _))
  | _ :: _ :: _ => inferInstanceAs (Decidable (_ ∧ _))

def readInteger : List UInt8 → Option (Nat × List UInt8)
  | 2 :: count :: rest =>
    let bytes := rest.take count.toNat
    if count < 0x80 ∧ bytes.length = count.toNat ∧ Minimal bytes then
      some (value bytes, rest.drop count.toNat)
    else none
  | _ => none

def readPair : List UInt8 → Option (Nat × Nat)
  | 0x30 :: count :: body => do
    if ¬(count < 0x80 ∧ body.length = count.toNat) then none
    let (r, rest) ← readInteger body
    let (s, rest) ← readInteger rest
    if rest = [] then some (r, s) else none
  | _ => none

section Content

variable {n : Nat} {bytes : List UInt8}

theorem toNat_magnitude (n : Nat) : (magnitude n).map UInt8.toNat = (Nat.digits 256 n).reverse := by
  have same : ∀ d ∈ (Nat.digits 256 n).reverse, (UInt8.toNat ∘ UInt8.ofNat) d = id d := by
    intro d mem
    exact UInt8.toNat_ofNat_of_lt' (Nat.digits_lt_base (by decide) (List.mem_reverse.mp mem))
  rw [magnitude, List.map_map, List.map_congr_left same, List.map_id]

theorem value_magnitude (n : Nat) : value (magnitude n) = n := by
  rw [value, List.map_reverse, toNat_magnitude, List.reverse_reverse, Nat.ofDigits_digits]

private theorem value_zero_cons (bytes : List UInt8) : value (0 :: bytes) = value bytes := by
  rw [value, value, List.reverse_cons, List.map_append, Nat.ofDigits_append]
  simp

theorem value_content (n : Nat) : value (content n) = n := by
  have whole := value_magnitude n
  unfold content
  split
  · rename_i none_
    rw [none_] at whole
    rw [← whole]
    rfl
  · rename_i b rest some_
    rw [some_] at whole
    split
    · exact whole
    · rw [value_zero_cons, whole]

/-- A number has one list of bytes that does not begin with zero. -/
theorem magnitude_value (first : bytes.head? ≠ some 0) : magnitude (value bytes) = bytes := by
  have back : (bytes.reverse.map UInt8.toNat).reverse.map UInt8.ofNat = bytes := by
    have same : ∀ b ∈ bytes, (UInt8.ofNat ∘ UInt8.toNat) b = id b := fun b _ => UInt8.ofNat_toNat
    rw [← List.map_reverse, List.reverse_reverse, List.map_map, List.map_congr_left same, List.map_id]
  rw [magnitude, value, Nat.digits_ofDigits 256 (by decide), back]
  · intro d mem
    obtain ⟨b, -, rfl⟩ := List.mem_map.mp mem
    exact b.toNat_lt
  · intro some_ zero
    cases bytes with
    | nil => exact some_ rfl
    | cons b rest =>
      rw [List.getLast_map, List.getLast_reverse] at zero
      exact first (congrArg some (UInt8.toNat_inj.mp zero))

theorem head_magnitude (n : Nat) : (magnitude n).head? ≠ some 0 := by
  intro zero
  by_cases none_ : n = 0
  · subst none_
    cases zero
  · have digits : Nat.digits 256 n ≠ [] := Nat.digits_ne_nil_iff_ne_zero.mpr none_
    have last := Nat.getLast_digit_ne_zero 256 none_
    have high : (Nat.digits 256 n).getLast digits < 256 :=
      Nat.digits_lt_base (by decide) (List.getLast_mem digits)
    rw [magnitude, List.head?_map, List.head?_reverse, List.getLast?_eq_some_getLast digits] at zero
    have same := congrArg UInt8.toNat (Option.some.inj zero)
    rw [UInt8.toNat_ofNat_of_lt' high] at same
    exact last same

theorem minimal_content (n : Nat) : Minimal (content n) := by
  have first := head_magnitude n
  unfold content
  split
  · decide
  · rename_i b rest some_
    rw [some_] at first
    split
    · rename_i small
      cases rest with
      | nil => exact small
      | cons c rest => exact ⟨small, fun zero => absurd (congrArg some zero) first⟩
    · rename_i large
      exact ⟨by decide, fun _ => UInt8.not_lt.mp large⟩

theorem content_value (minimal : Minimal bytes) : content (value bytes) = bytes := by
  match bytes, minimal with
  | [b], small =>
    by_cases zero : b = 0
    · subst zero
      rfl
    · have small : b < 0x80 := small
      have first : [b].head? ≠ some 0 := fun first => zero (Option.some.inj first)
      rw [content, magnitude_value first]
      exact if_pos small
  | b :: c :: rest, ⟨small, high⟩ =>
    by_cases zero : b = 0
    · subst zero
      have large := high rfl
      have some_ : (c :: rest).head? ≠ some 0 := by
        intro first
        rw [Option.some.inj first] at large
        revert large
        decide
      rw [value_zero_cons, content, magnitude_value some_]
      exact if_neg (UInt8.not_lt.mpr large)
    · have first : (b :: c :: rest).head? ≠ some 0 := fun first => zero (Option.some.inj first)
      rw [content, magnitude_value first]
      exact if_pos small

/-- As many bytes as the number takes, and one more where the first would show a sign. -/
theorem length_content_le {k : Nat} (h : n < 256 ^ k) : (content n).length ≤ k + 1 := by
  have digits : (magnitude n).length ≤ k := by
    rw [magnitude, List.length_map, List.length_reverse]
    exact (Nat.digits_length_le_iff (by decide) n).mpr h
  unfold content
  split
  · exact Nat.le_add_left ..
  · rename_i b rest some_
    rw [some_] at digits
    split
    · exact Nat.le_succ_of_le digits
    · exact Nat.succ_le_succ digits

end Content

section Reading

variable {n r s : Nat}

theorem content_ne_nil (n : Nat) : content n ≠ [] := by
  intro none_
  have minimal := minimal_content n
  rw [none_] at minimal
  exact minimal

theorem readInteger_integer (rest : List UInt8) (short : (content n).length < 128) :
    readInteger (integer n ++ rest) = some (n, rest) := by
  have count : (UInt8.ofNat (content n).length).toNat = (content n).length :=
    UInt8.toNat_ofNat_of_lt' (Nat.lt_trans short (by decide))
  have small : UInt8.ofNat (content n).length < 0x80 := by
    rw [UInt8.lt_iff_toNat_lt, count]
    exact short
  rw [integer, length, if_pos short]
  show readInteger (2 :: UInt8.ofNat (content n).length :: (content n ++ rest)) = _
  rw [readInteger, count, List.take_left, List.drop_left,
    if_pos ⟨small, rfl, minimal_content n⟩, value_content]

theorem readPair_pair (short : (integer r ++ integer s).length < 128) :
    readPair (pair r s) = some (r, s) := by
  have count : (UInt8.ofNat (integer r ++ integer s).length).toNat = (integer r ++ integer s).length :=
    UInt8.toNat_ofNat_of_lt' (Nat.lt_trans short (by decide))
  have small : UInt8.ofNat (integer r ++ integer s).length < 0x80 := by
    rw [UInt8.lt_iff_toNat_lt, count]
    exact short
  have contents : (content r).length < 128 ∧ (content s).length < 128 := by
    simp only [integer, List.length_append, List.length_cons] at short
    omega
  have second := readInteger_integer [] contents.2
  rw [List.append_nil] at second
  rw [pair, length, if_pos short]
  show readPair (0x30 :: UInt8.ofNat (integer r ++ integer s).length :: (integer r ++ integer s)) = _
  rw [readPair, if_neg (not_not.mpr ⟨small, count.symm⟩)]
  simp only [readInteger_integer _ contents.1, second, Option.bind_eq_bind, Option.bind_some, if_pos]

end Reading

section Carrying

variable {bytes c d c' d' : List UInt8} {r s : Nat}

def signed (bytes : List UInt8) : Int :=
  if 0x80 ≤ bytes.headD 0 then value bytes - 256 ^ bytes.length else value bytes

/-- A first byte that only repeats the sign of the second. -/
def Padded (bytes : List UInt8) : Prop :=
  ∃ b rest, (bytes = 0 :: b :: rest ∧ b < 0x80) ∨ (bytes = 0xff :: b :: rest ∧ 0x80 ≤ b)

/-- A sequence of two integers of these contents, whatever they are. -/
def Carries (bytes c d : List UInt8) : Prop :=
  ∃ total m n : UInt8, bytes = 0x30 :: total :: 2 :: m :: (c ++ 2 :: n :: d) ∧
    m.toNat = c.length ∧ n.toNat = d.length

theorem carries_inj (h : Carries bytes c d) (h' : Carries bytes c' d') : c = c' ∧ d = d' := by
  obtain ⟨total, m, n, same, first, -⟩ := h
  obtain ⟨total', m', n', same', first', -⟩ := h'
  rw [same] at same'
  simp only [List.cons.injEq, true_and] at same'
  obtain ⟨-, rfl, body⟩ := same'
  obtain ⟨left, right⟩ := List.append_inj body (first.symm.trans first')
  simp only [List.cons.injEq, true_and] at right
  exact ⟨left, right.2⟩

theorem carries_pair (short : (integer r ++ integer s).length < 128) :
    Carries (pair r s) (content r) (content s) := by
  have lengths : (content r).length < 128 ∧ (content s).length < 128 := by
    simp only [integer, List.length_append, List.length_cons] at short
    omega
  have written : ∀ n, (content n).length < 128 →
      integer n = 2 :: UInt8.ofNat (content n).length :: content n := by
    intro n small
    rw [integer, length, if_pos small]
    rfl
  have count : ∀ n, (content n).length < 128 →
      (UInt8.ofNat (content n).length).toNat = (content n).length := fun n small =>
    UInt8.toNat_ofNat_of_lt' (Nat.lt_trans small (by decide))
  refine ⟨UInt8.ofNat (integer r ++ integer s).length, _, _, ?_, count r lengths.1, count s lengths.2⟩
  rw [pair, length, if_pos short, written r lengths.1, written s lengths.2]
  rfl

theorem signed_minimal (minimal : Minimal bytes) : signed bytes = value bytes := by
  rw [signed, if_neg]
  apply UInt8.not_le.mpr
  match bytes, minimal with
  | [_], small => exact small
  | _ :: _ :: _, h => exact h.1

theorem signed_content (n : Nat) : signed (content n) = n := by
  rw [signed_minimal (minimal_content n), value_content]

theorem not_padded (minimal : Minimal bytes) : ¬Padded bytes := by
  rintro ⟨b, rest, ⟨rfl, small⟩ | ⟨rfl, -⟩⟩
  · exact UInt8.not_lt.mpr (minimal.2 rfl) small
  · exact absurd minimal.1 (by decide)

end Carrying

end Der
