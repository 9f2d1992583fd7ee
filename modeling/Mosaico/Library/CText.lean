import Mathlib.Data.List.Basic
import Mathlib.Data.List.TakeWhile
import Mathlib.Algebra.Group.Nat.Defs

/-! Buffers with checked accesses, and the C functions that search and read text
in them. A text ends at the first NUL. -/
namespace CText

def ascii (s : String) : List UInt8 := s.toList.map fun c => UInt8.ofNat c.toNat

def write (buffer : List UInt8) (place : Nat) (data : List UInt8) : Option (List UInt8) :=
  if place + data.length ≤ buffer.length then
    some (buffer.take place ++ data ++ buffer.drop (place + data.length))
  else none

def read (buffer : List UInt8) (place count : Nat) : Option (List UInt8) :=
  if place + count ≤ buffer.length then some ((buffer.drop place).take count) else none

def untilNul (bytes : List UInt8) : List UInt8 := bytes.takeWhile (· ≠ 0)

/-- The text in a buffer; none if no NUL ends it inside. -/
def text (buffer : List UInt8) : Option (List UInt8) :=
  if 0 ∈ buffer then some (untilNul buffer) else none

def strstr (needle : List UInt8) : List UInt8 → Option Nat
  | [] => if needle.isPrefixOf [] then some 0 else none
  | c :: rest => if needle.isPrefixOf (c :: rest) then some 0 else (strstr needle rest).map (· + 1)

def lower (c : UInt8) : UInt8 := if 65 ≤ c ∧ c ≤ 90 then c + 32 else c

def strcasestr (needle bytes : List UInt8) : Option Nat := strstr (needle.map lower) (bytes.map lower)

def isSpace (c : UInt8) : Bool := c = 32 || (9 ≤ c && c ≤ 13)

def isDigit (c : UInt8) : Bool := 48 ≤ c && c ≤ 57

def decimal (digits : List UInt8) : Nat := digits.foldl (fun v c => v * 10 + (c.toNat - 48)) 0

def sign : List UInt8 → Bool × List UInt8
  | 45 :: rest => (true, rest)
  | 43 :: rest => (false, rest)
  | bytes => (false, bytes)

/-- The number in base ten, and what is left at the end pointer; `unsigned long` has 32 bits. -/
def strtoul (bytes : List UInt8) : Nat × List UInt8 :=
  let signed := sign (bytes.dropWhile isSpace)
  let digits := signed.2.takeWhile isDigit
  if digits = [] then (0, bytes)
  else
    (if 2 ^ 32 ≤ decimal digits then 2 ^ 32 - 1
      else if signed.1 then (2 ^ 32 - decimal digits) % 2 ^ 32 else decimal digits,
      signed.2.dropWhile isDigit)

/-- A `scanf` conversion of a decimal number of at most `width` characters. -/
def scanNumber (width : Nat) (bytes : List UInt8) : Option (Int × List UInt8) :=
  let field := bytes.dropWhile isSpace
  let signed := sign (field.take width)
  let digits := signed.2.takeWhile isDigit
  if digits = [] then none
  else
    some (if signed.1 then -(decimal digits : Int) else decimal digits,
      field.drop ((field.take width).length - signed.2.length + digits.length))

section Buffers

variable {front back data buffer : List UInt8}

theorem write_append (front back data : List UInt8) (room : data.length ≤ back.length) :
    write (front ++ back) front.length data = some (front ++ data ++ back.drop data.length) := by
  rw [write, if_pos (by rw [List.length_append]; omega), List.take_left, List.drop_append,
    List.drop_of_length_le (by omega), Nat.add_sub_cancel_left, List.nil_append]

theorem read_append {count : Nat} (room : count ≤ back.length) :
    read (front ++ back) front.length count = some (back.take count) := by
  rw [read, if_pos (by rw [List.length_append]; omega), List.drop_left]

theorem write_length {place : Nat} {written : List UInt8} (h : write buffer place data = some written) :
    written.length = buffer.length := by
  rw [write] at h
  split at h
  · cases h
    simp only [List.length_append, List.length_take, List.length_drop]
    omega
  · cases h

theorem untilNul_ended (front back : List UInt8) : untilNul (front ++ 0 :: back) = untilNul front := by
  induction front with
  | nil => rfl
  | cons c rest ih =>
    by_cases nul : c = 0
    · simp [untilNul, nul]
    · have kept : decide (c ≠ 0) = true := decide_eq_true nul
      rw [List.cons_append, untilNul, untilNul,
        @List.takeWhile_cons_of_pos _ (fun x : UInt8 => decide (x ≠ 0)) _ _ kept,
        @List.takeWhile_cons_of_pos _ (fun x : UInt8 => decide (x ≠ 0)) _ _ kept]
      exact congrArg (c :: ·) ih

theorem text_ended (front back : List UInt8) : text (front ++ 0 :: back) = some (untilNul front) := by
  rw [text, if_pos (List.mem_append_right _ List.mem_cons_self), untilNul_ended]

theorem untilNul_initial (bytes : List UInt8) : untilNul bytes <+: bytes := List.takeWhile_prefix _

theorem untilNul_clear {bytes : List UInt8} (clear : 0 ∉ bytes) : untilNul bytes = bytes := by
  rw [untilNul, List.takeWhile_eq_self_iff]
  intro c hc
  exact decide_eq_true fun nul => clear (nul ▸ hc)

theorem untilNul_no_nul (bytes : List UInt8) : 0 ∉ untilNul bytes := by
  intro h
  rw [untilNul] at h
  have kept := List.mem_takeWhile_imp h
  exact of_decide_eq_true kept rfl

/-- More bytes behind leave a longer text. -/
theorem untilNul_append (front back : List UInt8) : untilNul front <+: untilNul (front ++ back) := by
  by_cases clear : 0 ∈ front
  · obtain ⟨first, rest, rfl⟩ := List.append_of_mem clear
    have same : untilNul (first ++ 0 :: rest ++ back) = untilNul (first ++ 0 :: rest) := by
      rw [List.append_assoc, List.cons_append, untilNul_ended, untilNul_ended]
    exact ⟨[], by rw [List.append_nil, same]⟩
  · have solid : ∀ c ∈ front, decide (c ≠ 0) = true := by
      intro c hc
      exact decide_eq_true fun nul => clear (nul ▸ hc)
    have kept : untilNul (front ++ back) = front ++ untilNul back := List.takeWhile_append_of_pos solid
    exact ⟨untilNul back, by rw [untilNul_clear clear, kept]⟩

end Buffers

section Search

variable {needle bytes more : List UInt8} {place : Nat}

/-- `strstr` finds the first place where the needle stands. -/
theorem strstr_some : strstr needle bytes = some place ↔
    needle <+: bytes.drop place ∧ place ≤ bytes.length ∧ ∀ k < place, ¬ needle <+: bytes.drop k := by
  induction bytes generalizing place with
  | nil =>
    rw [strstr, List.drop_nil]
    by_cases here : needle.isPrefixOf [] = true
    · have starts := List.isPrefixOf_iff_prefix.mp here
      rw [if_pos here, Option.some_inj]
      constructor
      · rintro rfl
        exact ⟨starts, Nat.le_refl _, nofun⟩
      · intro found
        exact (Nat.le_zero.mp found.2.1).symm
    · rw [if_neg here]
      refine ⟨nofun, fun found => absurd (List.isPrefixOf_iff_prefix.mpr found.1) here⟩
  | cons c rest ih =>
    rw [strstr]
    by_cases here : needle.isPrefixOf (c :: rest) = true
    · have starts := List.isPrefixOf_iff_prefix.mp here
      rw [if_pos here, Option.some_inj]
      constructor
      · rintro rfl
        exact ⟨starts, Nat.zero_le _, nofun⟩
      · intro found
        by_contra later
        exact found.2.2 0 (Nat.pos_of_ne_zero (Ne.symm later)) starts
    · rw [if_neg here]
      have absent : ¬ needle <+: c :: rest := fun starts => here (List.isPrefixOf_iff_prefix.mpr starts)
      cases place with
      | zero =>
        refine ⟨fun found => ?_, fun found => absurd found.1 absent⟩
        obtain ⟨k, _, bad⟩ := Option.map_eq_some_iff.mp found
        cases bad
      | succ place =>
        rw [Option.map_eq_some_iff]
        constructor
        · rintro ⟨k, found, same⟩
          cases same
          obtain ⟨starts, inside, first⟩ := ih.mp found
          refine ⟨starts, Nat.succ_le_succ inside, fun j before => ?_⟩
          cases j with
          | zero => exact absent
          | succ j => exact first j (Nat.lt_of_succ_lt_succ before)
        · rintro ⟨starts, inside, first⟩
          refine ⟨place, ih.mpr ⟨starts, Nat.le_of_succ_le_succ inside, fun j before => ?_⟩, rfl⟩
          exact first (j + 1) (Nat.succ_lt_succ before)

theorem strstr_inside (h : strstr needle bytes = some place) : place + needle.length ≤ bytes.length := by
  obtain ⟨starts, inside, _⟩ := strstr_some.mp h
  have short := starts.length_le
  rw [List.length_drop] at short
  omega

/-- What was found first is found first when more follows, and while it still stands there. -/
theorem strstr_within {shorter : List UInt8} (part : shorter <+: bytes)
    (inside : place + needle.length ≤ shorter.length) :
    strstr needle shorter = some place ↔ strstr needle bytes = some place := by
  obtain ⟨more, rfl⟩ := part
  have same (k : Nat) (within : k + needle.length ≤ shorter.length) :
      needle <+: shorter.drop k ↔ needle <+: (shorter ++ more).drop k := by
    rw [List.drop_append_of_le_length (by omega)]
    constructor
    · intro starts
      exact starts.trans (List.prefix_append _ _)
    · intro starts
      exact List.prefix_of_prefix_length_le starts (List.prefix_append _ _) (by rw [List.length_drop]; omega)
  rw [strstr_some, strstr_some, same place inside]
  refine and_congr_right fun _ => and_congr (by rw [List.length_append]; omega) (forall₂_congr fun k before => ?_)
  rw [same k (by omega)]

end Search

end CText
