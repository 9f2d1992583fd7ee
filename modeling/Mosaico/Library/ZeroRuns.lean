import Mathlib.Data.List.Basic
import Mathlib.Tactic.Common

/-! Byte streams that keep a run of zeros as one token, and any other run behind its token. -/
namespace ZeroRuns

def token (zero : Bool) (run : Nat) : UInt8 := UInt8.ofNat ((if zero then 128 else 0) ||| (run - 1))

def run (t : UInt8) : Nat := (t &&& 127).toNat + 1

def isZero (t : UInt8) : Bool := t &&& 128 != 0

theorem token_reads (zero : Bool) (i : Fin 128) :
    run (token zero (i.val + 1)) = i.val + 1 ∧ isZero (token zero (i.val + 1)) = zero := by
  revert zero i
  decide

theorem run_token (zero : Bool) {n : Nat} (h : 1 ≤ n) (h' : n ≤ 128) : run (token zero n) = n := by
  have reads := (token_reads zero ⟨n - 1, by omega⟩).1
  simpa only [Nat.sub_add_cancel h] using reads

theorem isZero_token (zero : Bool) {n : Nat} (h : 1 ≤ n) (h' : n ≤ 128) :
    isZero (token zero n) = zero := by
  have reads := (token_reads zero ⟨n - 1, by omega⟩).2
  simpa only [Nat.sub_add_cancel h] using reads

/-- The bytes that a stream of tokens stands for. -/
inductive Codes : List UInt8 → List UInt8 → Prop
  | done : Codes [] []
  | zeros {n : Nat} {stream bytes : List UInt8} (some_ : 1 ≤ n) (few : n ≤ 128)
      (rest : Codes stream bytes) :
      Codes (token true n :: stream) (List.replicate n 0 ++ bytes)
  | literals {values stream bytes : List UInt8} (some_ : 1 ≤ values.length)
      (few : values.length ≤ 128) (nonzero : ∀ v ∈ values, v ≠ 0) (rest : Codes stream bytes) :
      Codes (token false values.length :: (values ++ stream)) (values ++ bytes)

section Shortest

def cost (zero : Bool) (len : Nat) : Nat := 1 + if zero then 0 else len

@[simp] theorem cost_zeros (len : Nat) : cost true len = 1 := rfl

@[simp] theorem cost_literals (len : Nat) : cost false len = 1 + len := rfl

variable {stream block bytes rest : List UInt8} {zero : Bool}

theorem zeros_of_kind (same : ∀ v ∈ block, (v == 0) = true) : block = List.replicate block.length 0 :=
  List.eq_replicate_iff.mpr ⟨rfl, fun v hv => by simpa using same v hv⟩

/-- A run is put before a stream. -/
theorem Codes.prepend (some_ : 1 ≤ block.length) (few : block.length ≤ 128) (same : ∀ v ∈ block, (v == 0) = zero)
    (h : Codes stream bytes) : ∃ longer, Codes longer (block ++ bytes) ∧
      longer.length = cost zero block.length + stream.length := by
  cases zero with
  | true =>
    refine ⟨token true block.length :: stream, ?_, ?_⟩
    · rw [zeros_of_kind same, List.length_replicate]
      exact .zeros some_ few h
    · rw [List.length_cons, cost_zeros, Nat.add_comm]
  | false =>
    refine ⟨_, .literals some_ few (fun v hv => by simpa using same v hv) h, ?_⟩
    rw [List.length_cons, List.length_append, cost_literals]
    omega

/-- A stream of some bytes begins with a run. -/
theorem Codes.first (h : Codes stream bytes) (some_ : bytes ≠ []) : ∃ zero block rest shorter,
    1 ≤ block.length ∧ block.length ≤ 128 ∧ (∀ v ∈ block, (v == 0) = zero) ∧ bytes = block ++ rest ∧
      Codes shorter rest ∧ stream.length = cost zero block.length + shorter.length := by
  cases h with
  | done => exact absurd rfl some_
  | @zeros n shorter rest one few coded =>
    refine ⟨true, List.replicate n 0, rest, shorter, by simpa using one, by simpa using few, ?_, rfl, coded, ?_⟩
    · intro v hv
      rw [(List.mem_replicate.mp hv).2]
      rfl
    · rw [List.length_cons, cost_zeros, Nat.add_comm]
  | @literals values shorter rest one few nonzero coded =>
    refine ⟨false, values, rest, shorter, one, few, fun v hv => by simpa using nonzero v hv, rfl, coded, ?_⟩
    rw [List.length_cons, List.length_append, cost_literals]
    omega

/-- One byte less takes at most as much, and one less where it is a literal. -/
theorem Codes.tail {v : UInt8} (h : Codes stream (v :: bytes)) (kind : (v == 0) = zero) : ∃ shorter,
    Codes shorter bytes ∧ shorter.length + (if zero then 0 else 1) ≤ stream.length := by
  obtain ⟨zero', block, rest, coded, one, few, same, split_, tail_, size⟩ := h.first (List.cons_ne_nil _ _)
  match block, one with
  | w :: ws, _ =>
    rw [List.cons_append] at split_
    obtain ⟨rfl, rfl⟩ := List.cons.inj split_
    obtain rfl : zero' = zero := (same v List.mem_cons_self).symm.trans kind
    rw [List.length_cons] at size few
    by_cases last : ws.length = 0
    · rw [List.length_eq_zero_iff.mp last, List.nil_append]
      refine ⟨coded, tail_, ?_⟩
      rw [size]
      cases zero' with
      | true => simp
      | false =>
        simp only [cost, Bool.false_eq_true, if_false]
        omega
    · have kinds : ∀ u ∈ ws, (u == 0) = zero' := fun u hu => same u (List.mem_cons_of_mem _ hu)
      obtain ⟨shorter, codes, length⟩ := tail_.prepend (Nat.pos_of_ne_zero last) (by omega) kinds
      refine ⟨shorter, codes, ?_⟩
      rw [length, size]
      cases zero' with
      | true => simp
      | false =>
        simp only [cost, Bool.false_eq_true, if_false]
        omega

theorem Codes.drop (h : Codes stream (block ++ rest)) (same : ∀ v ∈ block, (v == 0) = zero) : ∃ shorter,
    Codes shorter rest ∧ shorter.length + (if zero then 0 else block.length) ≤ stream.length := by
  induction block generalizing stream with
  | nil => exact ⟨stream, h, by simp⟩
  | cons v block ih =>
    obtain ⟨one, codes, fewer⟩ := Codes.tail h (same v List.mem_cons_self)
    obtain ⟨shorter, codes, less⟩ := ih codes fun u hu => same u (List.mem_cons_of_mem _ hu)
    refine ⟨shorter, codes, ?_⟩
    rw [List.length_cons]
    cases zero with
    | true => exact Nat.le_trans less fewer
    | false =>
      simp only [Bool.false_eq_true, if_false] at fewer less ⊢
      omega

/-- A first run that is as long as it can be is never a loss. -/
theorem Codes.maximal (h : Codes stream (block ++ rest)) (some_ : 1 ≤ block.length)
    (same : ∀ v ∈ block, (v == 0) = zero) (long : block.length = 128 ∨ ∀ v ∈ rest.head?, (v == 0) ≠ zero) :
    ∃ shorter, Codes shorter rest ∧ cost zero block.length + shorter.length ≤ stream.length := by
  have any : block ++ rest ≠ [] := by
    intro none_
    rw [(List.append_eq_nil_iff.mp none_).1] at some_
    exact absurd some_ (by decide)
  obtain ⟨zero', piece, later, coded, one, few, kinds, split_, tail_, size⟩ := h.first any
  obtain rfl : zero' = zero := by
    match block, piece, some_, one with
    | v :: _, w :: _, _, _ =>
      obtain ⟨rfl, -⟩ := List.cons.inj split_
      exact (kinds v List.mem_cons_self).symm.trans (same v List.mem_cons_self)
  obtain ⟨more, cut, end_⟩ | ⟨more, cut, end_⟩ := List.append_eq_append_iff.mp split_
  · -- the run of the stream covers all of the block, and so nothing more
    match more with
    | [] =>
      rw [List.append_nil] at cut
      rw [List.nil_append] at end_
      subst cut end_
      exact ⟨coded, tail_, Nat.le_of_eq size.symm⟩
    | v :: _ =>
      rw [cut, List.length_append, List.length_cons] at few
      have other := long.resolve_left (by omega) v (by rw [end_]; rfl)
      exact absurd (kinds v (by rw [cut]; simp)) other
  · subst cut end_
    obtain ⟨shorter, codes, less⟩ := tail_.drop fun v hv => same v (List.mem_append_right _ hv)
    refine ⟨shorter, codes, ?_⟩
    rw [size, List.length_append]
    cases zero' with
    | true => simp only [if_true, Nat.add_zero, cost_zeros] at less ⊢; omega
    | false => simp only [Bool.false_eq_true, if_false, cost_literals] at less ⊢; omega

end Shortest

def span (f : Nat → UInt8) (p len : Nat) : List UInt8 := (List.range' p len).map f

variable {f g : Nat → UInt8}

@[simp] theorem span_zero (p : Nat) : span f p 0 = [] := rfl

theorem span_succ (p len : Nat) : span f p (len + 1) = f p :: span f (p + 1) len := by
  rw [span, List.range'_succ, List.map_cons, span]

@[simp] theorem length_span (p len : Nat) : (span f p len).length = len := by
  rw [span, List.length_map, List.length_range']

theorem span_add (p a b : Nat) : span f p (a + b) = span f p a ++ span f (p + a) b := by
  rw [span, ← List.range'_append_1, List.map_append, span, span]

theorem span_congr {p q len : Nat} (h : ∀ i, i < len → f (p + i) = g (q + i)) :
    span f p len = span g q len := by
  induction len generalizing p q with
  | zero => rfl
  | succ len ih =>
    have first := h 0 (Nat.succ_pos len)
    rw [span_succ, span_succ, ih fun i hi => ?_]
    · rw [Nat.add_zero, Nat.add_zero] at first
      rw [first]
    · have next := h (i + 1) (Nat.succ_lt_succ hi)
      rwa [← Nat.add_assoc, ← Nat.add_assoc, Nat.add_right_comm p, Nat.add_right_comm q] at next

theorem mem_span {p len : Nat} {v : UInt8} (h : v ∈ span f p len) :
    ∃ i, i < len ∧ v = f (p + i) := by
  obtain ⟨i, hi, rfl⟩ := List.mem_map.mp h
  obtain ⟨first, last⟩ := List.mem_range'_1.mp hi
  exact ⟨i - p, by omega, by rw [Nat.add_sub_cancel' first]⟩

theorem span_const {p len : Nat} (h : ∀ i, i < len → f (p + i) = 0) :
    span f p len = List.replicate len 0 := by
  rw [List.eq_replicate_iff]
  constructor
  · exact length_span p len
  · intro v hv
    obtain ⟨i, hi, rfl⟩ := mem_span hv
    exact h i hi

/-- Equal spans are equal byte for byte. -/
theorem span_apply {p q len i : Nat} (h : span f p len = span g q len) (hi : i < len) :
    f (p + i) = g (q + i) := by
  have same := congrArg (fun l => l[i]?) h
  simpa [span, List.getElem?_map, List.getElem?_range', hi] using same

end ZeroRuns
