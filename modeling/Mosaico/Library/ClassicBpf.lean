import Mathlib.Data.Nat.Init
import Mathlib.Logic.Function.Basic
import Mathlib.Tactic.SplitIfs
import Mathlib.Algebra.Group.Nat.Defs

/-! The classic packet-filter machine: an accumulator, an index register, scratch memory, loads
from the packet that reject it when they leave it, and forward jumps. Registers hold 32 bits. -/
namespace ClassicBpf

/-- A packet as it was on the wire; its length is a 32-bit number. -/
structure Packet where
  bytes : List UInt8
  fits : bytes.length < 2 ^ 32

def bigEndian (bytes : List UInt8) : Nat := bytes.foldl (fun v b => v * 256 + b.toNat) 0

/-- The number of `size` bytes at `offset`, where all of them are there. -/
def load (bytes : List UInt8) (offset size : Nat) : Option Nat :=
  if offset + size ≤ bytes.length then some (bigEndian ((bytes.drop offset).take size)) else none

inductive Code where
  | ldImm | ldMem | ldxMem | st
  | ldBInd | ldHInd | ldWInd | ldHAbs | ldLen
  | addK | addX | andK | lshK | rshK
  | tax | txa | jeqK | jgeK | jgeX | ja | retA | retK
  deriving DecidableEq, Repr

structure Insn where
  code : Code
  jt : Nat := 0
  jf : Nat := 0
  k : Nat := 0
  deriving DecidableEq, Repr

structure Regs where
  a : Nat := 0
  x : Nat := 0
  mem : Nat → Nat := fun _ => 0

def word (v : Nat) : Nat := v % 2 ^ 32

abbrev Regs.load (s : Regs) (v : Nat) : Regs := { s with a := v }

/-- What the filter returns; `skip` instructions are jumped over first. A program that is left
without a return rejects. -/
def run (p : Packet) : List Insn → Nat → Regs → Nat
  | [], _, _ => 0
  | _ :: rest, skip + 1, s => run p rest skip s
  | insn :: rest, 0, s =>
    match insn.code with
    | .ldImm => run p rest 0 (s.load insn.k)
    | .ldMem => run p rest 0 (s.load (s.mem insn.k))
    | .ldxMem => run p rest 0 { s with x := s.mem insn.k }
    | .st => run p rest 0 { s with mem := Function.update s.mem insn.k s.a }
    | .ldBInd => (load p.bytes (s.x + insn.k) 1).elim 0 fun v => run p rest 0 (s.load v)
    | .ldHInd => (load p.bytes (s.x + insn.k) 2).elim 0 fun v => run p rest 0 (s.load v)
    | .ldWInd => (load p.bytes (s.x + insn.k) 4).elim 0 fun v => run p rest 0 (s.load v)
    | .ldHAbs => (load p.bytes insn.k 2).elim 0 fun v => run p rest 0 (s.load v)
    | .ldLen => run p rest 0 (s.load p.bytes.length)
    | .addK => run p rest 0 (s.load (word (s.a + insn.k)))
    | .addX => run p rest 0 (s.load (word (s.a + s.x)))
    | .andK => run p rest 0 (s.load (s.a &&& insn.k))
    | .lshK => run p rest 0 (s.load (word (s.a <<< insn.k)))
    | .rshK => run p rest 0 (s.load (s.a >>> insn.k))
    | .tax => run p rest 0 { s with x := s.a }
    | .txa => run p rest 0 (s.load s.x)
    | .jeqK => run p rest (if s.a = insn.k then insn.jt else insn.jf) s
    | .jgeK => run p rest (if insn.k ≤ s.a then insn.jt else insn.jf) s
    | .jgeX => run p rest (if s.x ≤ s.a then insn.jt else insn.jf) s
    | .ja => run p rest insn.k s
    | .retA => s.a
    | .retK => insn.k

-- The equations of `run` are made here, once, and not by every proof that needs them first.
attribute [local simp] run

def Insn.jumps (insn : Insn) : List Nat :=
  match insn.code with
  | .ja => [insn.k]
  | .jeqK | .jgeK | .jgeX => [insn.jt, insn.jf]
  | _ => []

section Loads

variable {bytes : List UInt8} {offset size v n : Nat}

theorem bigEndian_lt (bytes : List UInt8) : bigEndian bytes < 256 ^ bytes.length := by
  have grows : ∀ (rest : List UInt8) (v k : Nat), v < 256 ^ k →
      rest.foldl (fun v b => v * 256 + b.toNat) v < 256 ^ (k + rest.length) := by
    intro rest
    induction rest with
    | nil => exact fun v k h => h
    | cons b rest ih =>
      intro v k h
      have digit := b.toNat_lt
      have next := ih (v * 256 + b.toNat) (k + 1) (by rw [Nat.pow_succ]; omega)
      rw [List.length_cons, show k + (rest.length + 1) = k + 1 + rest.length by omega]
      exact next
  have all := grows bytes 0 0 (by decide)
  rwa [Nat.zero_add] at all

theorem load_lt (h : load bytes offset size = some v) : v < 256 ^ size := by
  unfold load at h
  split_ifs at h with inside
  have bound := bigEndian_lt ((bytes.drop offset).take size)
  rw [List.length_take, List.length_drop, Nat.min_eq_left (by omega)] at bound
  rw [← Option.some.inj h]
  exact bound

theorem load_isSome (h : offset + size ≤ bytes.length) : ∃ v, load bytes offset size = some v :=
  ⟨_, if_pos h⟩

/-- Within a part at the front the part reads as the whole. -/
theorem bigEndian_take (h : offset + size ≤ n) :
    bigEndian (((bytes.take n).drop offset).take size) =
      bigEndian ((bytes.drop offset).take size) := by
  rw [List.drop_take, List.take_take, Nat.min_eq_left (by omega)]

end Loads

end ClassicBpf
