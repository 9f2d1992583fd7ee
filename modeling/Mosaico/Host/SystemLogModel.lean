import Mosaico.Library.RingBuffer
import Mosaico.Nand.LogModel

/-! `mosaico_system_log_model.h`: the fixed 64-byte records, the bounded queue they wait in,
and the journal page that a batch of them is composed into. -/
namespace Mosaico.Host.SystemLog

open ByteFields RingBuffer Nand.StoreModel Nand.LogModel

abbrev capacity : Nat := 128

instance filled : NeZero 128 := ⟨by decide⟩

inductive Kind where
  | boot | gauge | gaugeBoot | network | power | ota | heap | warning | loss | outcome | panic
  | tcp | gaugeEngine | unitContext | engineDiagnosticEvent | derpCandidate | derpCandidateName
  | derpCandidateLoss
  deriving DecidableEq, Repr

def Kind.code : Kind → Nat
  | .boot => 1 | .gauge => 2 | .gaugeBoot => 3 | .network => 4 | .power => 5 | .ota => 6
  | .heap => 7 | .warning => 8 | .loss => 9 | .outcome => 10 | .panic => 11 | .tcp => 12
  | .gaugeEngine => 13 | .unitContext => 14 | .engineDiagnosticEvent => 15
  | .derpCandidate => 16 | .derpCandidateName => 17 | .derpCandidateLoss => 18

structure Record where
  type : Kind := .boot
  flags : UInt16 := 0
  monotonicMs : UInt64 := 0
  epoch : UInt64 := 0
  args : Vector UInt32 11 := Vector.replicate 11 0
  deriving DecidableEq

abbrev Encoded := Bytes recordSize

def putArgs (b : Encoded) (args : Vector UInt32 11) : Encoded :=
  args.toList.zipIdx.foldl (fun b (v, i) => put b (20 + i * 4) v.toNat 4) b

def encode (r : Record) : Encoded :=
  let b := put (put (zero recordSize) 0 r.type.code 2) 2 r.flags.toNat 2
  let b := put (put b 4 r.monotonicMs.toNat 8) 12 r.epoch.toNat 8
  putArgs b r.args

/-- What a gauge reading says about its units. -/
structure Tag where
  factor : Int64
  epoch : UInt64
  generation : UInt64
  verified : Bool
  phase : UInt8
  deriving DecidableEq

def low (v : UInt64) : UInt32 := v.toUInt32

def high (v : UInt64) : UInt32 := (v >>> 32).toUInt32

/-- The context record that goes before a reading; `clock` is the epoch where it is valid. -/
def unitContext (units : Tag) (monotonicMs : UInt64) (clock : Option UInt64) : Record where
  type := .unitContext
  flags := if clock.isSome then 1 else 0
  monotonicMs := monotonicMs
  epoch := clock.getD 0
  args := #v[low units.factor.toUInt64, high units.factor.toUInt64, low units.epoch,
    high units.epoch, low units.generation, high units.generation, if units.verified then 1 else 0,
    units.phase.toUInt32, 1, 0, 0]

structure Queue where
  ring : Ring Encoded capacity
  dropped : UInt32 := 0

def Queue.push (q : Queue) (r : Record) : Bool × Queue :=
  if q.ring.count = capacity then (false, { q with dropped := q.dropped + 1 })
  else (true, { q with ring := q.ring.push (encode r) })

/-- The first `n` records, all of them or none. -/
def Queue.pushGroup (q : Queue) (records : List Record) (n : Nat) : Bool × Queue :=
  if n = 0 ∨ n > records.length ∨ q.ring.count > capacity ∨ n > capacity - q.ring.count then
    (false, q)
  else (true, (records.take n).foldl (fun q r => (q.push r).2) q)

def Queue.consume (q : Queue) (n : Nat) : Bool × Queue :=
  if n > q.ring.count then (false, q) else (true, { q with ring := q.ring.drop n })

def Queue.items (q : Queue) : List Encoded := q.ring.items

@[simp] theorem Queue.items_length (q : Queue) : q.items.length = q.ring.count :=
  RingBuffer.items_length q.ring

theorem Queue.push_items {q : Queue} (r : Record) (room : q.ring.count < capacity) :
    (q.push r).1 = true ∧ (q.push r).2.items = q.items ++ [encode r] := by
  rw [Queue.push, if_neg (Nat.ne_of_lt room)]
  exact ⟨rfl, items_push q.ring (encode r) room⟩

theorem Queue.push_full {q : Queue} (r : Record) (full : q.ring.count = capacity) :
    (q.push r).1 = false ∧ (q.push r).2.items = q.items := by
  rw [Queue.push, if_pos full]
  exact ⟨rfl, rfl⟩

theorem Queue.pushAll_items {q : Queue} (records : List Record)
    (room : q.ring.count + records.length ≤ capacity) :
    (records.foldl (fun q r => (q.push r).2) q).items = q.items ++ records.map encode := by
  induction records generalizing q with
  | nil => simp
  | cons r records ih =>
    simp only [List.length_cons] at room
    have pushed := (q.push_items r (by omega)).2
    have count : (q.push r).2.ring.count = q.ring.count + 1 := by
      rw [← Queue.items_length, pushed, List.length_append, Queue.items_length]
      rfl
    rw [List.foldl_cons, ih (by omega), pushed]
    simp

theorem Queue.pushGroup_items (q : Queue) (records : List Record) (n : Nat) :
    ((q.pushGroup records n).1 = false ∧ (q.pushGroup records n).2.items = q.items) ∨
      ((q.pushGroup records n).1 = true ∧ q.ring.count + (records.take n).length ≤ capacity ∧
        (q.pushGroup records n).2.items = q.items ++ (records.take n).map encode) := by
  unfold Queue.pushGroup
  split
  · exact .inl ⟨rfl, rfl⟩
  · rename_i room
    have fits : q.ring.count + (records.take n).length ≤ capacity := by
      rw [List.length_take]
      omega
    exact .inr ⟨rfl, fits, Queue.pushAll_items _ fits⟩

theorem Queue.consume_items {q : Queue} {n : Nat} (h : n ≤ q.ring.count) :
    (q.consume n).1 = true ∧ (q.consume n).2.items = q.items.drop n := by
  rw [Queue.consume, if_neg (by omega)]
  exact ⟨rfl, items_drop q.ring n⟩

/-- The page that `flush` hands to the journal. -/
def compose (bootId : UInt32) (batch : List Encoded) : Page :=
  put (put (blitRows (zero pageSize) headerSize batch) 16 bootId.toNat 4) 20 batch.length 2

def recordsOf (p : Page) : List Encoded :=
  (List.range (get p 20 2)).map fun i => slice p (headerSize + i * recordSize) recordSize recordSize

theorem count_compose (bootId : UInt32) {batch : List Encoded} (room : batch.length ≤ recordsPerPage) :
    get (compose bootId batch) 20 2 = batch.length := by
  apply get_put
  · decide
  · simp only [recordsPerPage] at room
    omega

/-- A page holds the batch it was composed of. -/
theorem recordsOf_compose (bootId : UInt32) (batch : List Encoded)
    (room : batch.length ≤ recordsPerPage) : recordsOf (compose bootId batch) = batch := by
  rw [recordsOf, count_compose bootId room]
  apply List.ext_getElem
  · simp
  · intro k h₁ h₂
    have fits : headerSize + batch.length * recordSize ≤ pageSize := by
      simp only [recordsPerPage, headerSize, recordSize, pageSize] at *
      omega
    have behind : 22 ≤ headerSize + k * recordSize := Nat.le_add_right_of_le (by decide)
    rw [List.getElem_map, List.getElem_range, compose, slice_put_other _ _ _ _ _ _ (.inr behind),
      slice_put_other _ _ _ _ _ _ (.inr (by omega)), slice_blitRows _ _ _ _ h₂ fits]

end Mosaico.Host.SystemLog
