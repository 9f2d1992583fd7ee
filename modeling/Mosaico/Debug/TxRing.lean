import Mosaico.Library.RingBuffer

/-! `TxRing` of `serial_debug_transport.h`: messages go in whole, and a writer that may take any part of what it is
offered takes them out, a contiguous piece at a time. -/
namespace Mosaico.Debug

open RingBuffer

structure TxRing (capacity : Nat) where
  data : Vector UInt8 capacity := Vector.replicate capacity 0
  head : Nat := 0
  used : Nat := 0
  overflow : UInt32 := 0
  stalls : UInt32 := 0

namespace TxRing

variable {capacity : Nat} (t : TxRing capacity)

/-- The loop of `enqueue`, from a place that is not yet wrapped. -/
def store (data : Vector UInt8 capacity) (place : Nat) : List UInt8 → Vector UInt8 capacity
  | [] => data
  | byte :: bytes => store (data.setIfInBounds (place % capacity) byte) (place + 1) bytes

def enqueue (bytes : List UInt8) : TxRing capacity × Bool :=
  if capacity - t.used < bytes.length then ({ t with overflow := t.overflow + 1 }, false)
  else ({ t with data := store t.data (t.head + t.used) bytes, used := t.used + bytes.length }, true)

def contiguous (budget : Nat) : Nat :=
  let count := if t.used < budget then t.used else budget
  if count < capacity - t.head then count else capacity - t.head

def region (length : Nat) : List UInt8 := (t.data.toList.drop t.head).take length

/-- A drain, with the bytes that the writer took. -/
def drain (writer : List UInt8 → Int) (budget : Nat) : TxRing capacity × List UInt8 :=
  let contiguous := t.contiguous budget
  if contiguous = 0 then (t, [])
  else
    let sent := writer (t.region contiguous)
    if sent ≤ 0 then ({ t with stalls := t.stalls + 1 }, [])
    else
      let accepted := if sent.toNat < contiguous then sent.toNat else contiguous
      ({ t with head := (t.head + accepted) % capacity, used := t.used - accepted },
        (t.region contiguous).take accepted)

def pending : List UInt8 := (List.range t.used).map fun i => t.data.toList.getD ((t.head + i) % capacity) 0

structure Inv : Prop where
  used : t.used ≤ capacity
  head : t.head = 0 ∨ t.head < capacity

variable {t}

theorem inv_empty : Inv ({} : TxRing capacity) where
  used := Nat.zero_le capacity
  head := .inl rfl

theorem Inv.head_le (inv : t.Inv) : t.head ≤ capacity := by
  have head := inv.head
  omega

section Wrapped

variable [NeZero capacity]

def ring (t : TxRing capacity) : Ring UInt8 capacity := ⟨t.data, t.head, t.used⟩

theorem pending_eq (t : TxRing capacity) : t.pending = t.ring.items := by
  unfold pending Ring.items
  apply List.map_congr_left
  intro i _
  have inside := Nat.mod_lt (t.head + i) (Nat.pos_of_neZero capacity)
  rw [List.getD_eq_getElem?_getD, List.getElem?_eq_getElem (by simp [inside])]
  simp only [Option.getD_some, Vector.getElem_toList]
  rfl

/-- A message that is stored byte by byte is at the end of the queue. -/
theorem items_store (q : Ring UInt8 capacity) (bytes : List UInt8) (room : q.count + bytes.length ≤ capacity) :
    (RingBuffer.Ring.mk (store q.data (q.head + q.count) bytes) q.head (q.count + bytes.length)).items =
      q.items ++ bytes := by
  induction bytes generalizing q with
  | nil => rw [List.append_nil]; rfl
  | cons byte bytes ih =>
    rw [List.length_cons] at room
    have inside := Nat.mod_lt (q.head + q.count) (Nat.pos_of_neZero capacity)
    have pushed := ih (q.push byte) (by simp only [Ring.push]; omega)
    have slot : q.data.setIfInBounds ((q.head + q.count) % capacity) byte =
        q.data.set ((q.head + q.count) % capacity) byte inside := by
      apply Vector.ext
      intro i hi
      rw [Vector.getElem_setIfInBounds, Vector.getElem_set]
    have stored : store q.data (q.head + q.count) (byte :: bytes) =
        store (q.push byte).data ((q.push byte).head + (q.push byte).count) bytes := by
      rw [store, slot]
      rfl
    have count : q.count + (byte :: bytes).length = (q.push byte).count + bytes.length := by
      simp only [Ring.push, List.length_cons]
      omega
    rw [stored, count]
    calc (RingBuffer.Ring.mk _ (q.push byte).head _).items
        = (q.push byte).items ++ bytes := pushed
      _ = q.items ++ [byte] ++ bytes := by rw [items_push q byte (by omega)]
      _ = q.items ++ byte :: bytes := by simp

theorem region_eq {length : Nat} (short : length ≤ t.used) (inside : t.head + length ≤ capacity) :
    t.region length = t.pending.take length := by
  rw [pending_eq]
  apply List.ext_getElem
  · simp only [region, List.length_take, List.length_drop, Vector.length_toList, items_length]
    change min length (capacity - t.head) = min length t.used
    omega
  · intro i h₁ h₂
    have bound : i < length := by
      simp only [region, List.length_take] at h₁
      omega
    have place : (t.head + i) % capacity = t.head + i := Nat.mod_eq_of_lt (by omega)
    simp only [region, Ring.items, Ring.item, ring, place, List.getElem_take, List.getElem_drop, List.getElem_map,
      List.getElem_range, Vector.getElem_toList]
    rfl

end Wrapped

theorem pending_length (t : TxRing capacity) : t.pending.length = t.used := by
  unfold pending
  rw [List.length_map, List.length_range]

theorem contiguous_le (t : TxRing capacity) (budget : Nat) :
    t.contiguous budget ≤ budget ∧ t.contiguous budget ≤ t.used ∧ t.contiguous budget ≤ capacity - t.head := by
  unfold contiguous
  dsimp only
  split <;> split <;> omega

/-- A message that fits is taken whole, one that does not is not taken at all. -/
theorem enqueue_spec (inv : t.Inv) (bytes : List UInt8) :
    (t.enqueue bytes).1.Inv ∧ ((t.enqueue bytes).2 = true ↔ t.used + bytes.length ≤ capacity) ∧
      (t.enqueue bytes).1.pending = t.pending ++ (if (t.enqueue bytes).2 then bytes else []) := by
  have room := inv.used
  unfold enqueue
  by_cases full : capacity - t.used < bytes.length
  · rw [if_pos full]
    refine ⟨⟨inv.used, inv.head⟩, ?_, ?_⟩
    · constructor
      · intro taken
        cases taken
      · intro fits
        omega
    · exact (List.append_nil _).symm
  · rw [if_neg full]
    refine ⟨⟨?_, inv.head⟩, ?_, ?_⟩
    · change t.used + bytes.length ≤ capacity
      omega
    · constructor
      · intro _
        omega
      · intro _
        rfl
    · obtain empty | pos := Nat.eq_zero_or_pos capacity
      · have none : bytes = [] := List.eq_nil_of_length_eq_zero (by omega)
        subst none
        exact (List.append_nil _).symm
      · have : NeZero capacity := ⟨by omega⟩
        rw [pending_eq, pending_eq]
        exact items_store t.ring bytes (by change t.used + bytes.length ≤ capacity; omega)

theorem contiguous_eq_zero (inv : t.Inv) (budget : Nat) : t.contiguous budget = 0 ↔ budget = 0 ∨ t.pending = [] := by
  have room := inv.used
  have head := inv.head
  rw [← List.length_eq_zero_iff, pending_length]
  unfold contiguous
  dsimp only
  split <;> split <;> omega

private theorem region_offered (inv : t.Inv) (budget : Nat) :
    t.region (t.contiguous budget) = t.pending.take (t.contiguous budget) := by
  obtain ⟨-, short, inside⟩ := t.contiguous_le budget
  have head := inv.head_le
  by_cases nothing : t.contiguous budget = 0
  · rw [nothing]
    simp [region]
  · have wrapped : NeZero capacity := ⟨by omega⟩
    exact region_eq short (by omega)

/-- The writer is handed the region, and its answer says how much of it is taken. -/
theorem drain_taken (inv : t.Inv) (writer : List UInt8 → Int) (budget : Nat) :
    (t.drain writer budget).2 = (t.pending.take (t.contiguous budget)).take
      (writer (t.pending.take (t.contiguous budget))).toNat := by
  have offered := region_offered inv budget
  obtain ⟨-, short, -⟩ := t.contiguous_le budget
  have size : (t.pending.take (t.contiguous budget)).length = t.contiguous budget := by
    rw [List.length_take, pending_length, Nat.min_eq_left short]
  unfold drain
  dsimp only
  rw [offered]
  split
  · rename_i nothing
    rw [nothing, List.take_zero, List.take_nil]
  split
  · rename_i stall
    rw [Int.toNat_of_nonpos stall]
    rfl
  · dsimp only
    generalize t.pending.take (t.contiguous budget) = offer at size ⊢
    split
    · rfl
    · rename_i more
      rw [List.take_of_length_le (Nat.le_of_eq size), List.take_of_length_le (by omega)]

/-- A drain takes from the front what its writer accepts of the region offered. -/
theorem drain_spec (inv : t.Inv) (writer : List UInt8 → Int) (budget : Nat) :
    (t.drain writer budget).1.Inv ∧ (t.drain writer budget).2 ++ (t.drain writer budget).1.pending = t.pending := by
  obtain ⟨-, short, inside⟩ := t.contiguous_le budget
  have room := inv.used
  have head := inv.head_le
  unfold drain
  dsimp only
  by_cases nothing : t.contiguous budget = 0
  · rw [if_pos nothing]
    exact ⟨inv, rfl⟩
  · rw [if_neg nothing]
    by_cases stall : writer (t.region (t.contiguous budget)) ≤ 0
    · rw [if_pos stall]
      exact ⟨⟨inv.used, inv.head⟩, rfl⟩
    · rw [if_neg stall]
      have wrapped : NeZero capacity := ⟨by omega⟩
      generalize accepted : (if (writer (t.region (t.contiguous budget))).toNat < t.contiguous budget then
        (writer (t.region (t.contiguous budget))).toNat else t.contiguous budget) = count
      have bound : count ≤ t.contiguous budget := by
        rw [← accepted]
        split <;> omega
      refine ⟨⟨?_, .inr (Nat.mod_lt _ (Nat.pos_of_neZero capacity))⟩, ?_⟩
      · change t.used - count ≤ capacity
        omega
      · have dropped : (TxRing.mk t.data ((t.head + count) % capacity) (t.used - count) t.overflow t.stalls).pending =
            t.pending.drop count := by
          rw [pending_eq, pending_eq]
          exact items_drop t.ring count
        rw [dropped, region_eq short (by omega), List.take_take, Nat.min_eq_left bound]
        exact List.take_append_drop count t.pending

end TxRing

/-- The calls on a ring. The writer of a drain answers what it likes to the bytes it is offered. -/
inductive TxCall where
  | enqueue (bytes : List UInt8)
  | drain (writer : List UInt8 → Int) (budget : Nat)

/-- A ring with the bytes of the messages it accepted and those that writers took. -/
structure TxChannel (capacity : Nat) where
  ring : TxRing capacity := {}
  accepted : List UInt8 := []
  taken : List UInt8 := []

namespace TxChannel

variable {capacity : Nat}

def step (c : TxChannel capacity) : TxCall → TxChannel capacity
  | .enqueue bytes =>
    let (ring, ok) := c.ring.enqueue bytes
    { c with ring := ring, accepted := c.accepted ++ if ok then bytes else [] }
  | .drain writer budget =>
    let (ring, sent) := c.ring.drain writer budget
    { c with ring := ring, taken := c.taken ++ sent }

def run (c : TxChannel capacity) (calls : List TxCall) : TxChannel capacity := calls.foldl step c

/-- What was taken and what is pending make up what was accepted. -/
structure Lossless (c : TxChannel capacity) : Prop where
  inv : c.ring.Inv
  bytes : c.taken ++ c.ring.pending = c.accepted

theorem lossless_step {c : TxChannel capacity} (h : c.Lossless) (call : TxCall) : (c.step call).Lossless := by
  cases call with
  | enqueue bytes =>
    obtain ⟨inv, -, pending⟩ := TxRing.enqueue_spec h.inv bytes
    constructor
    · exact inv
    · change c.taken ++ (c.ring.enqueue bytes).1.pending = c.accepted ++ _
      rw [pending, ← List.append_assoc, h.bytes]
      rfl
  | drain writer budget =>
    obtain ⟨inv, pending⟩ := TxRing.drain_spec h.inv writer budget
    constructor
    · exact inv
    · change c.taken ++ (c.ring.drain writer budget).2 ++ (c.ring.drain writer budget).1.pending = c.accepted
      rw [List.append_assoc, pending]
      exact h.bytes

theorem lossless_run {c : TxChannel capacity} (h : c.Lossless) (calls : List TxCall) : (c.run calls).Lossless := by
  induction calls generalizing c with
  | nil => exact h
  | cons call calls ih => exact ih (lossless_step h call)

/-- What a drain hands to its writer: the first pending bytes, from one region inside the buffer. -/
structure Offers (ring : TxRing capacity) (budget count : Nat) : Prop where
  small : count ≤ budget
  nothing : count = 0 ↔ budget = 0 ∨ ring.pending = []
  inside : ring.head + count ≤ capacity
  region : ring.region count = ring.pending.take count
  taken : ∀ writer, (ring.drain writer budget).2 =
    (ring.pending.take count).take (writer (ring.pending.take count)).toNat
  rest : ∀ writer, (ring.drain writer budget).2 ++ (ring.drain writer budget).1.pending = ring.pending

private theorem drain_offers {ring : TxRing capacity} (inv : ring.Inv) (budget : Nat) :
    Offers ring budget (ring.contiguous budget) := by
  obtain ⟨small, short, inside⟩ := ring.contiguous_le budget
  have head := inv.head_le
  exact ⟨small, TxRing.contiguous_eq_zero inv budget, by omega, TxRing.region_offered inv budget,
    fun writer => TxRing.drain_taken inv writer budget, fun writer => (TxRing.drain_spec inv writer budget).2⟩

/-- After any calls the bytes taken are the first of those accepted and the others are pending; the next
message is accepted whole or not at all, and the next drain offers the first pending bytes, within its
budget, and takes as many of them as its writer answers. -/
theorem tx_lossless (calls : List TxCall) :
    let c := ({} : TxChannel capacity).run calls
    c.taken ++ c.ring.pending = c.accepted ∧ c.ring.pending.length = c.ring.used ∧
      (∀ bytes, ((c.ring.enqueue bytes).2 = true ↔ c.ring.used + bytes.length ≤ capacity) ∧
        (c.ring.enqueue bytes).1.pending = c.ring.pending ++ if (c.ring.enqueue bytes).2 then bytes else []) ∧
      ∀ budget, ∃ count, Offers c.ring budget count := by
  intro c
  have start : ({} : TxChannel capacity).Lossless := ⟨TxRing.inv_empty, rfl⟩
  have lossless : c.Lossless := lossless_run start calls
  clear_value c
  obtain ⟨inv, bytes⟩ := lossless
  exact ⟨bytes, TxRing.pending_length _, fun message => (TxRing.enqueue_spec inv message).2,
    fun budget => ⟨_, drain_offers inv budget⟩⟩

end TxChannel

end Mosaico.Debug
