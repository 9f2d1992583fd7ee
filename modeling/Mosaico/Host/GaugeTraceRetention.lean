import Mathlib.Data.List.DropRight
import Mathlib.Data.List.InsertIdx
import Mathlib.Order.Lattice
import Mathlib.Order.Nat
import Mosaico.Host.GaugeTraceModel

/-! Which samples the trace keeps: the first one, the last thirty-two, and the first of each
milestone, whatever was evicted before. -/
namespace Mosaico.Host.GaugeTrace

section Ring

theorem slot_eq {a b : Nat} : slot a = slot b ↔ a % capacity = b % capacity := by
  simp [slot, Fin.ext_iff]

theorem set_get_self (rows : Vector Sample capacity) (k : Fin capacity) (s : Sample) :
    (rows.set k s).get k = s := Vector.getElem_set_self _

theorem set_get_ne (rows : Vector Sample capacity) {k j : Fin capacity} (s : Sample) (h : k ≠ j) :
    (rows.set k s).get j = rows.get j :=
  Vector.getElem_set_ne _ _ fun e => h (Fin.ext e)

/-- The ring is in order. -/
structure Model.Bounded (m : Model) : Prop where
  head : m.head < capacity
  count : m.count ≤ capacity

@[simp] theorem Model.items_length (m : Model) : m.items.length = m.count := by
  simp [Model.items]

theorem Model.items_getElem (m : Model) {i : Nat} (h : i < m.count) :
    m.items[i]? = some (m.at_ i) := by
  simp [Model.items, h]

theorem Model.items_push {m : Model} (h : m.Bounded) (room : m.count < capacity) (s : Sample) :
    (m.push s).items = m.items ++ [s] := by
  have head := h.head
  have last : (m.push s).at_ m.count = s := by
    have here : slot ((m.push s).start + m.count) = slot m.head := by
      rw [slot_eq]
      simp only [Model.push, Model.start, if_pos room, capacity] at *
      omega
    rw [Model.at_, here]
    exact set_get_self m.rows (slot m.head) s
  have old : ∀ i, i < m.count → (m.push s).at_ i = m.at_ i := by
    intro i hi
    have here : slot ((m.push s).start + i) = slot (m.start + i) := by
      rw [slot_eq]
      simp only [Model.push, Model.start, if_pos room, capacity] at *
      omega
    have apart : slot m.head ≠ slot (m.start + i) := by
      rw [Ne, slot_eq]
      simp only [Model.start, capacity] at *
      omega
    rw [Model.at_, here]
    exact set_get_ne m.rows s apart
  have grown : (m.push s).count = m.count + 1 := if_pos room
  rw [Model.items, grown, List.range_succ, List.map_append, List.map_singleton, last]
  congr 1
  apply List.map_congr_left
  intro i hi
  exact old i (List.mem_range.mp hi)

/-- The loop moves the rows behind the victim down by one. -/
theorem moveRow_get (start v : Nat) (rows : Vector Sample capacity) (k : Nat)
    (short : v + k < capacity) {i : Nat} (hi : i < capacity) :
    ((List.range' v k).foldl (moveRow start) rows).get (slot (start + i)) =
      rows.get (slot (start + if v ≤ i ∧ i < v + k then i + 1 else i)) := by
  induction k generalizing i with
  | zero => rw [if_neg (by omega)]; rfl
  | succ k ih =>
    rw [List.range'_concat, List.foldl_append]
    simp only [List.foldl_cons, List.foldl_nil, Nat.one_mul]
    by_cases last : i = v + k
    · have next := ih (by omega) (show v + k + 1 < capacity from short)
      rw [if_neg (by omega)] at next
      rw [last, if_pos (by omega), moveRow, set_get_self]
      exact next
    · have apart : slot (start + (v + k)) ≠ slot (start + i) := by
        rw [Ne, slot_eq]
        simp only [capacity] at *
        omega
      have before := ih (by omega) hi
      rw [moveRow, set_get_ne _ _ apart, before]
      congr 3
      split <;> split <;> omega

/-- The items of a full trace, but for the victim. -/
theorem Model.items_compactOldest {m : Model} (full : m.count = capacity)
    (old : victim m.at_ m.count < m.count) :
    m.compactOldest.items = m.items.eraseIdx (victim m.at_ m.count) := by
  generalize hv : victim m.at_ m.count = v at old
  have fewer : m.compactOldest.count = m.count - 1 := rfl
  apply List.ext_getElem?
  intro i
  by_cases hi : i < m.count - 1
  · have here : m.compactOldest.at_ i = m.at_ (if v ≤ i then i + 1 else i) := by
      have same : slot (m.compactOldest.start + i) = slot (m.start + i) := by
        rw [slot_eq]
        simp only [Model.compactOldest, Model.start, capacity] at *
        omega
      rw [Model.at_, same]
      have moved := moveRow_get m.start v m.rows (m.count - 1 - v) (by omega)
        (show i < capacity by omega)
      simp only [Model.compactOldest, hv]
      rw [moved]
      congr 3
      split <;> split <;> omega
    rw [Model.items_getElem _ (fewer ▸ hi), here, List.getElem?_eraseIdx]
    split
    · rw [if_neg (by omega), Model.items_getElem _ (by omega)]
    · rw [if_pos (by omega), Model.items_getElem _ (by omega)]
  · rw [List.getElem?_eq_none (by rw [Model.items_length, fewer]; omega),
      List.getElem?_eq_none]
    rw [List.length_eraseIdx_of_lt (by rw [Model.items_length]; exact old), Model.items_length]
    omega

end Ring

section Priorities

variable (at_ : Nat → Sample)

def marksAt (k : Nat) : Marks := (List.range k).foldl (fun marks i => marks.step (at_ i)) {}

theorem marksAt_succ (k : Nat) : marksAt at_ (k + 1) = (marksAt at_ k).step (at_ k) := by
  simp [marksAt, List.range_succ]

def rankAt (i : Nat) : Nat := (marksAt at_ i).rank (at_ i)

theorem raise_self (p : Priorities) (i v : Nat) : v ≤ p.raise i v i := by
  rw [Priorities.raise, Function.update_self]
  exact le_max_right ..

theorem le_raise (p : Priorities) (i v j : Nat) : p j ≤ p.raise i v j := by
  unfold Priorities.raise
  by_cases h : j = i
  · rw [h, Function.update_self]
    exact le_max_left ..
  · rw [Function.update_of_ne h]

theorem raise_le {p : Priorities} {i v j bound : Nat} (old : p j ≤ bound)
    (new : j = i → v ≤ bound) : p.raise i v j ≤ bound := by
  unfold Priorities.raise
  by_cases h : j = i
  · rw [h, Function.update_self]
    exact max_le (h ▸ old) (new h)
  · rw [Function.update_of_ne h]
    exact old

/-- What the row adds beyond its own rank. -/
theorem le_context (p : Priorities) (c d : Prop) [Decidable c] [Decidable d] (i j : Nat) :
    let context := if c then p.raise (i - 1) 140 else p
    p j ≤ (if d then (context.raise (i - 1) 180).raise i 180 else context) j := by
  intro context
  have before : p j ≤ context j := by
    dsimp only [context]
    split
    · exact le_raise ..
    · exact le_rfl
  split
  · exact before.trans ((le_raise ..).trans (le_raise ..))
  · exact before

theorem context_le {p : Priorities} {c d : Prop} [Decidable c] [Decidable d] {i j bound : Nat}
    (old : p j ≤ bound) (sides : 180 ≤ bound) :
    let context := if c then p.raise (i - 1) 140 else p
    (if d then (context.raise (i - 1) 180).raise i 180 else context) j ≤ bound := by
  intro context
  have before : context j ≤ bound := by
    dsimp only [context]
    split
    · exact raise_le old fun _ => by omega
    · exact old
  split
  · exact raise_le (raise_le before fun _ => sides) fun _ => sides
  · exact before

theorem le_rankRow (state : Priorities × Marks) (i j : Nat) :
    state.1 j ≤ (rankRow at_ state i).1 j :=
  (le_raise ..).trans (le_context ..)

theorem rank_le_rankRow (state : Priorities × Marks) (i : Nat) :
    state.2.rank (at_ i) ≤ (rankRow at_ state i).1 i :=
  (raise_self ..).trans (le_context ..)

/-- What is not a milestone is worth no more than the side of a boot. -/
theorem rankRow_le {state : Priorities × Marks} {i j bound : Nat} (old : state.1 j ≤ bound)
    (sides : 180 ≤ bound) (rank : j = i → state.2.rank (at_ i) ≤ bound) :
    (rankRow at_ state i).1 j ≤ bound :=
  context_le (raise_le old rank) sides

private theorem ranked_marks (k : Nat) :
    ((List.range k).foldl (rankRow at_) (firstOnly, {})).2 = marksAt at_ k := by
  induction k with
  | zero => rfl
  | succ k ih =>
    rw [List.range_succ, List.foldl_append, marksAt_succ, ← ih]
    rfl

theorem priorities_succ (k : Nat) :
    priorities at_ (k + 1) =
      (rankRow at_ (priorities at_ k, marksAt at_ k) k).1 := by
  rw [priorities, List.range_succ, List.foldl_append, ← ranked_marks]
  rfl

theorem rankAt_le_priorities {k i : Nat} (h : i < k) : rankAt at_ i ≤ priorities at_ k i := by
  induction k with
  | zero => omega
  | succ k ih =>
    rw [priorities_succ]
    by_cases last : i = k
    · rw [last]
      exact rank_le_rankRow at_ (priorities at_ k, marksAt at_ k) k
    · exact (ih (by omega)).trans (le_rankRow at_ (priorities at_ k, marksAt at_ k) k i)

theorem priorities_le (k : Nat) {i : Nat} (h : 0 < i) :
    priorities at_ k i ≤ max (rankAt at_ i) 180 := by
  induction k with
  | zero => simp [priorities, firstOnly, Nat.ne_of_gt h]
  | succ k ih =>
    rw [priorities_succ]
    have row : (priorities at_ k, marksAt at_ k).1 i ≤ max (rankAt at_ i) 180 := ih
    apply rankRow_le at_ row (le_max_right ..)
    intro same
    rw [same]
    exact le_max_left ..

def Marks.size (k : Marks) : Nat :=
  k.edv.toNat + k.zero.toNat + k.vdq.toNat + k.plateau.toNat + k.departed.toNat

theorem Marks.size_le (k : Marks) : k.size ≤ 5 := by
  have edv := k.edv.toNat_le
  have zero := k.zero.toNat_le
  have vdq := k.vdq.toNat_le
  have plateau := k.plateau.toNat_le
  have departed := k.departed.toNat_le
  unfold Marks.size
  omega

/-- A row with a rank shows a milestone that no row before it showed. -/
theorem Marks.size_step (k : Marks) (s : Sample) (ranked : k.rank s ≠ 0) :
    k.size < (k.step s).size := by
  have grows (old new : Bool) : old.toNat ≤ (old || new).toNat ∧
      ((!old && new) = true → old.toNat < (old || new).toNat) := by
    cases old <;> cases new <;> decide
  unfold Marks.rank at ranked
  unfold Marks.step Marks.size
  split at ranked
  · rename_i valid
    rw [if_pos valid]
    have edv := grows k.edv s.edv
    have zero := grows k.zero (s.soc == 0)
    have vdq := grows k.vdq (!s.vdq)
    have plateau := grows k.plateau (s.soc == 96)
    have departed := grows k.departed (k.plateau && s.soc != 96)
    dsimp only at ranked ⊢
    by_contra same
    rw [if_neg (show ¬ (!k.edv && s.edv) = true from fun h => by have := edv.2 h; omega),
      if_neg (show ¬ (!k.zero && s.soc == 0) = true from fun h => by have := zero.2 h; omega),
      if_neg (show ¬ (!k.vdq && !s.vdq) = true from fun h => by have := vdq.2 h; omega),
      if_neg (show ¬ (!k.plateau && s.soc == 96) = true from fun h => by
        have := plateau.2 h; omega)] at ranked
    rw [if_neg] at ranked
    · exact ranked rfl
    · intro h
      have := departed.2 (by simpa [Bool.and_comm, Bool.and_assoc, and_comm, and_left_comm] using h)
      omega
  · exact absurd rfl ranked

/-- Among the older rows there is one without a rank. -/
theorem unranked_exists : ∃ i, 1 ≤ i ∧ i ≤ 32 ∧ rankAt at_ i = 0 := by
  by_contra all
  have grows : ∀ k, k ≤ 32 → k ≤ (marksAt at_ (k + 1)).size := by
    intro k
    induction k with
    | zero => exact fun _ => Nat.zero_le _
    | succ k ih =>
      intro hk
      have seen := ih (by omega)
      have ranked : rankAt at_ (k + 1) ≠ 0 := fun free => all ⟨k + 1, by omega, hk, free⟩
      have more := Marks.size_step (marksAt at_ (k + 1)) (at_ (k + 1)) ranked
      rw [marksAt_succ at_ (k + 1)]
      omega
  have many := grows 32 (le_refl 32)
  have few := (marksAt at_ (32 + 1)).size_le
  omega

theorem better_spec (p : Priorities) (best : Nat × UInt64) (i : Nat) :
    ((better at_ p best i).1 = i ∨ (better at_ p best i).1 = best.1) ∧
      p (better at_ p best i).1 ≤ p best.1 ∧ p (better at_ p best i).1 ≤ p i := by
  unfold better
  dsimp only
  split
  · rename_i wins
    have least : p i ≤ p best.1 := by omega
    exact ⟨.inl rfl, least, le_rfl⟩
  · rename_i loses
    have least : p best.1 ≤ p i := by omega
    exact ⟨.inr rfl, le_rfl, least⟩

/-- The victim is one of the older rows and has the least priority of them. -/
theorem victim_spec (count : Nat) :
    1 ≤ victim at_ count ∧ victim at_ count ≤ 32 ∧
      ∀ i, 1 ≤ i → i ≤ 32 → priorities at_ count (victim at_ count) ≤ priorities at_ count i := by
  unfold victim
  dsimp only [capacity]
  generalize priorities at_ count = p
  have loop : ∀ k, k ≤ 32 →
      let best := (List.range' 1 k).foldl (better at_ p) (1, 0xFFFFFFFFFFFFFFFF)
      1 ≤ best.1 ∧ best.1 ≤ 32 ∧ ∀ i, 1 ≤ i → i ≤ k → p best.1 ≤ p i := by
    intro k
    induction k with
    | zero => exact fun _ => ⟨le_rfl, show 1 ≤ 32 by omega, fun i low high => by omega⟩
    | succ k ih =>
      intro hk
      have before := ih (by omega)
      rw [List.range'_concat, List.foldl_append]
      simp only [List.foldl_cons, List.foldl_nil, Nat.one_mul]
      generalize (List.range' 1 k).foldl (better at_ p) (1, 0xFFFFFFFFFFFFFFFF) = best at *
      obtain ⟨which, old, new⟩ := better_spec at_ p best (1 + k)
      refine ⟨by omega, by omega, fun i low high => ?_⟩
      by_cases last : i = 1 + k
      · rw [last]
        exact new
      · exact old.trans (before.2.2 i low (by omega))
  exact loop 32 (le_refl 32)

/-- No milestone is ever the victim. -/
theorem victim_unranked (full : Nat) (h : 32 < full) : rankAt at_ (victim at_ full) ≤ 180 := by
  obtain ⟨first, last, least⟩ := victim_spec at_ full
  obtain ⟨i, low, high, unranked⟩ := unranked_exists at_
  have cheap := priorities_le at_ full (i := i) low
  rw [unranked] at cheap
  have own := rankAt_le_priorities at_ (show victim at_ full < full by omega)
  have chosen := least i low high
  omega

end Priorities

namespace Sample

def atEdv (s : Sample) : Bool := s.valid && s.edv

def atZero (s : Sample) : Bool := s.valid && s.soc == 0

def atVdq (s : Sample) : Bool := s.valid && !s.vdq

def atPlateau (s : Sample) : Bool := s.valid && s.soc == 96

def offPlateau (s : Sample) : Bool := s.valid && s.soc != 96

end Sample

/-- The first of a sequence of samples that shows something. -/
def First (shows : Sample → Bool) (f : Nat → Sample) (i : Nat) : Prop :=
  shows (f i) = true ∧ ∀ j, j < i → shows (f j) = false

/-- The observations that a trace is read for. -/
inductive Milestone (f : Nat → Sample) (i : Nat) : Prop
  | edv (first : First Sample.atEdv f i)
  | zero (first : First Sample.atZero f i)
  | vdq (first : First Sample.atVdq f i)
  | plateau (first : First Sample.atPlateau f i)
  | departed (p : Nat) (plateau : First Sample.atPlateau f p) (after : p < i)
      (off : (f i).offPlateau = true) (first : ∀ j, p < j → j < i → (f j).offPlateau = false)

section Milestones

variable (f : Nat → Sample)

/-- A mark tells that some row before showed what it stands for. -/
theorem marksAt_iff {mark : Marks → Bool} {shows : Sample → Bool} (unset : mark {} = false)
    (sets : ∀ k s, mark (k.step s) = (mark k || shows s)) (k : Nat) :
    mark (marksAt f k) = true ↔ ∃ j, j < k ∧ shows (f j) = true := by
  induction k with
  | zero => simp [marksAt, unset]
  | succ k ih =>
    rw [marksAt_succ, sets, Bool.or_eq_true, ih]
    constructor
    · intro h
      cases h with
      | inl old =>
        obtain ⟨j, hj, shown⟩ := old
        exact ⟨j, by omega, shown⟩
      | inr new => exact ⟨k, Nat.lt_succ_self k, new⟩
    · intro ⟨j, hj, shown⟩
      by_cases last : j = k
      · exact .inr (last ▸ shown)
      · exact .inl ⟨j, by omega, shown⟩

theorem marks_unset {mark : Marks → Bool} {shows : Sample → Bool} (unset : mark {} = false)
    (sets : ∀ k s, mark (k.step s) = (mark k || shows s)) {i : Nat}
    (before : ∀ j, j < i → shows (f j) = false) : mark (marksAt f i) = false := by
  by_contra set
  obtain ⟨j, hj, shown⟩ :=
    (marksAt_iff f unset sets i).mp (Bool.eq_true_of_not_eq_false set)
  rw [before j hj] at shown
  cases shown

theorem step_edv (k : Marks) (s : Sample) : (k.step s).edv = (k.edv || s.atEdv) := by
  unfold Marks.step Sample.atEdv
  cases s.valid <;> simp

theorem step_zero (k : Marks) (s : Sample) : (k.step s).zero = (k.zero || s.atZero) := by
  unfold Marks.step Sample.atZero
  cases s.valid <;> simp

theorem step_vdq (k : Marks) (s : Sample) : (k.step s).vdq = (k.vdq || s.atVdq) := by
  unfold Marks.step Sample.atVdq
  cases s.valid <;> simp

theorem step_plateau (k : Marks) (s : Sample) :
    (k.step s).plateau = (k.plateau || s.atPlateau) := by
  unfold Marks.step Sample.atPlateau
  cases s.valid <;> simp

theorem step_departed (k : Marks) (s : Sample) :
    (k.step s).departed = (k.departed || (k.plateau && s.offPlateau)) := by
  unfold Marks.step Sample.offPlateau
  cases s.valid <;> simp

/-- The departure was from a plateau. -/
private theorem departed_shown {k : Nat} (h : (marksAt f k).departed = true) :
    ∃ i j, i < j ∧ j < k ∧ (f i).atPlateau = true ∧ (f j).offPlateau = true := by
  induction k with
  | zero => simp [marksAt] at h
  | succ k ih =>
    rw [marksAt_succ, step_departed, Bool.or_eq_true, Bool.and_eq_true] at h
    cases h with
    | inl old =>
      obtain ⟨i, j, hij, hj, shown⟩ := ih old
      exact ⟨i, j, hij, by omega, shown⟩
    | inr new =>
      obtain ⟨i, hi, plateau⟩ := (marksAt_iff f rfl step_plateau k).mp new.1
      exact ⟨i, k, hi, Nat.lt_succ_self k, plateau, new.2⟩

variable {f}

theorem Milestone.ranked {i : Nat} (h : Milestone f i) : 210 ≤ rankAt f i := by
  unfold rankAt Marks.rank
  cases h with
  | edv first =>
    obtain ⟨valid, shown⟩ := Bool.and_eq_true_iff.mp first.1
    have fresh := marks_unset f rfl step_edv first.2
    simp only [valid, shown, fresh, if_true, Bool.not_false, Bool.and_self]
    split_ifs <;> omega
  | zero first =>
    obtain ⟨valid, shown⟩ := Bool.and_eq_true_iff.mp first.1
    have fresh := marks_unset f rfl step_zero first.2
    simp only [valid, shown, fresh, if_true, Bool.not_false, Bool.and_self]
    split_ifs <;> omega
  | vdq first =>
    obtain ⟨valid, shown⟩ := Bool.and_eq_true_iff.mp first.1
    have fresh := marks_unset f rfl step_vdq first.2
    simp only [valid, shown, fresh, if_true, Bool.not_false, Bool.and_self]
    split_ifs <;> omega
  | plateau first =>
    obtain ⟨valid, shown⟩ := Bool.and_eq_true_iff.mp first.1
    have fresh := marks_unset f rfl step_plateau first.2
    simp only [valid, shown, fresh, if_true, Bool.not_false, Bool.and_self]
    split_ifs <;> omega
  | departed p plateau after off first =>
    obtain ⟨valid, shown⟩ := Bool.and_eq_true_iff.mp off
    have reached := (marksAt_iff f rfl step_plateau i).mpr ⟨p, after, plateau.1⟩
    have fresh : (marksAt f i).departed = false := by
      by_contra left
      obtain ⟨a, b, hab, hb, flat, gone⟩ := departed_shown f (Bool.eq_true_of_not_eq_false left)
      have late : p ≤ a := by
        by_contra early
        rw [plateau.2 a (by omega)] at flat
        cases flat
      rw [first b (by omega) hb] at gone
      cases gone
    simp only [valid, shown, reached, fresh, if_true, Bool.not_false, Bool.not_true,
      Bool.false_and, Bool.and_self, Bool.false_eq_true, if_false]
    exact le_max_right ..

end Milestones

section Runs

def sampleAt (samples : List Sample) (i : Nat) : Sample := samples.getD i {}

/-- The trace of these samples, each appended in the session that its boot number names. -/
def appendAll (samples : List Sample) : Model :=
  samples.foldl (fun m s => { m with boot := s.boot }.append s) {}

/-- The stored rows against everything that was appended; `kept` has the places of the former
among the latter, and the last `tail` samples are stored as they came. -/
structure Retained (tail : Nat) (samples items : List Sample) (kept : List Nat) : Prop where
  sorted : kept.Pairwise (· < ·)
  stored : items.map some = kept.map (samples[·]?)
  order : items.Sublist samples
  room : items.length ≤ capacity
  first : samples ≠ [] → 0 ∈ kept
  milestones : ∀ i, Milestone (sampleAt samples) i → i ∈ kept
  last : items.rtake tail = samples.rtake tail

theorem Milestone.valid {f : Nat → Sample} {i : Nat} (h : Milestone f i) : (f i).valid = true := by
  cases h with
  | edv first | zero first | vdq first | plateau first => exact (Bool.and_eq_true_iff.mp first.1).1
  | departed p plateau after off first => exact (Bool.and_eq_true_iff.mp off).1

theorem First.image {shows : Sample → Bool} {f g : Nat → Sample} {i : Nat} {place : Nat → Nat}
    (same : ∀ j, j ≤ i → g j = f (place j)) (mono : ∀ j, j < i → place j < place i)
    (h : First shows f (place i)) : First shows g i := by
  refine ⟨by rw [same i le_rfl]; exact h.1, fun j hj => ?_⟩
  rw [same j (by omega)]
  exact h.2 (place j) (mono j hj)

/-- A milestone whose plateau is there too is one of the rows that are left. -/
theorem Milestone.image {f g : Nat → Sample} {i : Nat} (place : Nat → Nat)
    (same : ∀ j, j ≤ i → g j = f (place j))
    (mono : ∀ j k, j < k → k ≤ i → place j < place k)
    (flat : ∀ p, First Sample.atPlateau f p → p < place i → ∃ q, q < i ∧ place q = p)
    (h : Milestone f (place i)) : Milestone g i := by
  have before := fun j hj => mono j i hj le_rfl
  cases h with
  | edv first => exact .edv (first.image same before)
  | zero first => exact .zero (first.image same before)
  | vdq first => exact .vdq (first.image same before)
  | plateau first => exact .plateau (first.image same before)
  | departed p plateau after off first =>
    obtain ⟨q, hq, hp⟩ := flat p plateau after
    rw [← hp] at plateau first
    refine .departed q ?_ hq (by rw [same i le_rfl]; exact off) fun j low high => ?_
    · exact plateau.image (fun j hj => same j (by omega)) fun j hj => mono j q hj (by omega)
    · rw [same j (by omega)]
      exact first (place j) (mono q j low (by omega)) (before j high)

/-- Whether a sample is a milestone is decided when it is appended. -/
theorem Milestone.congr {f g : Nat → Sample} {i : Nat} (same : ∀ j, j ≤ i → g j = f j)
    (h : Milestone f i) : Milestone g i :=
  h.image id same (fun _ _ hj _ => hj) fun p _ hp => ⟨p, hp, rfl⟩

private theorem rtake_append {a b : List Sample} {n : Nat} (short : n ≤ b.length) :
    (a ++ b).rtake n = b.rtake n := by
  have past : a.drop (a.length + b.length - n) = [] := List.drop_eq_nil_of_le (by omega)
  rw [List.rtake, List.rtake, List.length_append, List.drop_append, past, List.nil_append]
  congr 1
  omega

theorem rtake_eraseIdx {l : List Sample} {v n : Nat} (short : v + n < l.length) :
    (l.eraseIdx v).rtake n = l.rtake n := by
  have tail : n ≤ (l.drop (v + 1)).length := by rw [List.length_drop]; omega
  calc (l.eraseIdx v).rtake n
      = (l.take v ++ l.drop (v + 1)).rtake n := by rw [List.eraseIdx_eq_take_drop_succ]
    _ = (l.take (v + 1) ++ l.drop (v + 1)).rtake n := by
      rw [rtake_append tail, rtake_append tail]
    _ = l.rtake n := by rw [List.take_append_drop]

theorem rtake_of_rtake {a b : List Sample} {n : Nat} (h : a.rtake (n + 1) = b.rtake (n + 1)) :
    a.rtake n = b.rtake n := by
  simp only [List.rtake_eq_reverse_take_reverse, List.reverse_inj] at h ⊢
  have shorter := congrArg (List.take n) h
  simpa [List.take_take] using shorter

variable {samples items : List Sample} {places : List Nat} {tail : Nat}

theorem Retained.lengths (h : Retained tail samples items places) :
    items.length = places.length := by
  simpa using congrArg List.length h.stored

/-- A stored row is the sample of its place. -/
theorem Retained.at_ (h : Retained tail samples items places) {i : Nat} (hi : i < places.length) :
    items[i]? = some (sampleAt samples (places.getD i 0)) ∧ places.getD i 0 < samples.length := by
  have same := congrArg (·[i]?) h.stored
  simp only [List.getElem?_map, List.getElem?_eq_getElem hi,
    List.getElem?_eq_getElem (h.lengths ▸ hi), Option.map_some, Option.some.injEq] at same
  have place : places.getD i 0 = places[i] := by simp [List.getD, hi]
  have inside : places[i] < samples.length := by
    by_contra past
    rw [List.getElem?_eq_none (by omega)] at same
    cases same
  rw [place, List.getElem?_eq_getElem (h.lengths ▸ hi), same]
  exact ⟨by simp [sampleAt, List.getD, inside], inside⟩

theorem Retained.mono (h : Retained tail samples items places) {i j : Nat} (hij : i < j)
    (hj : j < places.length) : places.getD i 0 < places.getD j 0 := by
  have hi : i < places.length := by omega
  have sorted := List.pairwise_iff_getElem.mp h.sorted i j hi hj hij
  simpa [List.getD, hi, hj] using sorted

/-- A place that is kept is a position. -/
theorem position_of_mem {k : Nat} (mem : k ∈ places) :
    ∃ i, i < places.length ∧ places.getD i 0 = k := by
  obtain ⟨i, hi, same⟩ := List.mem_iff_getElem.mp mem
  exact ⟨i, hi, by simp [List.getD, hi, same]⟩

/-- The milestones are still recognised as such among the rows that are left. -/
theorem Retained.milestone (h : Retained tail samples items places) {g : Nat → Sample}
    (rows : ∀ i, i < places.length → items[i]? = some (g i)) {i : Nat} (hi : i < places.length)
    (milestone : Milestone (sampleAt samples) (places.getD i 0)) : Milestone g i := by
  apply milestone.image fun j => places.getD j 0
  · intro j hj
    have row := rows j (by omega)
    rw [(h.at_ (show j < places.length by omega)).1] at row
    exact (Option.some.inj row).symm
  · intro j k hjk hk
    exact h.mono hjk (by omega)
  · intro p plateau before
    obtain ⟨q, hq, same⟩ := position_of_mem (h.milestones p (.plateau plateau))
    refine ⟨q, ?_, same⟩
    by_contra late
    cases Nat.lt_or_eq_of_le (Nat.le_of_not_lt late) with
    | inl later =>
      have := h.mono later hq
      omega
    | inr here =>
      rw [here, same] at before
      omega

/-- An old row without a rank may go. -/
theorem Retained.evict (h : Retained 32 samples items places) {v : Nat}
    (full : items.length = capacity) (old : 1 ≤ v ∧ v ≤ 32)
    (plain : ¬ Milestone (sampleAt samples) (places.getD v 0)) :
    Retained 31 samples (items.eraseIdx v) (places.eraseIdx v) := by
  have count := h.lengths
  have stays : ∀ k, k ∈ places → places.getD v 0 ≠ k → k ∈ places.eraseIdx v := by
    intro k mem other
    obtain ⟨i, hi, same⟩ := position_of_mem mem
    rw [List.mem_eraseIdx_iff_getElem?]
    refine ⟨i, fun e => other (e ▸ same), ?_⟩
    rw [← same]
    simp [List.getD, hi]
  refine ⟨h.sorted.sublist (List.eraseIdx_sublist ..), ?_,
    (List.eraseIdx_sublist items v).trans h.order, ?_, ?_, ?_, ?_⟩
  · rw [← List.eraseIdx_map, h.stored, List.eraseIdx_map]
  · exact (List.eraseIdx_sublist items v).length_le.trans h.room
  · intro some_
    have first := h.first some_
    apply stays 0 first
    have later := h.mono (i := 0) (j := v) (by omega) (by simp only [capacity] at full; omega)
    omega
  · intro i milestone
    apply stays i (h.milestones i milestone)
    intro same
    rw [same] at plain
    exact plain milestone
  · rw [rtake_eraseIdx (by simp only [capacity] at full; omega)]
    exact rtake_of_rtake h.last

theorem Retained.push (h : Retained 31 samples items places) (room : items.length < capacity)
    (s : Sample) :
    Retained 32 (samples ++ [s]) (items ++ [s]) (places ++ [samples.length]) := by
  have inside : ∀ k, k ∈ places → k < samples.length := by
    intro k mem
    obtain ⟨i, hi, same⟩ := position_of_mem mem
    rw [← same]
    exact (h.at_ hi).2
  refine ⟨?_, ?_, h.order.append (List.Sublist.refl [s]), ?_, ?_, ?_, ?_⟩
  · rw [List.pairwise_append]
    refine ⟨h.sorted, List.pairwise_singleton .., fun k mem n hn => ?_⟩
    rw [List.mem_singleton.mp hn]
    exact inside k mem
  · rw [List.map_append, List.map_append, h.stored]
    congr 1
    · apply List.map_congr_left
      intro k mem
      exact (List.getElem?_append_left (inside k mem)).symm
    · simp
  · rw [List.length_append]
    exact room
  · intro _
    by_cases none_ : samples = []
    · simp [none_]
    · exact List.mem_append_left _ (h.first none_)
  · intro i milestone
    by_cases old : i < samples.length
    · apply List.mem_append_left
      apply h.milestones i
      apply milestone.congr
      intro j hj
      simp [sampleAt, List.getD, List.getElem?_append_left (show j < samples.length by omega)]
    · have valid := milestone.valid
      have here : i < samples.length + 1 := by
        by_contra past
        have absent : (samples ++ [s])[i]? = none :=
          List.getElem?_eq_none (by rw [List.length_append, List.length_singleton]; omega)
        rw [sampleAt, List.getD, absent] at valid
        exact absurd valid (by decide)
      apply List.mem_append_right
      rw [List.mem_singleton]
      omega
  · rw [List.rtake_concat_succ, List.rtake_concat_succ, h.last]

theorem Model.items_watchCharge (m : Model) (s : Sample) : (m.watchCharge s).items = m.items := by
  unfold Model.watchCharge
  dsimp only
  split_ifs <;> rfl

theorem Model.bounded_watchCharge {m : Model} (h : m.Bounded) (s : Sample) :
    (m.watchCharge s).Bounded := by
  unfold Model.watchCharge
  dsimp only
  split_ifs <;> exact ⟨h.head, h.count⟩

theorem Model.bounded_push {m : Model} (h : m.Bounded) (s : Sample) : (m.push s).Bounded := by
  refine ⟨Nat.mod_lt _ (by decide), ?_⟩
  have count := h.count
  simp only [Model.push]
  split <;> omega

theorem Model.bounded_compactOldest {m : Model} (h : m.Bounded) : m.compactOldest.Bounded :=
  ⟨Nat.mod_lt _ (by decide), (Nat.sub_le ..).trans h.count⟩

/-- An eviction where the trace is full, then the push. -/
theorem Model.append_spec {m : Model} (h : m.Bounded) (s : Sample) :
    (m.append s).Bounded ∧ (m.append s).items =
      (if m.count = capacity then m.items.eraseIdx (victim m.at_ m.count) else m.items) ++
        [{ s with boot := m.boot }] := by
  have pushed {m' : Model} (h' : m'.Bounded) (room : m'.count < capacity) (row : Sample) :
      ((m'.push row).watchCharge s).Bounded ∧
        ((m'.push row).watchCharge s).items = m'.items ++ [row] :=
    ⟨bounded_watchCharge (bounded_push h' row) s,
      (items_watchCharge ..).trans (items_push h' room row)⟩
  unfold append
  dsimp only
  split
  · rename_i full
    have old := victim_spec m.at_ m.count
    have fewer : m.compactOldest.count < capacity := by
      have count : m.compactOldest.count = m.count - 1 := rfl
      simp only [capacity] at *
      omega
    obtain ⟨bounded, items⟩ := pushed (bounded_compactOldest h) fewer { s with boot := m.boot }
    rw [items_compactOldest full (by simp only [capacity] at *; omega)] at items
    exact ⟨⟨bounded.head, bounded.count⟩, items⟩
  · rename_i room
    obtain ⟨bounded, items⟩ := pushed h (Nat.lt_of_le_of_ne h.count room) { s with boot := m.boot }
    exact ⟨⟨bounded.head, bounded.count⟩, items⟩

theorem Retained.append {m : Model} (bounded : m.Bounded)
    (h : Retained 32 samples m.items places) (s : Sample) :
    ∃ places', Retained 32 (samples ++ [{ s with boot := m.boot }]) (m.append s).items places' := by
  rw [(m.append_spec bounded s).2]
  have count := h.lengths
  rw [Model.items_length] at count
  split
  · rename_i full
    obtain ⟨first, last, -⟩ := victim_spec m.at_ m.count
    have plain : ¬ Milestone (sampleAt samples) (places.getD (victim m.at_ m.count) 0) := by
      intro milestone
      have ranked := (h.milestone (g := m.at_) (fun i hi => Model.items_getElem m (count ▸ hi))
        (by simp only [capacity] at *; omega) milestone).ranked
      have unranked := victim_unranked m.at_ m.count (by simp only [capacity] at *; omega)
      omega
    have left := h.evict (by rw [Model.items_length]; exact full) ⟨first, last⟩ plain
    have room : (m.items.eraseIdx (victim m.at_ m.count)).length < capacity := by
      rw [List.length_eraseIdx_of_lt (by rw [Model.items_length]; simp only [capacity] at *; omega),
        Model.items_length, full]
      decide
    exact ⟨_, left.push room _⟩
  · rename_i room
    have shorter : Retained 31 samples m.items places :=
      { h with last := rtake_of_rtake h.last }
    exact ⟨_, shorter.push (by rw [Model.items_length]; exact Nat.lt_of_le_of_ne bounded.count room) _⟩

theorem appendAll_retained (samples : List Sample) :
    (appendAll samples).Bounded ∧ ∃ places, Retained 32 samples (appendAll samples).items places := by
  induction samples using List.reverseRecOn with
  | nil =>
    refine ⟨⟨by decide, by decide⟩, [], ⟨List.Pairwise.nil, rfl, .slnil, by decide, nofun, ?_, rfl⟩⟩
    intro i milestone
    exact absurd milestone.valid (by simp [sampleAt]; decide)
  | append_singleton samples s ih =>
    obtain ⟨bounded, places, retained⟩ := ih
    have last : appendAll (samples ++ [s]) = { appendAll samples with boot := s.boot }.append s := by
      simp [appendAll]
    have same : Model.Bounded { appendAll samples with boot := s.boot } := ⟨bounded.head, bounded.count⟩
    rw [last]
    exact ⟨(Model.append_spec same s).1, Retained.append same retained s⟩

/-- Whatever is appended, the trace keeps the first sample, the milestones and the last
thirty-two, in their order. -/
theorem trace_retention (samples : List Sample) :
    ∃ places, Retained 32 samples (appendAll samples).items places :=
  (appendAll_retained samples).2

end Runs

end Mosaico.Host.GaugeTrace
