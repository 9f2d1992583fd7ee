import Mosaico.Host.QuotaTrendProject
import Mathlib.Data.List.Induction
import Mathlib.Tactic.Ring
import Mathlib.Algebra.Order.Ring.Int

/-! The firmware takes every trend that the host projects, point by point. Each point of a
projection lies in a time bucket of its own; that keeps the points in order. -/
namespace Mosaico.Host.QuotaTrend

open TokenHistory

section Buckets

variable {step a b : Int}

theorem bucket_mono (positive : 0 < step) (h : a ≤ b) : bucket step a ≤ bucket step b :=
  Int.ediv_le_ediv positive (by omega)

theorem lt_of_bucket_lt (positive : 0 < step) (h : bucket step a < bucket step b) : a < b := by
  by_contra later
  have back := bucket_mono positive (Int.not_lt.mp later)
  omega

theorem bucket_sub (positive : 0 < step) (a n : Int) : bucket step (a - n * step) = bucket step a - n := by
  have shift := Int.add_mul_ediv_right (a + offset) (-n) (Int.ne_of_gt positive)
  rw [bucket, show a - n * step + offset = a + offset + -n * step by ring, shift]
  rfl

/-- The start of a bucket. -/
theorem bucket_start (positive : 0 < step) (k : Int) : bucket step (k * step - offset) = k := by
  rw [bucket, Int.sub_add_cancel]
  exact Int.mul_ediv_cancel k (Int.ne_of_gt positive)

theorem bucket_start_le (positive : 0 < step) (h : k ≤ bucket step a) : k * step - offset ≤ a := by
  have floor := Int.ediv_mul_le (a + offset) (Int.ne_of_gt positive)
  have scaled := Int.mul_le_mul_of_nonneg_right h (Int.le_of_lt positive)
  rw [bucket] at scaled
  omega

end Buckets

/-- A point of the bucket with that number, within the span that the projection covers. -/
structure Slot (step start now : Int) (number : Int) (p : ProjectedPoint) : Prop where
  inside : start ≤ p.epoch ∧ p.epoch ≤ now
  bucket : bucket step p.epoch = number
  bp : ∀ v, p.remainingBp = some v → 0 ≤ v ∧ v ≤ 10000
  reset : p.resetBefore = true → p.breakBefore = true

/-- One point for each of the buckets. -/
structure Filled (step start now : Int) (count : Nat) (points : List ProjectedPoint) : Prop where
  length : points.length = count
  slot : ∀ i (h : i < points.length), Slot step start now (bucket step start + i) points[i]

/-- A mark that the loop of rows can make. -/
structure Marked (now : Int) (m : Mark) : Prop where
  past : m.epoch ≤ now
  bp : 0 ≤ m.bp ∧ m.bp ≤ 10000
  reset : m.reset = true → m.broken = true

section Slots

variable {step now : Int} {n : Nat} {points : List ProjectedPoint} {m : Mark}

/-- Where the first of `n + 1` buckets begins. -/
theorem first_bucket (positive : 0 < step) (now : Int) (n : Nat) :
    bucket step now * step - offset - n * step = bucket step (now - n * step) * step - offset := by
  rw [bucket_sub positive]
  ring

theorem initial_filled (positive : 0 < step) (now : Int) (n : Nat) :
    Filled step (now - n * step) now (n + 1) ((List.range (n + 1)).map fun (i : Nat) =>
      { epoch := max (now - n * step) (bucket step now * step - offset - n * step + i * step) }) := by
  refine ⟨by rw [List.length_map, List.length_range], fun i h => ?_⟩
  rw [List.length_map, List.length_range] at h
  rw [List.getElem_map, List.getElem_range, first_bucket positive]
  generalize hs : now - n * step = start
  have last : bucket step start + n = bucket step now := by
    rw [← hs, bucket_sub positive]
    omega
  have here : bucket step start * step - offset + i * step =
      (bucket step start + i) * step - offset := by ring
  have number := bucket_start positive (bucket step start + i)
  rw [here]
  have past : (bucket step start + i) * step - offset ≤ now :=
    bucket_start_le positive (by omega)
  have whole : start ≤ now := by
    rw [← hs]
    have span := Int.mul_nonneg (Int.natCast_nonneg n) (Int.le_of_lt positive)
    omega
  refine ⟨⟨Int.le_max_left _ _, Int.max_le.mpr ⟨whole, past⟩⟩, ?_, nofun, nofun⟩
  cases i with
  | zero =>
    have early : (bucket step start + (0 : Nat)) * step - offset ≤ start :=
      bucket_start_le positive (by omega)
    dsimp only
    rw [Int.max_eq_left early]
    omega
  | succ i =>
    have late : start < (bucket step start + (i + 1 : Nat)) * step - offset :=
      lt_of_bucket_lt positive (by rw [number]; omega)
    dsimp only
    rw [Int.max_eq_right (Int.le_of_lt late), number]

theorem Slot.update {start number : Int} {p : ProjectedPoint} (h : Slot step start now number p)
    (marked : Marked now m) (inside : start ≤ m.epoch) (here : QuotaTrend.bucket step m.epoch = number) :
    Slot step start now number (p.update m) where
  inside := ⟨inside, marked.past⟩
  bucket := here
  bp := by
    intro v same
    rw [← Option.some.inj same]
    exact marked.bp
  reset := by
    intro reset
    have either := Bool.or_eq_true_iff.mp reset
    apply Bool.or_eq_true_iff.mpr
    cases either with
    | inl before => exact .inl (h.reset before)
    | inr new => exact .inr (marked.reset new)

/-- The number of a mark's bucket among the buckets of the span. -/
private theorem bucket_index (positive : 0 < step) {epoch : Int} (from_ : now - n * step ≤ epoch)
    (past : epoch ≤ now) :
    ∃ i : Nat, i < n + 1 ∧ bucket step epoch = bucket step (now - n * step) + i := by
  have low := bucket_mono positive from_
  have high := bucket_mono positive past
  have whole := bucket_sub positive now n
  refine ⟨(bucket step epoch - bucket step (now - n * step)).toNat, ?_, ?_⟩ <;> omega

/-- What a mark does: nothing outside the span, and an update of its own bucket inside. -/
theorem place_spec (positive : 0 < step) (past : m.epoch ≤ now) (points : List ProjectedPoint) :
    (m.epoch < now - n * step ∧ place (now - n * step) now
        (bucket step now * step - offset - n * step) step (n + 1) points m = points) ∨
      ∃ i : Nat, i < n + 1 ∧ now - n * step ≤ m.epoch ∧
        bucket step m.epoch = bucket step (now - n * step) + i ∧
        place (now - n * step) now (bucket step now * step - offset - n * step) step (n + 1) points m =
          points.modify i (·.update m) := by
  by_cases from_ : now - n * step ≤ m.epoch
  · obtain ⟨i, inside, number⟩ := bucket_index positive from_ past
    refine .inr ⟨i, inside, from_, number, ?_⟩
    have first : bucket step (bucket step now * step - offset - n * step) =
        bucket step (now - n * step) := by
      rw [first_bucket positive, bucket_start positive]
    have index : bucket step m.epoch - bucket step (bucket step now * step - offset - n * step) = i := by
      rw [first, number]
      omega
    rw [place, if_pos ⟨from_, past⟩, index]
    exact if_pos ⟨Int.natCast_nonneg i, by omega⟩
  · exact .inl ⟨Int.not_le.mp from_, if_neg fun both => from_ both.1⟩

theorem Filled.modify {start : Int} {count i : Nat} (h : Filled step start now count points)
    (marked : Marked now m) (inside : start ≤ m.epoch) (here : bucket step m.epoch = bucket step start + i) :
    Filled step start now count (points.modify i (·.update m)) := by
  refine ⟨by rw [List.length_modify]; exact h.length, fun j hj => ?_⟩
  rw [List.length_modify] at hj
  have slot := h.slot j hj
  rw [List.getElem_modify]
  split
  · rename_i same
    exact slot.update marked inside (by rw [here, same])
  · exact slot

def FromMarks (marks : List Mark) (points : List ProjectedPoint) : Prop :=
  ∀ p ∈ points, p.remainingBp.isSome → ∃ m ∈ marks, m.epoch = p.epoch

private theorem mem_modify {p : ProjectedPoint} {i : Nat} {f : ProjectedPoint → ProjectedPoint}
    (h : p ∈ points.modify i f) : p ∈ points ∨ ∃ old ∈ points, p = f old := by
  obtain ⟨j, hj, same⟩ := List.getElem_of_mem h
  rw [List.length_modify] at hj
  rw [List.getElem_modify] at same
  split at same
  · exact .inr ⟨points[j], List.getElem_mem hj, same.symm⟩
  · exact .inl (same ▸ List.getElem_mem hj)

/-- The points after some marks. -/
structure Placed (step now : Int) (n : Nat) (marks : List Mark) (points : List ProjectedPoint) : Prop where
  filled : Filled step (now - n * step) now (n + 1) points
  origin : FromMarks marks points
  last : ∀ m, marks.getLast? = some m → now - n * step ≤ m.epoch →
    ∃ p ∈ points, p.remainingBp.isSome = true ∧ p.epoch = m.epoch

theorem slots_placed (positive : 0 < step) (marks : List Mark) (marked : ∀ m ∈ marks, Marked now m) :
    Placed step now n marks (slots marks now (n * step) step (n + 1)) := by
  induction marks using List.reverseRecOn with
  | nil =>
    refine ⟨?_, ?_, nofun⟩
    · have initial := initial_filled positive now n
      simpa only [slots, List.foldl_nil, Nat.cast_add, Nat.cast_one, add_sub_cancel_right] using initial
    · intro p mem valid
      obtain ⟨i, -, same⟩ := List.mem_map.mp mem
      rw [← same] at valid
      cases valid
  | append_singleton marks m ih =>
    have before := ih fun old mem => marked old (List.mem_append_left _ mem)
    have new := marked m (List.mem_append_right _ List.mem_cons_self)
    have step_ : slots (marks ++ [m]) now (n * step) step (n + 1) =
        place (now - n * step) now (bucket step now * step - offset - n * step) step (n + 1)
          (slots marks now (n * step) step (n + 1)) m := by
      simp only [slots, List.foldl_append, List.foldl_cons, List.foldl_nil, Nat.cast_add, Nat.cast_one,
        add_sub_cancel_right]
    rw [step_]
    generalize slots marks now (n * step) step (n + 1) = points at before ⊢
    have kept {p : ProjectedPoint} (mem : p ∈ points) (valid : p.remainingBp.isSome) :
        ∃ m' ∈ marks ++ [m], m'.epoch = p.epoch := by
      obtain ⟨m', inside, same⟩ := before.origin p mem valid
      exact ⟨m', List.mem_append_left _ inside, same⟩
    have isLast : (marks ++ [m]).getLast? = some m := by simp
    cases place_spec (n := n) positive new.past points with
    | inl outside =>
      rw [outside.2]
      refine ⟨before.filled, fun p mem valid => kept mem valid, fun m' newest from_ => ?_⟩
      rw [isLast] at newest
      rw [← Option.some.inj newest] at from_
      have early := outside.1
      omega
    | inr inside =>
      obtain ⟨i, hi, from_, number, placed⟩ := inside
      rw [placed]
      refine ⟨before.filled.modify new from_ number, fun p mem valid => ?_, fun m' newest _ => ?_⟩
      · cases mem_modify mem with
        | inl old => exact kept old valid
        | inr updated =>
          obtain ⟨old, -, same⟩ := updated
          exact ⟨m, List.mem_append_right _ List.mem_cons_self, by rw [same]; rfl⟩
      · rw [isLast] at newest
        have length : i < (points.modify i (·.update m)).length := by
          rw [List.length_modify, before.filled.length]
          exact hi
        refine ⟨_, List.getElem_mem length, ?_⟩
        rw [List.getElem_modify, if_pos rfl, ← Option.some.inj newest]
        exact ⟨rfl, rfl⟩

end Slots

section Marks

variable {target : String} {rows : List Row}

/-- The marks of rows that are all of the target. -/
theorem mark_spec (all : ∀ row ∈ rows, row.ident = target) :
    (mark target rows).map (·.epoch) = rows.map (·.epoch) ∧
      ∀ m ∈ mark target rows, (m.reset = true → m.broken = true) ∧
        ∃ row ∈ rows, m.epoch = row.epoch ∧ m.bp = row.bp := by
  induction rows using List.reverseRecOn with
  | nil => exact ⟨rfl, nofun⟩
  | append_singleton rows row ih =>
    obtain ⟨epochs, each⟩ := ih fun old mem => all old (List.mem_append_left _ mem)
    have ident := all row (List.mem_append_right _ List.mem_cons_self)
    have grown : ∃ m : Mark, mark target (rows ++ [row]) = mark target rows ++ [m] ∧
        m.epoch = row.epoch ∧ m.bp = row.bp ∧ (m.reset = true → m.broken = true) := by
      simp only [mark, List.foldl_append, List.foldl_cons, List.foldl_nil, markRow, if_pos ident]
      refine ⟨_, rfl, rfl, rfl, fun reset => ?_⟩
      exact Bool.or_eq_true_iff.mpr (.inr reset)
    obtain ⟨m, grown, epoch, bp, reset⟩ := grown
    rw [grown]
    refine ⟨by rw [List.map_append, List.map_append, epochs]; simp [epoch], fun m' mem => ?_⟩
    cases List.mem_append.mp mem with
    | inl old =>
      obtain ⟨order, row', inside, same⟩ := each m' old
      exact ⟨order, row', List.mem_append_left _ inside, same⟩
    | inr new =>
      rw [List.mem_singleton.mp new]
      exact ⟨reset, row, List.mem_append_right _ List.mem_cons_self, epoch, bp⟩

end Marks

section Documents

variable {start now step : Int} {points : List ProjectedPoint} {p : ProjectedPoint}

theorem integer_of_item {root : Option Json} {name : String} {low high v : Int}
    (h : item root name = some (.number (some v))) (inside : low ≤ v ∧ v ≤ high) :
    integer root name low high = some v := by
  rw [integer, h]
  exact if_pos inside

theorem Slot.accepted {number : Int} (h : Slot step start now number p) :
    trendPoint start now p.document = some p.stored := by
  have epoch : integer (some p.document) "epoch" start now = some p.epoch :=
    integer_of_item rfl h.inside
  have bp : remaining (some p.document) = some p.remainingBp := by
    cases held : p.remainingBp with
    | none =>
      have null : item (some p.document) "remaining_bp" = some .null := by
        rw [ProjectedPoint.document, held]
        rfl
      rw [remaining, null]
    | some v =>
      have number : item (some p.document) "remaining_bp" = some (.number (some v)) := by
        rw [ProjectedPoint.document, held]
        rfl
      rw [remaining, number]
      exact congrArg (Option.map some) (integer_of_item number (h.bp v held))
  have breakBefore : boolean (some p.document) "break_before" = some p.breakBefore := rfl
  have resetBefore : boolean (some p.document) "reset_before" = some p.resetBefore := rfl
  have order : (p.resetBefore && !p.breakBefore) = false := by
    cases reset : p.resetBefore with
    | false => rfl
    | true => simp [h.reset reset]
  simp only [trendPoint, epoch, breakBefore, resetBefore, bp, order, Option.bind_eq_bind, Option.bind_some]
  rfl

/-- Points in order are taken one after the other. -/
theorem pointsAfter_accepted {previous : Option Nat}
    (each : ∀ p ∈ points, trendPoint start now p.document = some p.stored)
    (sorted : points.Pairwise fun p q => p.epoch.toNat < q.epoch.toNat)
    (after : ∀ epoch, previous = some epoch → ∀ p ∈ points, epoch < p.epoch.toNat) :
    pointsAfter start now previous (points.map ProjectedPoint.document) =
      some (points.map ProjectedPoint.stored) := by
  induction points generalizing previous with
  | nil => rfl
  | cons p points ih =>
    have rest : pointsAfter start now (some p.stored.epoch) (points.map ProjectedPoint.document) =
        some (points.map ProjectedPoint.stored) := by
      apply ih (fun q mem => each q (List.mem_cons_of_mem _ mem)) sorted.of_cons
      intro epoch same q mem
      rw [← Option.some.inj same]
      exact (List.pairwise_cons.mp sorted).1 q mem
    have later : (previous.any fun epoch => decide (p.stored.epoch ≤ epoch)) = false := by
      cases previous with
      | none => rfl
      | some epoch =>
        have less := after epoch rfl p List.mem_cons_self
        exact decide_eq_false (Nat.not_le.mpr less)
    rw [List.map_cons, List.map_cons, pointsAfter, each p List.mem_cons_self]
    simp only [Option.bind_eq_bind, Option.bind_some, later, rest]
    rfl

theorem Filled.accepted {count : Nat} (positive : 0 < step) (begun : 0 ≤ start)
    (h : Filled step start now count points) :
    pointsAfter start now none (points.map ProjectedPoint.document) =
      some (points.map ProjectedPoint.stored) := by
  apply pointsAfter_accepted
  · intro p mem
    obtain ⟨i, hi, rfl⟩ := List.getElem_of_mem mem
    exact (h.slot i hi).accepted
  · rw [List.pairwise_iff_getElem]
    intro i j hi hj less
    have before := h.slot i hi
    have after := h.slot j hj
    have order := lt_of_bucket_lt positive (a := points[i].epoch) (b := points[j].epoch)
      (by rw [before.bucket, after.bucket]; omega)
    have first := before.inside.1
    omega
  · exact nofun

private theorem latest_concat (points : List Point) (p : Point) :
    latest (points ++ [p]) = if p.valid then max (latest points) p.epoch else latest points := by
  simp only [latest, List.foldl_append, List.foldl_cons, List.foldl_nil]

theorem latest_spec (points : List Point) :
    (∀ p ∈ points, p.valid = true → p.epoch ≤ latest points) ∧
      (latest points = 0 ∨ ∃ p ∈ points, p.valid = true ∧ p.epoch = latest points) := by
  induction points using List.reverseRecOn with
  | nil => exact ⟨nofun, .inl rfl⟩
  | append_singleton points p ih =>
    obtain ⟨bound, attained⟩ := ih
    rw [latest_concat]
    cases valid : p.valid with
    | false =>
      rw [if_neg Bool.false_ne_true]
      refine ⟨fun q mem ok => ?_, attained.imp id fun ⟨q, mem, rest⟩ => ⟨q, List.mem_append_left _ mem, rest⟩⟩
      cases List.mem_append.mp mem with
      | inl old => exact bound q old ok
      | inr new =>
        rw [List.mem_singleton.mp new, valid] at ok
        cases ok
    | true =>
      rw [if_pos rfl]
      constructor
      · intro q mem ok
        cases List.mem_append.mp mem with
        | inl old => exact (bound q old ok).trans (Nat.le_max_left _ _)
        | inr new =>
          rw [List.mem_singleton.mp new]
          exact Nat.le_max_right _ _
      · by_cases newer : latest points ≤ p.epoch
        · rw [Nat.max_eq_right newer]
          exact .inr ⟨p, List.mem_append_right _ List.mem_cons_self, valid, rfl⟩
        · rw [Nat.max_eq_left (by omega)]
          exact attained.imp id fun ⟨q, mem, rest⟩ => ⟨q, List.mem_append_left _ mem, rest⟩

end Documents

section Projections

variable {now : Int} {marks : List Mark} {hours days : List ProjectedPoint}

/-- The latest value of all points is the newest mark, where the week still covers it. -/
theorem latest_placed (H : Placed 3600 now 24 marks hours) (D : Placed 86400 now 7 marks days)
    (top : ∀ last, marks.getLast? = some last → ∀ m ∈ marks, m.epoch ≤ last.epoch) :
    ((days.any fun p => p.remainingBp.isSome) = true →
      ∃ last, marks.getLast? = some last ∧ now - 604800 ≤ last.epoch ∧
        latest ((hours ++ days).map ProjectedPoint.stored) = last.epoch.toNat) ∧
    ((days.any fun p => p.remainingBp.isSome) = false →
      latest ((hours ++ days).map ProjectedPoint.stored) = 0 ∧
        ∀ last, marks.getLast? = some last → last.epoch < now - 604800) := by
  have dayStart : now - ((7 : Nat) : Int) * 86400 = now - 604800 := rfl
  have hourStart : now - ((24 : Nat) : Int) * 3600 = now - 86400 := rfl
  have daysFrom := D.filled
  have hoursFrom := H.filled
  rw [dayStart] at daysFrom
  rw [hourStart] at hoursFrom
  have marked {p : ProjectedPoint} (mem : p ∈ hours ++ days) (valid : p.remainingBp.isSome = true) :
      ∃ last, marks.getLast? = some last ∧ p.epoch ≤ last.epoch ∧ now - 604800 ≤ p.epoch := by
    have origin : ∃ m ∈ marks, m.epoch = p.epoch := by
      cases List.mem_append.mp mem with
      | inl hour => exact H.origin p hour valid
      | inr day => exact D.origin p day valid
    have from_ : now - 604800 ≤ p.epoch := by
      cases List.mem_append.mp mem with
      | inl hour =>
        obtain ⟨i, hi, rfl⟩ := List.getElem_of_mem hour
        have inside := (hoursFrom.slot i hi).inside.1
        omega
      | inr day =>
        obtain ⟨i, hi, rfl⟩ := List.getElem_of_mem day
        exact (daysFrom.slot i hi).inside.1
    obtain ⟨m, inside, same⟩ := origin
    cases newest : marks.getLast? with
    | none =>
      rw [List.getLast?_eq_none_iff.mp newest] at inside
      cases inside
    | some last => exact ⟨last, rfl, by rw [← same]; exact top last newest m inside, from_⟩
  obtain ⟨bound, attained⟩ := latest_spec ((hours ++ days).map ProjectedPoint.stored)
  constructor
  · intro available
    obtain ⟨p, day, valid⟩ := List.any_eq_true.mp available
    obtain ⟨last, isLast, less, from_⟩ := marked (List.mem_append_right _ day) valid
    refine ⟨last, isLast, from_.trans less, ?_⟩
    obtain ⟨q, inDays, shown, same⟩ := D.last last isLast (by rw [dayStart]; exact from_.trans less)
    have low := bound q.stored (List.mem_map_of_mem (List.mem_append_right _ inDays)) shown
    rw [show q.stored.epoch = last.epoch.toNat from congrArg Int.toNat same] at low
    apply Nat.le_antisymm _ low
    cases attained with
    | inl none_ =>
      rw [none_]
      exact Nat.zero_le _
    | inr found =>
      obtain ⟨_, mem, shown, same⟩ := found
      obtain ⟨r, inside, rfl⟩ := List.mem_map.mp mem
      obtain ⟨last', isLast', less, -⟩ := marked inside shown
      rw [isLast] at isLast'
      rw [← same, Option.some.inj isLast']
      exact Int.toNat_le_toNat less
  · intro unavailable
    have none_ {q : ProjectedPoint} (day : q ∈ days) : q.remainingBp.isSome = false := by
      have all := List.any_eq_false.mp unavailable q day
      simpa using all
    have before : ∀ last, marks.getLast? = some last → last.epoch < now - 604800 := by
      intro last isLast
      by_contra inside
      obtain ⟨q, day, shown, -⟩ := D.last last isLast (by rw [dayStart]; omega)
      rw [none_ day] at shown
      cases shown
    refine ⟨?_, before⟩
    cases attained with
    | inl zero => exact zero
    | inr found =>
      obtain ⟨_, mem, shown, -⟩ := found
      obtain ⟨r, inside, rfl⟩ := List.mem_map.mp mem
      obtain ⟨last, isLast, less, from_⟩ := marked inside shown
      have early := before last isLast
      omega

/-- A row that the recording of the quota can leave. -/
structure CodexRow (row : Row) : Prop where
  epoch : 0 < row.epoch
  ident : row.ident = "codex"
  bp : 0 ≤ row.bp ∧ row.bp ≤ 10000

/-- What the trend's checks ask of a projection. -/
structure Sound (now : Int) (p : Projection) : Prop where
  hours : Filled 3600 (now - 86400) now 25 p.hours
  days : Filled 86400 (now - 604800) now 8 p.days
  captured : 0 ≤ p.capturedEpoch ∧ p.capturedEpoch ≤ now
  codex : p.capturedEpoch ≠ 0 → p.limitId = "codex"
  empty : p.capturedEpoch = 0 → p.limitId = "" ∧ p.ageSeconds = 0
  available : p.available = true → p.capturedEpoch ≠ 0 ∧
    (latest ((p.hours ++ p.days).map ProjectedPoint.stored) : Int) = p.capturedEpoch
  unavailable : p.available = false → p.capturedEpoch < now - 604800 ∧
    latest ((p.hours ++ p.days).map ProjectedPoint.stored) = 0
  frame : p.start24hEpoch = now - 86400 ∧ p.start7dEpoch = now - 604800 ∧ p.endEpoch = now

private theorem entries_document {p : Projection} {points : List ProjectedPoint} {name : String} {count : Nat}
    {start : Int} (h : item (some p.document) name = some (.array (points.map ProjectedPoint.document)))
    (length : points.length = count)
    (accepted : pointsAfter start now none (points.map ProjectedPoint.document) =
      some (points.map ProjectedPoint.stored)) :
    trendPoints (some p.document) name count start now = some (points.map ProjectedPoint.stored) := by
  have found : entries (some p.document) name count = some (points.map ProjectedPoint.document) := by
    rw [entries, h]
    exact if_pos (by rw [List.length_map, length])
  rw [trendPoints, found]
  exact accepted

theorem Sound.accepted {p : Projection} (h : Sound now p) (range : 604801 ≤ now ∧ now ≤ maxEpoch)
    (age : 0 ≤ p.ageSeconds ∧ p.ageSeconds ≤ maxEpoch) :
    ∃ t, trend p.document = some t ∧ t.hours = p.hours.map ProjectedPoint.stored ∧
      t.days = p.days.map ProjectedPoint.stored := by
  obtain ⟨start24, start7, end_⟩ := h.frame
  have captured : integer (some p.document) "captured_epoch" 0 maxEpoch = some p.capturedEpoch :=
    integer_of_item rfl ⟨h.captured.1, h.captured.2.trans range.2⟩
  have ageSeconds : integer (some p.document) "age_seconds" 0 maxEpoch = some p.ageSeconds :=
    integer_of_item rfl age
  have from24 : integer (some p.document) "start_24h_epoch" 1 maxEpoch = some (now - 86400) :=
    integer_of_item (by rw [← start24]; rfl) (by omega)
  have from7 : integer (some p.document) "start_7d_epoch" 1 maxEpoch = some (now - 604800) :=
    integer_of_item (by rw [← start7]; rfl) (by omega)
  have ends : integer (some p.document) "end_epoch" 1 maxEpoch = some now :=
    integer_of_item (by rw [← end_]; rfl) (by omega)
  have version : integer (some p.document) "version" 1 1 = some 1 := rfl
  have duration : integer (some p.document) "duration_minutes" 10080 10080 = some 10080 := rfl
  have zone : integer (some p.document) "timezone_offset_minutes" 480 480 = some 480 := rfl
  have available : boolean (some p.document) "available" = some p.available := rfl
  have limitId : text (some p.document) "limit_id" = some p.limitId := rfl
  have hours : trendPoints (some p.document) "hours" 25 (now - 86400) now =
      some (p.hours.map ProjectedPoint.stored) :=
    entries_document rfl h.hours.length (h.hours.accepted (by omega) (by omega))
  have days : trendPoints (some p.document) "days" 8 (now - 604800) now =
      some (p.days.map ProjectedPoint.stored) :=
    entries_document rfl h.days.length (h.days.accepted (by omega) (by omega))
  have named : p.limitId = "codex" ∨ p.limitId = "" := by
    by_cases none_ : p.capturedEpoch = 0
    · exact .inr (h.empty none_).1
    · exact .inl (h.codex none_)
  have short : ¬ p.limitId.utf8ByteSize ≥ 64 := by
    cases named with
    | inl codex => rw [codex]; decide
    | inr empty => rw [empty]; decide
  have plain : printable p.limitId = true := by
    cases named with
    | inl codex => rw [codex]; decide
    | inr empty => rw [empty]; decide
  simp only [trend, version, captured, ageSeconds, from24, from7, ends, duration, zone, available, limitId,
    hours, days, short, plain, Option.bind_eq_bind, Option.bind_some, ← List.map_append]
  have past := h.captured.2
  have known : ¬ (p.available = true ∧
      (p.capturedEpoch = 0 ∨ p.capturedEpoch > now ∨ p.limitId ≠ "codex")) := by
    rintro ⟨shown, none_ | late | other⟩
    · exact (h.available shown).1 none_
    · omega
    · exact other (h.codex (h.available shown).1)
  have honest : ¬ (p.capturedEpoch > now ∨ (p.capturedEpoch ≠ 0 ∧ p.limitId ≠ "codex") ∨
      (p.capturedEpoch = 0 ∧ (p.limitId ≠ "" ∨ p.ageSeconds ≠ 0)) ∨
      (p.available = false ∧ p.capturedEpoch ≠ 0 ∧ p.capturedEpoch ≥ now - 604800)) := by
    rintro (late | ⟨some_, other⟩ | ⟨none_, named | aged⟩ | ⟨hidden, -, inside⟩)
    · omega
    · exact other (h.codex some_)
    · exact named (h.empty none_).1
    · exact aged (h.empty none_).2
    · have before := (h.unavailable hidden).1
      omega
  have newest : ¬ (p.available ≠
        decide (latest ((p.hours ++ p.days).map ProjectedPoint.stored) ≠ 0) ∨
      (latest ((p.hours ++ p.days).map ProjectedPoint.stored) ≠ 0 ∧
        (latest ((p.hours ++ p.days).map ProjectedPoint.stored) : Int) ≠ p.capturedEpoch)) := by
    have shown := h.available
    have hidden := h.unavailable
    generalize latest ((p.hours ++ p.days).map ProjectedPoint.stored) = time at shown hidden ⊢
    cases some_ : p.available with
    | true =>
      have positive : time ≠ 0 := by
        have same := shown some_
        omega
      simp [positive, (shown some_).2]
    | false => simp [(hidden some_).2]
  rw [if_neg id, if_neg (by omega), if_neg (by simp), if_neg known, if_neg honest, if_neg newest]
  exact ⟨_, rfl, rfl, rfl⟩

section Rows

variable {rows : List Row} {age : Int}

/-- The target of codex rows, and what its marks are. -/
theorem mark_codex {chosen : List Row} (each : ∀ row ∈ chosen, CodexRow row ∧ row.epoch ≤ now)
    (order : chosen.Pairwise fun a b => a.epoch < b.epoch) {target : String}
    (isTarget : target = (chosen.getLast?.map (·.ident)).getD "") :
    (∀ m ∈ mark target chosen, Marked now m) ∧
      (mark target chosen).getLast?.map (·.epoch) = chosen.getLast?.map (·.epoch) ∧
      (∀ last, (mark target chosen).getLast? = some last →
        ∀ m ∈ mark target chosen, m.epoch ≤ last.epoch) ∧
      ∀ newest, chosen.getLast? = some newest → target = "codex" := by
  have named : ∀ newest, chosen.getLast? = some newest → target = "codex" := by
    intro newest last
    rw [isTarget, last]
    exact (each newest (List.mem_of_getLast? last)).1.ident
  have all : ∀ row ∈ chosen, row.ident = target := by
    intro row mem
    cases last : chosen.getLast? with
    | none =>
      rw [List.getLast?_eq_none_iff.mp last] at mem
      cases mem
    | some newest => rw [named newest last, (each row mem).1.ident]
  obtain ⟨epochs, marks⟩ := mark_spec all
  refine ⟨fun m mem => ?_, ?_, fun last isLast m mem => ?_, named⟩
  · obtain ⟨reset, row, inside, epoch, bp⟩ := marks m mem
    have codex := (each row inside).1
    exact ⟨by rw [epoch]; exact (each row inside).2, by rw [bp]; exact codex.bp, reset⟩
  · rw [← List.getLast?_map, epochs, List.getLast?_map]
  · obtain ⟨front, same⟩ := List.getLast?_eq_some_iff.mp isLast
    have increasing : (mark target chosen).Pairwise fun a b => a.epoch < b.epoch := by
      have mapped : (chosen.map (·.epoch)).Pairwise (· < ·) := List.pairwise_map.mpr order
      rw [← epochs] at mapped
      exact List.pairwise_map.mp mapped
    rw [same] at increasing mem
    cases List.mem_append.mp mem with
    | inl before =>
      exact Int.le_of_lt ((List.pairwise_append.mp increasing).2.2 m before last List.mem_cons_self)
    | inr itself => rw [List.mem_singleton.mp itself]

theorem project_sound (codex : ∀ row ∈ rows, CodexRow row)
    (sorted : rows.Pairwise fun a b => a.epoch < b.epoch) (range : 604801 ≤ now ∧ now ≤ maxEpoch)
    (age : Int) : Sound now (project rows now age) := by
  have each : ∀ row ∈ rows.filter fun row => decide (row.epoch ≤ now),
      CodexRow row ∧ row.epoch ≤ now := by
    intro row mem
    obtain ⟨inside, past⟩ := List.mem_filter.mp mem
    exact ⟨codex row inside, of_decide_eq_true past⟩
  have order := sorted.filter fun row => decide (row.epoch ≤ now)
  unfold project
  dsimp only
  generalize rows.filter (fun row => decide (row.epoch ≤ now)) = chosen at each order ⊢
  generalize isTarget : (chosen.getLast?.map (·.ident)).getD "" = target
  obtain ⟨marked, newest, top, named⟩ := mark_codex each order isTarget.symm
  generalize mark target chosen = marks at marked newest top ⊢
  have H : Placed 3600 now 24 marks (slots marks now 86400 3600 25) :=
    slots_placed (n := 24) (by decide) marks marked
  have D : Placed 86400 now 7 marks (slots marks now 604800 86400 8) :=
    slots_placed (n := 7) (by decide) marks marked
  obtain ⟨shown, hidden⟩ := latest_placed H D top
  cases last : chosen.getLast? with
  | none =>
    rw [last] at newest isTarget
    have noMark : marks.getLast? = none := Option.map_eq_none_iff.mp newest
    refine ⟨H.filled, D.filled, ⟨Int.le_refl 0, ?_⟩, fun some_ => absurd rfl some_,
      fun _ => ⟨isTarget.symm, rfl⟩, fun available => ?_, fun unavailable => ⟨?_, (hidden unavailable).1⟩,
      rfl, rfl, rfl⟩
    · exact (show (0 : Int) ≤ 604801 by decide).trans range.1
    · obtain ⟨mark, isLast, -⟩ := shown available
      rw [noMark] at isLast
      cases isLast
    · change (0 : Int) < now - 604800
      omega
  | some row =>
    obtain ⟨codexRow, past⟩ := each row (List.mem_of_getLast? last)
    have positive := codexRow.epoch
    rw [last] at newest
    obtain ⟨mark, isLast, epoch⟩ := Option.map_eq_some_iff.mp newest
    refine ⟨H.filled, D.filled, ⟨Int.le_of_lt positive, past⟩, fun _ => named row last,
      fun none_ => absurd none_ (Int.ne_of_gt positive), fun available => ⟨Int.ne_of_gt positive, ?_⟩,
      fun unavailable => ⟨?_, (hidden unavailable).1⟩, rfl, rfl, rfl⟩
    · obtain ⟨mark', isLast', -, same⟩ := shown available
      rw [isLast] at isLast'
      rw [same, ← Option.some.inj isLast', epoch]
      exact Int.toNat_of_nonneg (Int.le_of_lt positive)
    · have before := (hidden unavailable).2 mark isLast
      rw [epoch] at before
      exact before

/-- The firmware takes over what is projected, for every age that fits its field. -/
theorem project_accepted (codex : ∀ row ∈ rows, CodexRow row)
    (sorted : rows.Pairwise fun a b => a.epoch < b.epoch) (range : 604801 ≤ now ∧ now ≤ maxEpoch)
    (fits : 0 ≤ age ∧ age ≤ maxEpoch) :
    ∃ t, trend (project rows now age).document = some t ∧
      t.hours = (project rows now age).hours.map ProjectedPoint.stored ∧
      t.days = (project rows now age).days.map ProjectedPoint.stored := by
  apply (project_sound codex sorted range age).accepted range
  unfold project
  dsimp only
  split
  · rw [Int.max_eq_right fits.1]
    exact fits
  · decide

end Rows

/-- A row of half the week's quota, and one after a gap and a reset. -/
theorem project_accepted_two :
    let rows : List Row := [⟨650000, "codex", 5000, 900000⟩, ⟨650300, "codex", 10000, 1500000⟩]
    ∃ t, trend (project rows 700000 60).document = some t ∧
      t.hours = (project rows 700000 60).hours.map ProjectedPoint.stored ∧
      t.days = (project rows 700000 60).days.map ProjectedPoint.stored := by
  apply project_accepted
  · intro row mem
    cases mem with
    | head => exact ⟨by decide, rfl, by decide⟩
    | tail _ mem =>
      cases mem with
      | head => exact ⟨by decide, rfl, by decide⟩
      | tail _ mem => cases mem
  · simp
  · decide
  · decide

/-- An age that does not fit loses the whole trend. -/
theorem project_refused :
    trend (project [⟨650000, "codex", 5000, 900000⟩] 700000 4294967296).document = none := by
  decide

end Projections

end Mosaico.Host.QuotaTrend
