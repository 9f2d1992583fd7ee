import Mosaico.Library.Consecutive

/-! The hourly rows of `history_store.py`: what the account's counter grew by, attributed to the hour in
which the growth was seen. The rendered label of a row and its constant source are left out. -/
namespace Mosaico.Host.HistoryHours

open Consecutive

def uiHours : Nat := 24
def maxSampleGapSeconds : Int := 180

structure Sample where
  epoch : Int
  tokens : Int
  deriving DecidableEq, Repr

inductive Quality where
  | missing | observed | partial_ | gap | correction
  deriving DecidableEq, Repr

structure Row where
  startEpoch : Int
  endEpoch : Int
  tokens : Option Int := none
  quality : Quality := .missing
  reportedDelta : Option Int := none
  positiveDelta : Int := 0
  correctionDelta : Int := 0
  gapDelta : Int := 0
  gapCount : Nat := 0
  gapStartEpoch : Option Int := none
  gapEndEpoch : Option Int := none
  coveredSeconds : Int := 0
  observationCount : Nat := 0
  deriving DecidableEq, Repr

/-- `_local` with the minutes and seconds cleared, for an offset in minutes. -/
def localHour (offset epoch : Int) : Int := epoch - (epoch + 60 * offset) % 3600

def emptyRow (offset now : Int) (index : Nat) : Row :=
  let start := localHour offset now - 3600 * ((uiHours : Int) - 1 - index)
  { startEpoch := start, endEpoch := start + 3600 }

namespace Row

def cover (row : Row) (previous sample : Sample) : Row :=
  { row with
    coveredSeconds := row.coveredSeconds +
      max 0 (min sample.epoch row.endEpoch - max previous.epoch row.startEpoch) }

/-- What a pair of samples adds to the hour it ends in. -/
def assign (row : Row) (previous sample : Sample) : Row :=
  let delta := sample.tokens - previous.tokens
  let row := { row with reportedDelta := some (row.reportedDelta.getD 0 + delta) }
  let row := if delta < 0 then { row with correctionDelta := row.correctionDelta + delta } else row
  if maxSampleGapSeconds < sample.epoch - previous.epoch then
    { row with
      gapDelta := row.gapDelta + delta
      gapCount := row.gapCount + 1
      gapStartEpoch := if row.gapStartEpoch = none then some previous.epoch else row.gapStartEpoch
      gapEndEpoch := some sample.epoch }
  else
    { row with
      observationCount := row.observationCount + 1
      positiveDelta := row.positiveDelta + max 0 delta }

/-- The last loop: what the sums of a row are worth. -/
def settle (now : Int) (row : Row) : Row :=
  if row.correctionDelta < 0 then { row with quality := .correction }
  else if row.observationCount ≠ 0 then
    let expected := min now row.endEpoch - row.startEpoch
    let complete := max 0 (expected - maxSampleGapSeconds) ≤ row.coveredSeconds
    { row with
      tokens := some row.positiveDelta
      quality := if complete ∧ row.gapCount = 0 then .observed else .partial_ }
  else if row.gapCount ≠ 0 then { row with quality := .gap }
  else row

end Row

/-- One turn of the loop over the pairs. The starts of the rows differ, so at most one row is attributed to. -/
def observe (offset now : Int) (rows : List Row) (p : Sample × Sample) : List Row :=
  if p.2.epoch ≤ p.1.epoch ∨ now < p.2.epoch then rows
  else
    let rows := if p.2.epoch - p.1.epoch ≤ maxSampleGapSeconds then rows.map fun row => row.cover p.1 p.2 else rows
    rows.map fun row => if row.startEpoch = localHour offset p.2.epoch then row.assign p.1 p.2 else row

def hours (offset : Int) (samples : List Sample) (now : Int) : List Row :=
  ((pairs samples).foldl (observe offset now) ((List.range uiHours).map (emptyRow offset now))).map (Row.settle now)

section OneRow

variable {offset now : Int} {row : Row} {p : Sample × Sample}

def delta (p : Sample × Sample) : Int := p.2.tokens - p.1.tokens

def Seen (now : Int) (p : Sample × Sample) : Prop := p.1.epoch < p.2.epoch ∧ p.2.epoch ≤ now

/-- The pairs that are attributed to the hour that starts there. -/
def Attributed (offset now start : Int) (p : Sample × Sample) : Prop :=
  Seen now p ∧ start = localHour offset p.2.epoch

instance : Decidable (Seen now p) := instDecidableAnd
instance (start : Int) : Decidable (Attributed offset now start p) := instDecidableAnd

def Close (p : Sample × Sample) : Prop := p.2.epoch - p.1.epoch ≤ maxSampleGapSeconds

instance : Decidable (Close p) := inferInstanceAs (Decidable (_ ≤ _))

def observeRow (offset now : Int) (row : Row) (p : Sample × Sample) : Row :=
  if Seen now p then
    let row := if Close p then row.cover p.1 p.2 else row
    if row.startEpoch = localHour offset p.2.epoch then row.assign p.1 p.2 else row
  else row

theorem observe_rows (rows : List Row) (p : Sample × Sample) :
    observe offset now rows p = rows.map fun row => observeRow offset now row p := by
  unfold observe observeRow
  by_cases seen : Seen now p
  · rw [if_neg (by unfold Seen at seen; omega)]
    dsimp only
    by_cases close : Close p
    · have near : p.2.epoch - p.1.epoch ≤ maxSampleGapSeconds := close
      rw [if_pos near, List.map_map]
      simp only [if_pos seen, if_pos close]
      rfl
    · have far : ¬p.2.epoch - p.1.epoch ≤ maxSampleGapSeconds := close
      rw [if_neg far]
      simp only [if_pos seen, if_neg close]
  · rw [if_pos (by unfold Seen at seen; omega)]
    simp only [if_neg seen, List.map_id']

private theorem foldl_rows (ps : List (Sample × Sample)) (rows : List Row) :
    ps.foldl (observe offset now) rows = rows.map fun row => ps.foldl (observeRow offset now) row := by
  induction ps generalizing rows with
  | nil => exact (List.map_id' rows).symm
  | cons p ps ih => rw [List.foldl_cons, observe_rows, ih, List.map_map]; rfl

def summed (offset : Int) (samples : List Sample) (now : Int) (index : Nat) : Row :=
  (pairs samples).foldl (observeRow offset now) (emptyRow offset now index)

/-- Each row of the result is made of an empty row and all the pairs. -/
theorem hours_rows (samples : List Sample) : hours offset samples now = (List.range uiHours).map fun index =>
    (summed offset samples now index).settle now := by
  rw [hours, foldl_rows, List.map_map, List.map_map]
  rfl

/-- The fields of a row that one turn adds to. -/
structure Turn (offset now : Int) (row next : Row) (p : Sample × Sample) : Prop where
  start : next.startEpoch = row.startEpoch
  end_ : next.endEpoch = row.endEpoch
  tokens : next.tokens = row.tokens
  covered : next.coveredSeconds = row.coveredSeconds +
    if Seen now p ∧ Close p then overlap Sample.epoch row.startEpoch row.endEpoch p else 0
  reported : next.reportedDelta =
    if Attributed offset now row.startEpoch p then some (row.reportedDelta.getD 0 + delta p) else row.reportedDelta
  correction : next.correctionDelta = row.correctionDelta +
    if Attributed offset now row.startEpoch p then min 0 (delta p) else 0
  gap : next.gapDelta = row.gapDelta +
    if Attributed offset now row.startEpoch p ∧ ¬Close p then delta p else 0
  positive : next.positiveDelta = row.positiveDelta +
    if Attributed offset now row.startEpoch p ∧ Close p then max 0 (delta p) else 0
  observed : next.observationCount = row.observationCount +
    if Attributed offset now row.startEpoch p ∧ Close p then 1 else 0

/-- What attributing changes, for a pair within the allowed gap and for one beyond it. -/
private theorem assign_close (close : Close p) : row.assign p.1 p.2 =
    { row with
      reportedDelta := some (row.reportedDelta.getD 0 + delta p)
      correctionDelta := row.correctionDelta + min 0 (delta p)
      observationCount := row.observationCount + 1
      positiveDelta := row.positiveDelta + max 0 (delta p) } := by
  unfold Row.assign delta
  dsimp only
  rw [if_neg (Int.not_lt.mpr close)]
  by_cases negative : p.2.tokens - p.1.tokens < 0
  · rw [if_pos negative, Int.min_eq_right (Int.le_of_lt negative)]
  · rw [if_neg negative, Int.min_eq_left (Int.not_lt.mp negative), Int.add_zero]

private theorem assign_far (far : ¬Close p) : row.assign p.1 p.2 =
    { row with
      reportedDelta := some (row.reportedDelta.getD 0 + delta p)
      correctionDelta := row.correctionDelta + min 0 (delta p)
      gapDelta := row.gapDelta + delta p
      gapCount := row.gapCount + 1
      gapStartEpoch := if row.gapStartEpoch = none then some p.1.epoch else row.gapStartEpoch
      gapEndEpoch := some p.2.epoch } := by
  unfold Row.assign delta
  dsimp only
  rw [if_pos (Int.not_le.mp far)]
  by_cases negative : p.2.tokens - p.1.tokens < 0
  · rw [if_pos negative, Int.min_eq_right (Int.le_of_lt negative)]
  · rw [if_neg negative, Int.min_eq_left (Int.not_lt.mp negative), Int.add_zero]

theorem observe_turn : Turn offset now row (observeRow offset now row p) p := by
  unfold observeRow
  by_cases seen : Seen now p
  · rw [if_pos seen]
    by_cases here : row.startEpoch = localHour offset p.2.epoch
    · have attributed : Attributed offset now row.startEpoch p := ⟨seen, here⟩
      by_cases close : Close p
      · simp only [if_pos close, assign_close close, Row.cover, if_pos here]
        constructor <;> simp [seen, close, attributed, overlap]
      · simp only [if_neg close, assign_far close, if_pos here]
        constructor <;> simp [close, attributed]
    · have other : ¬Attributed offset now row.startEpoch p := fun h => here h.2
      by_cases close : Close p
      · simp only [if_pos close, Row.cover, if_neg here]
        constructor <;> simp [seen, close, other, overlap]
      · simp only [if_neg close, if_neg here]
        constructor <;> simp [close, other]
  · have other : ¬Attributed offset now row.startEpoch p := fun h => seen h.1
    rw [if_neg seen]
    constructor <;> simp [seen, other]

/-- A field that every turn adds to is, after the loop, what it was and all that was added. -/
theorem foldl_sum (offset now : Int) {start end_ : Int} (field : Row → Int) (gain : Sample × Sample → Int)
    (turn : ∀ row p, row.startEpoch = start → row.endEpoch = end_ →
      field (observeRow offset now row p) = field row + gain p)
    (ps : List (Sample × Sample)) (row : Row) (atStart : row.startEpoch = start) (atEnd : row.endEpoch = end_) :
    field (ps.foldl (observeRow offset now) row) = field row + (ps.map gain).sum := by
  induction ps generalizing row with
  | nil => exact (Int.add_zero _).symm
  | cons p ps ih =>
    have next : Turn offset now row (observeRow offset now row p) p := observe_turn
    rw [List.foldl_cons, ih _ (next.start.trans atStart) (next.end_.trans atEnd), turn row p atStart atEnd,
      List.map_cons, List.sum_cons, Int.add_assoc]

theorem foldl_start (ps : List (Sample × Sample)) (row : Row) :
    (ps.foldl (observeRow offset now) row).startEpoch = row.startEpoch ∧
      (ps.foldl (observeRow offset now) row).endEpoch = row.endEpoch ∧
      (ps.foldl (observeRow offset now) row).tokens = row.tokens := by
  induction ps generalizing row with
  | nil => exact ⟨rfl, rfl, rfl⟩
  | cons p ps ih =>
    have next : Turn offset now row (observeRow offset now row p) p := observe_turn
    obtain ⟨start, end_, tokens⟩ := ih (observeRow offset now row p)
    exact ⟨start.trans next.start, end_.trans next.end_, tokens.trans next.tokens⟩

/-- A row has a reported change exactly when a pair was attributed to it. -/
theorem foldl_reported (ps : List (Sample × Sample)) (row : Row) :
    (ps.foldl (observeRow offset now) row).reportedDelta.isSome = true ↔
      row.reportedDelta.isSome = true ∨ ∃ p ∈ ps, Attributed offset now row.startEpoch p := by
  induction ps generalizing row with
  | nil => simp
  | cons p ps ih =>
    have next : Turn offset now row (observeRow offset now row p) p := observe_turn
    rw [List.foldl_cons, ih, next.start, next.reported]
    by_cases here : Attributed offset now row.startEpoch p
    · simp [here]
    · simp [here]

end OneRow

section Conservation

variable {offset now : Int}

theorem localHour_le (offset : Int) {epoch now : Int} (h : epoch ≤ now) :
    localHour offset epoch ≤ localHour offset now := by
  unfold localHour
  omega

theorem sum_range_single (n : Nat) (j d : Int) :
    ((List.range n).map fun i : Nat => if (i : Int) = j then d else 0).sum = if 0 ≤ j ∧ j < n then d else 0 := by
  induction n with
  | zero => exact (if_neg (by omega)).symm
  | succ n ih =>
    rw [List.range_succ, List.map_append, List.sum_append, ih]
    simp only [List.map_cons, List.map_nil, List.sum_cons, List.sum_nil]
    split <;> split <;> split <;> omega

private theorem sum_filterMap {α : Type} (f : α → Option Int) (l : List α) :
    (l.filterMap f).sum = (l.map fun a => (f a).getD 0).sum := by
  induction l with
  | nil => rfl
  | cons a l ih =>
    cases h : f a with
    | none => rw [List.filterMap_cons_none h, ih, List.map_cons, List.sum_cons, h, Option.getD_none, Int.zero_add]
    | some v => rw [List.filterMap_cons_some h, List.sum_cons, ih, List.map_cons, List.sum_cons, h, Option.getD_some]

private theorem sum_filter {α : Type} (q : α → Prop) [DecidablePred q] (f : α → Int) (l : List α) :
    (l.map fun a => if q a then f a else 0).sum = ((l.filter fun a => decide (q a)).map f).sum := by
  induction l with
  | nil => rfl
  | cons a l ih =>
    by_cases h : q a
    · simp only [List.filter_cons, h, decide_true, if_true, List.map_cons, List.sum_cons, ih]
    · simp only [List.filter_cons, h, decide_false, if_false, List.map_cons, List.sum_cons, ih, Int.zero_add,
        Bool.false_eq_true]

private theorem sum_swap {α β : Type} (f : α → β → Int) (l : List α) (m : List β) :
    (l.map fun a => (m.map fun b => f a b).sum).sum = (m.map fun b => (l.map fun a => f a b).sum).sum := by
  induction m with
  | nil => simp
  | cons b m ih =>
    simp only [List.map_cons, List.sum_cons]
    rw [List.sum_map_add, ih]

def firstStart (offset now : Int) : Int := localHour offset now - 3600 * 23

/-- Every pair that ends in the 24 hours up to now is attributed to exactly one row. -/
theorem attributed_once (p : Sample × Sample) :
    ((List.range uiHours).map fun index =>
      if Attributed offset now (emptyRow offset now index).startEpoch p then delta p else 0).sum =
      if Seen now p ∧ firstStart offset now ≤ p.2.epoch then delta p else 0 := by
  by_cases seen : Seen now p
  · obtain ⟨k, apart⟩ : ∃ k, localHour offset now = localHour offset p.2.epoch + 3600 * k :=
      ⟨(localHour offset now - localHour offset p.2.epoch) / 3600, by unfold localHour; omega⟩
    have later := localHour_le offset seen.2
    have place : ∀ index : Nat, Attributed offset now (emptyRow offset now index).startEpoch p ↔
        (index : Int) = 23 - k := by
      intro index
      unfold Attributed emptyRow uiHours
      simp only [seen, true_and]
      omega
    simp only [place]
    rw [sum_range_single]
    have first : firstStart offset now ≤ p.2.epoch ↔ k ≤ 23 := by
      unfold firstStart
      have inside : localHour offset p.2.epoch ≤ p.2.epoch ∧ p.2.epoch < localHour offset p.2.epoch + 3600 := by
        unfold localHour
        omega
      omega
    simp only [seen, true_and, first, uiHours]
    congr 1
    apply propext
    omega
  · have other : ∀ index : Nat, ¬Attributed offset now (emptyRow offset now index).startEpoch p := fun _ h => seen h.1
    simp only [other, seen, false_and, if_false]
    simp

theorem settle_fields (now : Int) (row : Row) : (row.settle now).startEpoch = row.startEpoch ∧
    (row.settle now).endEpoch = row.endEpoch ∧ (row.settle now).reportedDelta = row.reportedDelta ∧
    (row.settle now).gapDelta = row.gapDelta ∧ (row.settle now).coveredSeconds = row.coveredSeconds := by
  unfold Row.settle
  split
  · exact ⟨rfl, rfl, rfl, rfl, rfl⟩
  split
  · exact ⟨rfl, rfl, rfl, rfl, rfl⟩
  split
  · exact ⟨rfl, rfl, rfl, rfl, rfl⟩
  · exact ⟨rfl, rfl, rfl, rfl, rfl⟩

/-- Only observed hours without a correction get tokens. -/
theorem settle_tokens {row : Row} {tokens : Int} (fresh : row.tokens = none)
    (h : (row.settle now).tokens = some tokens) :
    0 ≤ row.correctionDelta ∧ row.observationCount ≠ 0 ∧ tokens = row.positiveDelta := by
  unfold Row.settle at h
  split at h
  · rw [fresh] at h
    cases h
  case isFalse right =>
  split at h
  case isTrue seen =>
    cases h
    exact ⟨Int.not_lt.mp right, seen, rfl⟩
  case isFalse =>
    split at h
    · rw [fresh] at h
      cases h
    · rw [fresh] at h
      cases h

variable {samples : List Sample}

theorem summed_start (offset now : Int) (samples : List Sample) (index : Nat) :
    (summed offset samples now index).startEpoch = (emptyRow offset now index).startEpoch ∧
    (summed offset samples now index).endEpoch = (emptyRow offset now index).endEpoch ∧
    (summed offset samples now index).tokens = none :=
  foldl_start (pairs samples) (emptyRow offset now index)

theorem summed_reported (index : Nat) : (summed offset samples now index).reportedDelta.getD 0 =
    ((pairs samples).map fun p =>
      if Attributed offset now (emptyRow offset now index).startEpoch p then delta p else 0).sum := by
  have added := foldl_sum offset now (fun row => row.reportedDelta.getD 0)
    (fun p => if Attributed offset now (emptyRow offset now index).startEpoch p then delta p else 0) ?_
    (pairs samples) (emptyRow offset now index) rfl rfl
  · exact added.trans (Int.zero_add _)
  · intro row p start _
    have next : Turn offset now row (observeRow offset now row p) p := observe_turn
    rw [next.reported, start]
    split
    · rfl
    · exact (Int.add_zero _).symm

/-- The reported changes of the rows add up to the change over the 24 hours. -/
theorem reported_conserved (first : Sample) (rest : List Sample)
    (increasing : (first :: rest).Pairwise (Sample.epoch · < Sample.epoch ·)) :
    ((hours offset (first :: rest) now).filterMap Row.reportedDelta).sum =
      (lastOf (fun s => decide (s.epoch ≤ now)) first rest).tokens -
        (lastOf (fun s => decide (s.epoch < firstStart offset now)) first rest).tokens := by
  have order : firstStart offset now ≤ now := by
    unfold firstStart localHour
    omega
  have rows : (hours offset (first :: rest) now).map (fun row => row.reportedDelta.getD 0) =
      (List.range uiHours).map fun index => ((pairs (first :: rest)).map fun p =>
        if Attributed offset now (emptyRow offset now index).startEpoch p then delta p else 0).sum := by
    rw [hours_rows, List.map_map]
    apply List.map_congr_left
    intro index _
    rw [← summed_reported]
    exact congrArg (Option.getD · 0) (settle_fields now _).2.2.1
  rw [sum_filterMap, rows, sum_swap]
  simp only [attributed_once]
  rw [sum_filter, ← sum_changes order first rest increasing]
  congr 2
  apply List.filter_congr
  intro p member
  have apart : p.1.epoch < p.2.epoch := pairs_increasing increasing member
  simp only [Seen, apart, true_and, and_comm]

/-- Two consecutive samples that are near enough, the later one not after now. -/
def near (now : Int) (p : Sample × Sample) : Bool := decide (p.2.epoch ≤ now ∧ Close p)

theorem covered_exact (offset now : Int) (increasing : samples.Pairwise (Sample.epoch · < Sample.epoch ·))
    (index : Nat) : let row := emptyRow offset now index
    (summed offset samples now index).coveredSeconds =
      ((Finset.Ico row.startEpoch row.endEpoch).filter (Covered Sample.epoch (near now) samples)).card := by
  dsimp only
  have added := foldl_sum offset now Row.coveredSeconds
    (fun p => if Seen now p ∧ Close p then
      overlap Sample.epoch (emptyRow offset now index).startEpoch (emptyRow offset now index).endEpoch p else 0) ?_
    (pairs samples) (emptyRow offset now index) rfl rfl
  · rw [card_covered (near now) samples increasing, summed, added, sum_filter]
    have same : (pairs samples).filter (fun p => decide (Seen now p ∧ Close p)) = (pairs samples).filter
        (near now) := by
      apply List.filter_congr
      intro p member
      have apart : p.1.epoch < p.2.epoch := pairs_increasing increasing member
      simp only [Seen, apart, true_and, near]
    rw [same]
    exact Int.zero_add _
  · intro row p start end_
    have next : Turn offset now row (observeRow offset now row p) p := observe_turn
    rw [next.covered, start, end_]

/-- Where parts that are not positive add up to nothing negative, each of them is zero. -/
private theorem parts_zero {α : Type} {f : α → Int} {l : List α} (low : ∀ a ∈ l, f a ≤ 0) :
    (l.map f).sum ≤ 0 ∧ (0 ≤ (l.map f).sum → ∀ a ∈ l, f a = 0) := by
  induction l with
  | nil => exact ⟨Int.le_refl 0, fun _ => nofun⟩
  | cons a l ih =>
    have here := low a List.mem_cons_self
    obtain ⟨rest, zero⟩ := ih fun b hb => low b (List.mem_cons_of_mem _ hb)
    rw [List.map_cons, List.sum_cons]
    refine ⟨by omega, fun h b member => ?_⟩
    rcases List.mem_cons.mp member with rfl | later
    · omega
    · exact zero (by omega) b later

/-- A row that was observed and never corrected reports what was observed and what was caught up. -/
theorem tokens_exact {samples : List Sample} (index : Nat)
    (right : 0 ≤ (summed offset samples now index).correctionDelta)
    (seen : (summed offset samples now index).observationCount ≠ 0) :
    (∀ p ∈ pairs samples, Attributed offset now (emptyRow offset now index).startEpoch p → 0 ≤ delta p) ∧
      (summed offset samples now index).reportedDelta =
        some ((summed offset samples now index).positiveDelta + (summed offset samples now index).gapDelta) := by
  have turn : ∀ row p, Turn offset now row (observeRow offset now row p) p := fun row p => observe_turn
  have correction := foldl_sum offset now Row.correctionDelta
    (fun p => if Attributed offset now (emptyRow offset now index).startEpoch p then min 0 (delta p) else 0)
    (fun row p start _ => by rw [(turn row p).correction, start]) (pairs samples) (emptyRow offset now index) rfl rfl
  have gap := foldl_sum offset now Row.gapDelta
    (fun p => if Attributed offset now (emptyRow offset now index).startEpoch p ∧ ¬Close p then delta p else 0)
    (fun row p start _ => by rw [(turn row p).gap, start]) (pairs samples) (emptyRow offset now index) rfl rfl
  have positive := foldl_sum offset now Row.positiveDelta
    (fun p => if Attributed offset now (emptyRow offset now index).startEpoch p ∧ Close p then max 0 (delta p) else 0)
    (fun row p start _ => by rw [(turn row p).positive, start]) (pairs samples) (emptyRow offset now index) rfl rfl
  have observed := foldl_sum offset now (fun row => (row.observationCount : Int))
    (fun p => if Attributed offset now (emptyRow offset now index).startEpoch p ∧ Close p then 1 else 0)
    (fun row p start _ => by rw [(turn row p).observed, start]; split <;> rfl)
    (pairs samples) (emptyRow offset now index) rfl rfl
  change (summed offset samples now index).correctionDelta = 0 + _ at correction
  change (summed offset samples now index).gapDelta = 0 + _ at gap
  change (summed offset samples now index).positiveDelta = 0 + _ at positive
  change ((summed offset samples now index).observationCount : Int) = 0 + _ at observed
  rw [Int.zero_add] at correction gap positive observed
  have up : ∀ p ∈ pairs samples, Attributed offset now (emptyRow offset now index).startEpoch p → 0 ≤ delta p := by
    intro p member here
    have zero := (parts_zero (fun p _ => by split <;> omega)).2 (correction ▸ right) p member
    rw [if_pos here] at zero
    omega
  refine ⟨up, ?_⟩
  have total : (summed offset samples now index).reportedDelta.getD 0 =
      (summed offset samples now index).positiveDelta + (summed offset samples now index).gapDelta := by
    rw [summed_reported, positive, gap, ← List.sum_map_add]
    congr 1
    apply List.map_congr_left
    intro p member
    by_cases here : Attributed offset now (emptyRow offset now index).startEpoch p
    · have grown := up p member here
      by_cases close : Close p
      · simp only [here, close, and_self, not_true_eq_false, and_false, if_true, if_false]
        omega
      · simp only [here, close, and_false, not_false_eq_true, and_self, if_true, if_false]
        omega
    · simp only [here, false_and, if_false]
      rfl
  have some_ : (summed offset samples now index).reportedDelta.isSome = true := by
    apply (foldl_reported (pairs samples) (emptyRow offset now index)).mpr
    right
    by_contra nothing
    have none_ : ∀ p ∈ pairs samples, ¬Attributed offset now (emptyRow offset now index).startEpoch p :=
      fun p member here => nothing ⟨p, member, here⟩
    have zero : ((pairs samples).map fun p =>
        if Attributed offset now (emptyRow offset now index).startEpoch p ∧ Close p then (1 : Int)
          else 0).sum = 0 := by
      rw [List.sum_eq_zero]
      intro v hv
      obtain ⟨p, member, rfl⟩ := List.mem_map.mp hv
      exact if_neg fun h => none_ p member h.1
    omega
  obtain ⟨reported, same⟩ := Option.isSome_iff_exists.mp some_
  rw [same] at total ⊢
  rw [← total]
  rfl

/-- The reported changes add up to what the counter grew by over the 24 hours; a row's coverage is the
seconds of the row between consecutive samples that are near enough and not after now; a row with tokens has
no correction in it and reports its tokens and what was caught up after gaps. -/
theorem hours_conserve (offset now : Int) (first : Sample) (rest : List Sample)
    (increasing : (first :: rest).Pairwise (Sample.epoch · < Sample.epoch ·))
    (before : first.epoch < firstStart offset now) :
    (hours offset (first :: rest) now).map Row.startEpoch =
        (List.range 24).map (fun index : Nat => firstStart offset now + 3600 * index) ∧
    (∃ last base, ((first :: rest).filter fun s => s.epoch ≤ now).getLast? = some last ∧
      ((first :: rest).filter fun s => s.epoch < firstStart offset now).getLast? = some base ∧
      ((hours offset (first :: rest) now).filterMap Row.reportedDelta).sum = last.tokens - base.tokens) ∧
    ∀ row ∈ hours offset (first :: rest) now,
      row.coveredSeconds = ((Finset.Ico row.startEpoch row.endEpoch).filter fun second =>
        ∃ p ∈ pairs (first :: rest), p.2.epoch ≤ now ∧ p.2.epoch - p.1.epoch ≤ 180 ∧
          p.1.epoch ≤ second ∧ second < p.2.epoch).card ∧
      row.coveredSeconds ≤ 3600 ∧
      ∀ tokens, row.tokens = some tokens → row.reportedDelta = some (tokens + row.gapDelta) ∧
        ∀ p ∈ pairs (first :: rest), p.2.epoch ≤ now → row.startEpoch ≤ p.2.epoch → p.2.epoch < row.endEpoch →
          p.1.tokens ≤ p.2.tokens := by
  refine ⟨?_, ?_, ?_⟩
  · rw [hours_rows, List.map_map]
    apply List.map_congr_left
    intro index _
    rw [Function.comp_apply, (settle_fields now _).1, (summed_start offset now (first :: rest) index).1]
    unfold emptyRow firstStart uiHours
    dsimp only
    omega
  · have order : firstStart offset now ≤ now := by
      unfold firstStart localHour
      omega
    have last := lastOf_getLast (p := fun s => decide (s.epoch ≤ now)) (x := first) (decide_eq_true (by omega)) rest
    have base := lastOf_getLast (p := fun s => decide (s.epoch < firstStart offset now)) (x := first)
      (decide_eq_true before) rest
    exact ⟨_, _, last, base, reported_conserved first rest increasing⟩
  · intro row member
    rw [hours_rows] at member
    obtain ⟨index, -, rfl⟩ := List.mem_map.mp member
    obtain ⟨start, end_, reported, gap, covered⟩ := settle_fields now (summed offset (first :: rest) now index)
    obtain ⟨start', end', fresh⟩ := summed_start offset now (first :: rest) index
    have seconds := covered_exact offset now increasing index
    dsimp only at seconds
    rw [← start', ← end', ← start, ← end_, ← covered] at seconds
    refine ⟨?_, ?_, ?_⟩
    · rw [seconds]
      congr 2
      apply Finset.filter_congr
      intro second _
      unfold Covered near Close maxSampleGapSeconds
      simp only [decide_eq_true_eq, and_assoc]
    · rw [seconds]
      have few := Finset.card_filter_le (Finset.Ico ((summed offset (first :: rest) now index).settle now).startEpoch
        ((summed offset (first :: rest) now index).settle now).endEpoch)
        (Covered Sample.epoch (near now) (first :: rest))
      rw [Int.card_Ico, start, end_, start', end'] at few
      have hour : (emptyRow offset now index).endEpoch - (emptyRow offset now index).startEpoch = 3600 := by
        unfold emptyRow
        dsimp only
        omega
      rw [hour] at few
      rw [start, end_, start', end']
      exact_mod_cast few
    · intro tokens h
      obtain ⟨right, observed, same⟩ := settle_tokens fresh h
      obtain ⟨up, total⟩ := tokens_exact index right observed
      refine ⟨?_, ?_⟩
      · rw [reported, total, gap, same]
      · intro p pair notAfter atStart atEnd
        rw [start, start'] at atStart
        rw [end_, end'] at atEnd
        have apart : p.1.epoch < p.2.epoch := pairs_increasing increasing pair
        have here : (emptyRow offset now index).startEpoch = localHour offset p.2.epoch := by
          unfold emptyRow localHour at *
          dsimp only at *
          omega
        have grown := up p pair ⟨⟨apart, notAfter⟩, here⟩
        unfold delta at grown
        omega

/-- A day that ends at 102600: three samples near the end, the last one after now. -/
def evening : List Sample := [⟨0, 5⟩, ⟨102480, 25⟩, ⟨102540, 32⟩, ⟨102660, 40⟩]

theorem hours_conserve_evening : ((hours 480 evening 102600).filterMap Row.reportedDelta).sum = 27 := by
  obtain ⟨-, ⟨last, base, hlast, hbase, total⟩, -⟩ :=
    hours_conserve 480 102600 ⟨0, 5⟩ [⟨102480, 25⟩, ⟨102540, 32⟩, ⟨102660, 40⟩] (by decide) (by decide)
  have sameLast : last = ⟨102540, 32⟩ := Option.some.inj (hlast.symm.trans (by decide))
  have sameBase : base = ⟨0, 5⟩ := Option.some.inj (hbase.symm.trans (by decide))
  rw [sameLast, sameBase] at total
  exact total

/-- The seconds before now that lie between a sample before now and one after it are not counted. -/
theorem straddling_uncounted : evening.Pairwise (Sample.epoch · < Sample.epoch ·) ∧
    (∃ first, evening.head? = some first ∧ first.epoch < firstStart 480 102600) ∧
    ∃ row ∈ hours 480 evening 102600, row.coveredSeconds ≠
      ((Finset.Ico row.startEpoch row.endEpoch).filter fun second =>
      second < 102600 ∧ ∃ p ∈ pairs evening, p.2.epoch - p.1.epoch ≤ 180 ∧ p.1.epoch ≤ second ∧
        second < p.2.epoch).card := by
  refine ⟨by decide, ⟨⟨0, 5⟩, by decide, by decide⟩, ?_⟩
  have found : ∃ row ∈ hours 480 evening 102600, row.startEpoch = 100800 ∧ row.endEpoch = 104400 ∧
      row.coveredSeconds = 60 := by decide
  obtain ⟨row, member, start, end_, covered⟩ := found
  refine ⟨row, member, fun same => ?_⟩
  have more : Finset.Ico (102480 : Int) 102600 ⊆ (Finset.Ico row.startEpoch row.endEpoch).filter fun second =>
      second < 102600 ∧ ∃ p ∈ pairs evening, p.2.epoch - p.1.epoch ≤ 180 ∧ p.1.epoch ≤ second ∧
        second < p.2.epoch := by
    intro second inside
    obtain ⟨after, before⟩ := Finset.mem_Ico.mp inside
    rw [Finset.mem_filter, Finset.mem_Ico]
    refine ⟨by omega, before, ?_⟩
    by_cases early : second < 102540
    · exact ⟨(⟨102480, 25⟩, ⟨102540, 32⟩), by decide, by decide, after, early⟩
    · exact ⟨(⟨102540, 32⟩, ⟨102660, 40⟩),
        by decide, by decide, Int.not_lt.mp early, show second < 102660 by omega⟩
  have few := Finset.card_le_card more
  rw [Int.card_Ico] at few
  omega

end Conservation

end Mosaico.Host.HistoryHours
