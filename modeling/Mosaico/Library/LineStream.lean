import Mathlib.Data.List.Basic

/-! The complete lines of a stream that grows. A reader that goes on where its last complete line ended sees the lines
that a reader from the start sees behind them. -/
namespace LineStream

variable {α : Type}

def linesFrom (ends : α → Bool) (current : List α) : List α → List (List α)
  | [] => []
  | c :: rest => if ends c then (current ++ [c]) :: linesFrom ends [] rest else linesFrom ends (current ++ [c]) rest

def restFrom (ends : α → Bool) (current : List α) : List α → List α
  | [] => current
  | c :: rest => if ends c then restFrom ends [] rest else restFrom ends (current ++ [c]) rest

def lines (ends : α → Bool) (stream : List α) : List (List α) := linesFrom ends [] stream

def consumed (ends : α → Bool) (stream : List α) : Nat := (lines ends stream).flatten.length

variable {ends : α → Bool}

theorem linesFrom_append (current front back : List α) : linesFrom ends current (front ++ back) =
    linesFrom ends current front ++ linesFrom ends (restFrom ends current front) back := by
  induction front generalizing current with
  | nil => rfl
  | cons c front ih =>
    rw [List.cons_append, linesFrom, linesFrom, restFrom]
    split
    · rw [ih, List.cons_append]
    · rw [ih]

theorem flatten_rest (current stream : List α) :
    (linesFrom ends current stream).flatten ++ restFrom ends current stream = current ++ stream := by
  induction stream generalizing current with
  | nil => exact (List.append_nil current).symm
  | cons c stream ih =>
    rw [linesFrom, restFrom]
    split
    · rw [List.flatten_cons, List.append_assoc, ih, List.nil_append, List.append_assoc]
      rfl
    · rw [ih, List.append_assoc]
      rfl

/-- A started line that holds no end is read on. -/
theorem linesFrom_open {opened : List α} (unended : ∀ c ∈ opened, ends c = false) (current stream : List α) :
    linesFrom ends current (opened ++ stream) = linesFrom ends (current ++ opened) stream := by
  induction opened generalizing current with
  | nil => rw [List.nil_append, List.append_nil]
  | cons c opened ih =>
    rw [List.cons_append, linesFrom, if_neg (by rw [unended c List.mem_cons_self]; decide),
      ih fun d hd => unended d (List.mem_cons_of_mem c hd), List.append_assoc]
    rfl

theorem restFrom_unended {current : List α} (open_ : ∀ c ∈ current, ends c = false) (stream : List α) :
    ∀ c ∈ restFrom ends current stream, ends c = false := by
  induction stream generalizing current with
  | nil => exact open_
  | cons c stream ih =>
    rw [restFrom]
    split
    · exact ih nofun
    case isFalse going =>
      apply ih
      intro d hd
      rcases List.mem_append.mp hd with old | new
      · exact open_ d old
      · rw [List.mem_singleton.mp new]
        exact Bool.eq_false_iff.mpr going

theorem consumed_rest (stream : List α) : stream.drop (consumed ends stream) = restFrom ends [] stream := by
  have whole := @flatten_rest α ends [] stream
  rw [List.nil_append] at whole
  have split : stream.drop (consumed ends stream) =
      ((linesFrom ends [] stream).flatten ++ restFrom ends [] stream).drop (consumed ends stream) := by rw [whole]
  rw [split]
  exact List.drop_left

theorem consumed_le (stream : List α) : consumed ends stream ≤ stream.length := by
  have whole := congrArg List.length (@flatten_rest α ends [] stream)
  rw [List.nil_append, List.length_append] at whole
  unfold consumed lines
  omega

/-- The lines that come with more of the stream are those behind the last complete one. -/
theorem lines_append (front back : List α) : lines ends (front ++ back) =
    lines ends front ++ lines ends ((front ++ back).drop (consumed ends front)) := by
  rw [List.drop_append_of_le_length (consumed_le front), consumed_rest]
  have unended : ∀ c ∈ restFrom ends [] front, ends c = false :=
    restFrom_unended (fun _ hc => absurd hc List.not_mem_nil) front
  unfold lines
  rw [linesFrom_append, linesFrom_open unended, List.nil_append]

theorem consumed_append (front back : List α) : consumed ends (front ++ back) =
    consumed ends front + (lines ends ((front ++ back).drop (consumed ends front))).flatten.length := by
  rw [consumed, lines_append, List.flatten_append, List.length_append]
  rfl

end LineStream
