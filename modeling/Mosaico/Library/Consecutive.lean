import Mathlib

/-! Observations in the order of their times: the pairs of consecutive ones, what a value changes by between them, and
the time they cover. -/
namespace Consecutive

variable {α : Type}

def pairs (l : List α) : List (α × α) := l.zip l.tail

@[simp] theorem pairs_cons (x y : α) (rest : List α) : pairs (x :: y :: rest) = (x, y) :: pairs (y :: rest) := rfl

def lastOf (p : α → Bool) (x : α) (rest : List α) : α := (rest.filter p).getLastD x

theorem lastOf_meets {p : α → Bool} {y : α} (h : p y = true) (x : α) (rest : List α) :
    lastOf p x (y :: rest) = lastOf p y rest := by
  rw [lastOf, List.filter_cons_of_pos h, List.getLastD_cons]
  rfl

theorem lastOf_skips {p : α → Bool} {y : α} (h : ¬p y = true) (x : α) (rest : List α) :
    lastOf p x (y :: rest) = lastOf p x rest := by
  rw [lastOf, List.filter_cons_of_neg h]
  rfl

theorem lastOf_none {p : α → Bool} {rest : List α} (h : ∀ y ∈ rest, ¬p y = true) (x : α) :
    lastOf p x rest = x := by
  rw [lastOf, List.filter_eq_nil_iff.mpr h]
  rfl

theorem lastOf_getLast {p : α → Bool} {x : α} (h : p x = true) (rest : List α) :
    ((x :: rest).filter p).getLast? = some (lastOf p x rest) := by
  rw [List.filter_cons_of_pos h, List.getLast?_cons, lastOf, List.getLastD_eq_getLast?]

section Times

variable {time value : α → Int} {first last : Int}

theorem pairs_later {x : α} {rest : List α} (increasing : (x :: rest).Pairwise (time · < time ·)) {p : α × α}
    (member : p ∈ pairs (x :: rest)) : time x ≤ time p.1 ∧ p.2 ∈ rest := by
  have inside := List.of_mem_zip member
  refine ⟨?_, inside.2⟩
  rcases List.mem_cons.mp inside.1 with same | later
  · rw [same]
  · exact Int.le_of_lt ((List.pairwise_cons.mp increasing).1 _ later)

theorem pairs_increasing {l : List α} (increasing : l.Pairwise (time · < time ·)) {p : α × α}
    (member : p ∈ pairs l) : time p.1 < time p.2 := by
  induction l with
  | nil => cases member
  | cons x l ih =>
    obtain ⟨later, tail⟩ := List.pairwise_cons.mp increasing
    cases l with
    | nil => cases member
    | cons y rest =>
      rcases List.mem_cons.mp member with rfl | further
      · exact later y List.mem_cons_self
      · exact ih tail further

/-- The changes up to the observations of a stretch of time add up to the change over the stretch. -/
theorem sum_changes (order : first ≤ last) (x : α) (rest : List α)
    (increasing : (x :: rest).Pairwise (time · < time ·)) :
    (((pairs (x :: rest)).filter fun p => decide (first ≤ time p.2 ∧ time p.2 ≤ last)).map
        fun p => value p.2 - value p.1).sum =
      value (lastOf (fun y => decide (time y ≤ last)) x rest) -
        value (lastOf (fun y => decide (time y < first)) x rest) := by
  induction rest generalizing x with
  | nil => exact (Int.sub_self _).symm
  | cons y rest ih =>
    obtain ⟨-, increasing⟩ := List.pairwise_cons.mp increasing
    have later := (List.pairwise_cons.mp increasing).1
    have tail := ih y increasing
    rw [pairs_cons]
    by_cases early : time y < first
    · have before : lastOf (fun y => decide (time y < first)) x (y :: rest) =
          lastOf (fun y => decide (time y < first)) y rest :=
          lastOf_meets (p := fun y => decide (time y < first)) (decide_eq_true early) x rest
      have reached : lastOf (fun y => decide (time y ≤ last)) x (y :: rest) =
          lastOf (fun y => decide (time y ≤ last)) y rest :=
          lastOf_meets (p := fun y => decide (time y ≤ last)) (decide_eq_true (by omega)) x rest
      rw [List.filter_cons_of_neg (by simp only [decide_eq_true_eq]; omega), tail, before, reached]
    · have settled : ∀ (x : α), lastOf (fun y => decide (time y < first)) x rest = x := by
        apply lastOf_none
        intro z hz
        have after := later z hz
        simp only [decide_eq_true_eq]
        omega
      have before : lastOf (fun y => decide (time y < first)) x (y :: rest) = x := by
        rw [lastOf_skips (by simpa only [decide_eq_true_eq] using early), settled]
      rw [before]
      rw [settled] at tail
      by_cases inside : time y ≤ last
      · have reached : lastOf (fun y => decide (time y ≤ last)) x (y :: rest) =
            lastOf (fun y => decide (time y ≤ last)) y rest :=
            lastOf_meets (p := fun y => decide (time y ≤ last)) (decide_eq_true inside) x rest
        rw [List.filter_cons_of_pos (by simp only [decide_eq_true_eq]; omega), List.map_cons, List.sum_cons,
          tail, reached]
        show value y - value x + _ = _
        omega
      · have out : (pairs (y :: rest)).filter (fun p => decide (first ≤ time p.2 ∧ time p.2 ≤ last)) = [] := by
          apply List.filter_eq_nil_iff.mpr
          intro p member
          have after := later _ (pairs_later increasing member).2
          simp only [decide_eq_true_eq]
          omega
        have done : lastOf (fun y => decide (time y ≤ last)) x (y :: rest) = x := by
          apply lastOf_none
          intro z hz
          simp only [decide_eq_true_eq]
          rcases List.mem_cons.mp hz with rfl | further
          · exact inside
          · have after := later z further
            omega
        rw [List.filter_cons_of_neg (by simp only [decide_eq_true_eq]; omega), out, done]
        exact (Int.sub_self _).symm

/-- A moment between two consecutive observations of the wanted kind. -/
def Covered (time : α → Int) (wanted : α × α → Bool) (l : List α) (t : Int) : Prop :=
  ∃ p ∈ pairs l, wanted p = true ∧ time p.1 ≤ t ∧ t < time p.2

instance (time : α → Int) (wanted : α × α → Bool) (l : List α) (t : Int) : Decidable (Covered time wanted l t) :=
  List.decidableBEx _ _

def overlap (time : α → Int) (first last : Int) (p : α × α) : Int :=
  max 0 (min (time p.2) last - max (time p.1) first)

/-- Consecutive pairs do not overlap, so what they cover is the sum of what each one does. -/
theorem card_covered (wanted : α × α → Bool) (l : List α) (increasing : l.Pairwise (time · < time ·)) :
    (((Finset.Ico first last).filter (Covered time wanted l)).card : Int) =
      (((pairs l).filter wanted).map (overlap time first last)).sum := by
  induction l with
  | nil =>
    have none_ : (Finset.Ico first last).filter (Covered time wanted []) = ∅ :=
      Finset.filter_eq_empty_iff.mpr fun t _ ⟨p, member, _⟩ => nomatch member
    rw [none_]
    rfl
  | cons x l ih =>
    cases l with
    | nil =>
      have none_ : (Finset.Ico first last).filter (Covered time wanted [x]) = ∅ :=
        Finset.filter_eq_empty_iff.mpr fun t _ ⟨p, member, _⟩ => nomatch member
      rw [none_]
      rfl
    | cons y rest =>
      obtain ⟨-, tail⟩ := List.pairwise_cons.mp increasing
      rw [pairs_cons]
      by_cases good : wanted (x, y) = true
      · have split : (Finset.Ico first last).filter (Covered time wanted (x :: y :: rest)) =
            Finset.Ico (max (time x) first) (min (time y) last) ∪
              (Finset.Ico first last).filter (Covered time wanted (y :: rest)) := by
          ext t
          simp only [Finset.mem_union, Finset.mem_filter, Finset.mem_Ico, Covered, pairs_cons, List.mem_cons]
          constructor
          · rintro ⟨inside, p, rfl | member, hp⟩
            · have after : time x ≤ t ∧ t < time y := hp.2
              omega
            · exact Or.inr ⟨inside, p, member, hp⟩
          · rintro (between | ⟨inside, p, member, hp⟩)
            · exact ⟨by omega, (x, y), Or.inl rfl, good, show time x ≤ t by omega, show t < time y by omega⟩
            · exact ⟨inside, p, Or.inr member, hp⟩
        have apart : Disjoint (Finset.Ico (max (time x) first) (min (time y) last))
            ((Finset.Ico first last).filter (Covered time wanted (y :: rest))) := by
          rw [Finset.disjoint_left]
          intro t between covered
          obtain ⟨p, member, -, after, -⟩ := (Finset.mem_filter.mp covered).2
          have start := (pairs_later tail member).1
          have upper := (Finset.mem_Ico.mp between).2
          omega
        rw [split, Finset.card_union_of_disjoint apart, Int.card_Ico, List.filter_cons_of_pos good, List.map_cons,
          List.sum_cons, ← ih tail, Nat.cast_add]
        have length : ((min (time y) last - max (time x) first).toNat : Int) = overlap time first last (x, y) :=
          Int.toNat_eq_max _ |>.trans (Int.max_comm _ _)
        rw [length]
      · have same : Covered time wanted (x :: y :: rest) = Covered time wanted (y :: rest) := by
          funext t
          apply propext
          constructor
          · rintro ⟨p, member, hp⟩
            rcases List.mem_cons.mp member with rfl | later
            · exact absurd hp.1 good
            · exact ⟨p, later, hp⟩
          · rintro ⟨p, member, hp⟩
            exact ⟨p, List.mem_cons_of_mem _ member, hp⟩
        rw [List.filter_cons_of_neg good, ← ih tail]
        congr 2
        exact Finset.filter_congr fun t _ => by rw [same]

end Times

end Consecutive
