import Mosaico.View.DotRenderModel
import Mathlib.Tactic.Linarith
import Mathlib.Tactic.Ring

/-! A meter that is drawn again only where its colours change always shows what a full drawing would. -/
namespace Mosaico.View

variable {g : Grid} {changed : Nat → Bool}

/-! ## The dirty regions cover every column that changes -/

/-- A region that has the dots of a column, and a pixel around them. -/
structure Spans (g : Grid) (r : DirtyRect) (c : Nat) : Prop where
  left : r.x1 ≤ g.x + c * g.pitch - 1
  right : g.x + c * g.pitch + g.diameter ≤ r.x2
  top : r.y1 = g.y - 1
  bottom : r.y2 = g.y + g.height

theorem addRect_length {rects : List DirtyRect} (few : rects.length ≤ 2) (r : DirtyRect) :
    (addRect rects r).length ≤ 2 := by
  unfold addRect
  split
  · exact Nat.le_refl 2
  · rename_i other
    rw [List.length_append, List.length_singleton]
    rcases Nat.lt_or_eq_of_le few with less | two
    · omega
    · obtain ⟨a, b, rfl⟩ := List.length_eq_two.mp two
      exact absurd rfl (other a b)

/-- What is there after a region was added: an old one, wider perhaps, or the new one. -/
theorem mem_addRect {rects : List DirtyRect} {r s : DirtyRect} (h : s ∈ addRect rects r) :
    s ∈ rects ∨ s = r ∨ ∃ old ∈ rects, s = { old with x2 := r.x2 } := by
  unfold addRect at h
  split at h
  · rename_i first second
    rcases List.mem_pair.mp h with rfl | rfl
    · exact Or.inl List.mem_cons_self
    · exact Or.inr (Or.inr ⟨second, by simp, rfl⟩)
  · rcases List.mem_append.mp h with old | new
    · exact Or.inl old
    · exact Or.inr (Or.inl (List.mem_singleton.mp new))

theorem addRect_keeps {rects : List DirtyRect} {r s : DirtyRect} {c : Nat} (wider : ∀ old ∈ rects, old.x2 ≤ r.x2)
    (mem : s ∈ rects) (spans : Spans g s c) : ∃ s' ∈ addRect rects r, Spans g s' c := by
  unfold addRect
  split
  · rename_i first second
    rcases List.mem_pair.mp mem with rfl | rfl
    · exact ⟨s, List.mem_cons_self, spans⟩
    · exact ⟨{ s with x2 := r.x2 }, by simp, { spans with right := Int.le_trans spans.right (wider s mem) }⟩
  · exact ⟨s, List.mem_append_left _ mem, spans⟩

theorem addRect_adds {rects : List DirtyRect} {r : DirtyRect} {c : Nat} (before : ∀ old ∈ rects, old.x1 ≤ r.x1)
    (same : ∀ old ∈ rects, old.y1 = r.y1 ∧ old.y2 = r.y2) (spans : Spans g r c) :
    ∃ s ∈ addRect rects r, Spans g s c := by
  unfold addRect
  split
  · rename_i first second
    have mem : second ∈ [first, second] := by simp
    obtain ⟨top, bottom⟩ := same second mem
    exact ⟨{ second with x2 := r.x2 }, by simp, Int.le_trans (before second mem) spans.left, spans.right,
      top.trans spans.top, bottom.trans spans.bottom⟩
  · exact ⟨r, by simp, spans⟩

/-- After the first `k` columns. -/
structure Scanned (g : Grid) (changed : Nat → Bool) (k : Nat) (s : Option Nat × List DirtyRect) : Prop where
  covered : ∀ c, c < k → changed c = true → (∃ run, s.1 = some run ∧ run ≤ c) ∨ ∃ r ∈ s.2, Spans g r c
  begun : ∀ run, s.1 = some run → run < k
  few : s.2.length ≤ 2
  left : ∀ r ∈ s.2, r.x1 ≤ g.x + (s.1.getD k : Nat) * g.pitch - 1
  right : ∀ r ∈ s.2, r.x2 ≤ g.x + ((k : Int) - 1) * g.pitch + g.diameter
  rows : ∀ r ∈ s.2, r.y1 = g.y - 1 ∧ r.y2 = g.y + g.height

private theorem columns_mono (positive : 0 ≤ g.pitch) {a b : Int} (h : a ≤ b) : a * g.pitch ≤ b * g.pitch :=
  Int.mul_le_mul_of_nonneg_right h positive

theorem Scanned.begin (positive : 0 ≤ g.pitch) {k : Nat} {rects : List DirtyRect}
    (h : Scanned g changed k (none, rects)) : Scanned g changed (k + 1) (some k, rects) where
  covered c small hc := by
    rcases Nat.lt_succ_iff_lt_or_eq.mp small with old | same
    · refine (h.covered c old hc).imp (fun h => ?_) id
      obtain ⟨run, bad, -⟩ := h
      cases bad
    · exact Or.inl ⟨k, rfl, Nat.le_of_eq same.symm⟩
  begun run same := by
    cases same
    exact Nat.lt_succ_self k
  few := h.few
  left := h.left
  right r mem := by
    have old := h.right r mem
    have more := columns_mono positive (show (k : Int) - 1 ≤ ((k + 1 : Nat) : Int) - 1 by omega)
    omega
  rows := h.rows

theorem Scanned.pass (positive : 0 ≤ g.pitch) {k : Nat} {s : Option Nat × List DirtyRect} (h : Scanned g changed k s)
    (either : changed k = true → ∃ run, s.1 = some run) : Scanned g changed (k + 1) s where
  covered c small hc := by
    rcases Nat.lt_succ_iff_lt_or_eq.mp small with old | same
    · exact h.covered c old hc
    · obtain ⟨run, open_⟩ := either (same ▸ hc)
      exact Or.inl ⟨run, open_, same ▸ Nat.le_of_lt (h.begun run open_)⟩
  begun run open_ := Nat.lt_succ_of_lt (h.begun run open_)
  few := h.few
  left r mem := by
    have old := h.left r mem
    cases open_ : s.1 with
    | some run =>
      rw [open_] at old
      exact old
    | none =>
      rw [open_] at old
      have more := columns_mono positive (show (k : Int) ≤ ((k + 1 : Nat) : Int) by omega)
      simp only [Option.getD_none] at old ⊢
      omega
  right r mem := by
    have old := h.right r mem
    have more := columns_mono positive (show (k : Int) - 1 ≤ ((k + 1 : Nat) : Int) - 1 by omega)
    omega
  rows := h.rows

private theorem runRect_spans (positive : 0 ≤ g.pitch) {run last c : Nat} (from_ : run ≤ c) (upTo : c ≤ last) :
    Spans g (runRect g run last) c where
  left := by
    have h := columns_mono positive (show (run : Int) ≤ c by omega)
    show g.x + run * g.pitch - 1 ≤ g.x + c * g.pitch - 1
    omega
  right := by
    have h := columns_mono positive (show (c : Int) ≤ last by omega)
    show g.x + c * g.pitch + g.diameter ≤ g.x + last * g.pitch + g.diameter
    omega
  top := rfl
  bottom := rfl

/-- A run ends: its region is added, or makes the second one wider. -/
theorem Scanned.finish (positive : 0 ≤ g.pitch) {k run : Nat} {rects : List DirtyRect}
    (h : Scanned g changed k (some run, rects)) (no : changed k = false) :
    Scanned g changed (k + 1) (none, addRect rects (runRect g run ((k : Int) - 1))) := by
  have begun := h.begun run rfl
  have last : ((k : Int) - 1) = ((k - 1 : Nat) : Int) := by omega
  have mine : ∀ old ∈ rects, old.x1 ≤ (runRect g run ((k : Int) - 1)).x1 := h.left
  have wider : ∀ old ∈ rects, old.x2 ≤ (runRect g run ((k : Int) - 1)).x2 := h.right
  have rows : ∀ r ∈ addRect rects (runRect g run ((k : Int) - 1)), r.y1 = g.y - 1 ∧ r.y2 = g.y + g.height := by
    intro r mem
    rcases mem_addRect mem with old | rfl | ⟨old, there, rfl⟩
    · exact h.rows r old
    · exact ⟨rfl, rfl⟩
    · exact h.rows old there
  have more := columns_mono positive (show ((k : Int) - 1) ≤ ((k + 1 : Nat) : Int) - 1 by omega)
  have start := columns_mono positive (show (run : Int) ≤ ((k + 1 : Nat) : Int) by omega)
  refine ⟨fun c small hc => Or.inr ?_, (fun _ bad => by cases bad), addRect_length h.few _, fun r mem => ?_,
    fun r mem => ?_, rows⟩
  · rcases Nat.lt_succ_iff_lt_or_eq.mp small with old | same
    · rcases h.covered c old hc with ⟨run', same, from_⟩ | ⟨r, mem, spans⟩
      · cases same
        refine addRect_adds mine (fun old mem => h.rows old mem) ?_
        rw [last]
        exact runRect_spans positive from_ (by omega)
      · exact addRect_keeps wider mem spans
    · rw [same, no] at hc
      cases hc
  · have first : ∀ old ∈ rects, old.x1 ≤ g.x + run * g.pitch - 1 := h.left
    simp only [Option.getD_none]
    rcases mem_addRect mem with old | rfl | ⟨old, there, rfl⟩
    · have := first r old
      omega
    · show g.x + run * g.pitch - 1 ≤ _
      omega
    · have := first old there
      show old.x1 ≤ _
      omega
  · have widest : (runRect g run ((k : Int) - 1)).x2 = g.x + ((k : Int) - 1) * g.pitch + g.diameter := rfl
    rcases mem_addRect mem with old | rfl | ⟨old, there, rfl⟩
    · have := h.right r old
      omega
    · omega
    · show (runRect g run ((k : Int) - 1)).x2 ≤ _
      omega

theorem scanned_step (positive : 0 ≤ g.pitch) {k : Nat} {s : Option Nat × List DirtyRect}
    (h : Scanned g changed k s) : Scanned g changed (k + 1) (scanColumn g changed s k) := by
  obtain ⟨open_, rects⟩ := s
  unfold scanColumn
  cases open_ with
  | none =>
    dsimp only
    split
    · exact h.begin positive
    · rename_i no
      exact h.pass positive fun yes => absurd yes no
  | some run =>
    dsimp only
    split
    · exact h.pass positive fun _ => ⟨run, rfl⟩
    · rename_i no
      exact h.finish positive (Bool.eq_false_of_not_eq_true no)

theorem scanned (positive : 0 ≤ g.pitch) (k : Nat) :
    Scanned g changed k ((List.range k).foldl (scanColumn g changed) (none, [])) := by
  induction k with
  | zero =>
    exact ⟨(fun _ bad => absurd bad (Nat.not_lt_zero _)), (fun _ bad => by cases bad), Nat.zero_le 2,
      (fun _ bad => by cases bad), (fun _ bad => by cases bad), fun _ bad => by cases bad⟩
  | succ k ih =>
    rw [List.range_succ, List.foldl_append]
    exact scanned_step positive ih

private theorem scanColumn_closed {s : Option Nat × List DirtyRect} {k : Nat} (no : changed k = false) :
    (scanColumn g changed s k).1 = none := by
  obtain ⟨open_, rects⟩ := s
  unfold scanColumn
  cases open_ with
  | none =>
    dsimp only
    rw [if_neg (by rw [no]; exact Bool.false_ne_true)]
  | some run =>
    dsimp only
    rw [if_neg (by rw [no]; exact Bool.false_ne_true)]

/-- The column past the last one never changes, so every run has ended there. -/
theorem scan_covers (positive : 0 ≤ g.pitch) {k c : Nat} (ends : changed k = false) (small : c < k)
    (hc : changed c = true) : ∃ r ∈ ((List.range (k + 1)).foldl (scanColumn g changed) (none, [])).2,
    Spans g r c := by
  have h : Scanned g changed (k + 1) _ := scanned positive (k + 1)
  rw [List.range_succ, List.foldl_append, List.foldl_cons, List.foldl_nil] at h ⊢
  rcases h.covered c (Nat.lt_succ_of_lt small) hc with ⟨run, open_, -⟩ | found
  · rw [scanColumn_closed ends] at open_
    cases open_
  · exact found

/-! ## Frames -/

structure Pixel where
  x : Int
  y : Int

def Dot.touches (d : Dot) (p : Pixel) : Bool :=
  d.x - 1 ≤ p.x && p.x ≤ d.x + d.diameter && d.y - 1 ≤ p.y && p.y ≤ d.y + d.diameter

/-- A pixel shows the dots that touch it, in the order in which they were drawn. -/
def frame (dots : List Dot) (p : Pixel) : List Dot := dots.filter (·.touches p)

def DirtyRect.has (r : DirtyRect) (p : Pixel) : Bool := r.x1 ≤ p.x && p.x ≤ r.x2 && r.y1 ≤ p.y && p.y ≤ r.y2

/-- The heights of the rows fit into the height of the meter. -/
structure Laid (g : Grid) : Prop where
  pitch : 0 ≤ g.pitch
  rows : ∀ y : Nat, y < g.rows.toNat → y * g.pitch + g.diameter ≤ g.height

variable {bp : UInt16} {known : Bool} {p : Pixel} {before after : UInt32}

/-- A pixel outside a region that spans the column sees none of its dots. -/
private theorem frame_column_outside (laid : Laid g) {r : DirtyRect} {x : Nat} (spans : Spans g r x)
    (out : r.has p = false) (foreground : UInt32) : frame (columnDots g bp known foreground x) p = [] := by
  refine List.filter_eq_nil_iff.mpr fun d mem touched => ?_
  obtain ⟨y, small, rfl⟩ := List.mem_map.mp mem
  have fits := laid.rows y (List.mem_range.mp small)
  have low : 0 ≤ (y : Int) * g.pitch := Int.mul_nonneg (by omega) laid.pitch
  simp only [Dot.touches, Bool.and_eq_true, decide_eq_true_eq] at touched
  simp only [DirtyRect.has, Bool.and_eq_false_iff, decide_eq_false_iff_not] at out
  obtain ⟨left, right, top, bottom⟩ := spans
  rcases out with ((out | out) | out) | out <;> omega

/-- Dots that are not lit do not have the colour of the column. -/
private theorem columnDots_unlit {x : Nat} (unlit : filledDots (g.columns * g.rows) bp ≤ x * g.rows) :
    columnDots g bp true before x = columnDots g bp true after x := by
  refine List.map_congr_left fun y _ => ?_
  have dark : meterLit x y g bp true = false := by
    simp only [meterLit, if_true, decide_eq_false_iff_not]
    omega
  rw [dark]
  rfl

/-- Where a region spans each column whose colour changes, pixels outside all regions see the same. -/
theorem frame_outside (laid : Laid g) {rects : List DirtyRect} {before after : Nat → UInt32}
    (covered : ∀ x, x < g.columns.toNat → x * g.rows < filledDots (g.columns * g.rows) bp → before x ≠ after x →
      ∃ r ∈ rects, Spans g r x)
    (out : ∀ r ∈ rects, r.has p = false) :
    frame ((List.range g.columns.toNat).flatMap fun x => columnDots g bp true (before x) x) p =
      frame ((List.range g.columns.toNat).flatMap fun x => columnDots g bp true (after x) x) p := by
  rw [frame, frame, List.filter_flatMap, List.filter_flatMap]
  refine List.flatMap_congr fun x mem => ?_
  by_cases same : before x = after x
  · rw [same]
  · by_cases lit : x * g.rows < filledDots (g.columns * g.rows) bp
    · obtain ⟨r, there, spans⟩ := covered x (List.mem_range.mp mem) lit same
      have none_ (f : UInt32) : frame (columnDots g bp true f x) p = [] :=
        frame_column_outside laid spans (out r there) f
      exact (none_ _).trans (none_ _).symm
    · rw [columnDots_unlit (by omega)]

section Layout

variable (w h rows : Int)

theorem meterLayout_rows : 1 ≤ (meterLayout w h rows).rows := by
  show 1 ≤ min 4 (max 1 rows)
  omega

theorem meterLayout_laid (some_ : 0 < (meterLayout w h rows).columns) : Laid (meterLayout w h rows) := by
  have cols : (meterLayout w h rows).columns ≠ 0 := Int.ne_of_gt some_
  have pitch : 2 ≤ (meterLayout w h rows).pitch := by
    by_contra small
    refine cols ?_
    show (if 2 ≤ (meterLayout w h rows).pitch then _ else (0 : Int)) = 0
    rw [if_neg small]
  have height : (meterLayout w h rows).height =
      ((meterLayout w h rows).rows - 1) * (meterLayout w h rows).pitch + (meterLayout w h rows).diameter := by
    show (if (meterLayout w h rows).columns ≠ 0 then _ else (0 : Int)) = _
    rw [if_pos cols]
    rfl
  refine ⟨by omega, fun y small => ?_⟩
  have le : (y : Int) ≤ (meterLayout w h rows).rows - 1 := by omega
  have more := Int.mul_le_mul_of_nonneg_right le (show 0 ≤ (meterLayout w h rows).pitch by omega)
  omega

private theorem filledDots_le {total : Int} (positive : 0 ≤ total) (bp : UInt16) : filledDots total bp ≤ total := by
  have most : ((min 10000 bp.toNat : Nat) : Int) ≤ 10000 := by omega
  have least : 0 ≤ ((min 10000 bp.toNat : Nat) : Int) := by omega
  have more := Int.mul_le_mul_of_nonneg_left most positive
  have nonneg := Int.mul_nonneg positive least
  rw [filledDots, Int.tdiv_eq_ediv_of_nonneg (by omega)]
  omega

end Layout

theorem meterColumnColor_still (column : Int) (phase : UInt16) (color : UInt32) (style : SweepStyle) :
    meterColumnColor g bp known phase false column color style = color := by
  simp [meterColumnColor]

/-- Pixels outside the dirty regions look as if everything had been drawn again. -/
theorem dirty_outside {w h rows : Int} {bp : UInt16} {known : Bool} {phase next : UInt16} {enabled nextEnabled : Bool}
    {color : UInt32} {alsoStatic : Bool} {p : Pixel}
    (out : ∀ r ∈ meterDirtyRegions w h rows bp known phase enabled next nextEnabled color alsoStatic,
    r.has p = false) :
    frame (sampleMeter w h rows bp known phase enabled color .strongDark) p =
        frame (sampleMeter w h rows bp known next nextEnabled color .strongDark) p ∧
      (alsoStatic = true → ∀ still, frame (sampleMeter w h rows bp known still false color .strongDark) p =
        frame (sampleMeter w h rows bp known next nextEnabled color .strongDark) p) := by
  cases known with
  | false => exact ⟨rfl, fun _ _ => rfl⟩
  | true =>
    by_cases some_ : 0 < (meterLayout w h rows).columns
    · have laid := meterLayout_laid w h rows some_
      have row := meterLayout_rows w h rows
      have full := filledDots_le (Int.mul_nonneg (Int.le_of_lt some_)
          (show 0 ≤ (meterLayout w h rows).rows by omega)) bp
      have covered (before : Nat → UInt32)
          (different : ∀ x : Nat, before x ≠
            meterColumnColor (meterLayout w h rows) bp true next nextEnabled x color .strongDark →
            meterColumnColor (meterLayout w h rows) bp true phase enabled x color .strongDark ≠
                meterColumnColor (meterLayout w h rows) bp true next nextEnabled x color .strongDark ∨
              (alsoStatic = true ∧
                meterColumnColor (meterLayout w h rows) bp true next nextEnabled x color .strongDark ≠ color))
          (x : Nat) (small : x < (meterLayout w h rows).columns.toNat)
          (lit : x * (meterLayout w h rows).rows <
            filledDots ((meterLayout w h rows).columns * (meterLayout w h rows).rows) bp)
          (apart : before x ≠ meterColumnColor (meterLayout w h rows) bp true next nextEnabled x color .strongDark) :
          ∃ r ∈ meterDirtyRegions w h rows bp true phase enabled next nextEnabled color alsoStatic,
            Spans (meterLayout w h rows) r x := by
        have filled : filledOf (meterLayout w h rows) bp true ≠ 0 := by
          show filledDots _ bp ≠ 0
          have := Int.mul_nonneg (show (0 : Int) ≤ x by omega) (show 0 ≤ (meterLayout w h rows).rows by omega)
          omega
        unfold meterDirtyRegions
        dsimp only
        rw [if_neg filled, show ((meterLayout w h rows).columns + 1).toNat =
          (meterLayout w h rows).columns.toNat + 1 by omega]
        refine scan_covers laid.pitch ?_ small ?_
        · have past : ¬(((meterLayout w h rows).columns.toNat : Int) * (meterLayout w h rows).rows <
              filledOf (meterLayout w h rows) bp true) := by
            rw [Int.toNat_of_nonneg (Int.le_of_lt some_)]
            exact Int.not_lt.mpr full
          rw [decide_eq_false past, Bool.false_and]
        · rw [decide_eq_true (show (x : Int) * (meterLayout w h rows).rows <
            filledOf (meterLayout w h rows) bp true from lit), Bool.true_and, Bool.or_eq_true, Bool.and_eq_true,
            bne_iff_ne, bne_iff_ne]
          exact different x apart
      refine ⟨frame_outside laid (covered _ fun x apart => Or.inl apart) out, fun also still => ?_⟩
      refine frame_outside laid (covered _ fun x apart => Or.inr ⟨also, fun same => apart ?_⟩) out
      rw [if_pos rfl, meterColumnColor_still, same]
    · have none_ : (meterLayout w h rows).columns.toNat = 0 := by omega
      have empty (phase : UInt16) (enabled : Bool) :
          sampleMeter w h rows bp true phase enabled color .strongDark = [] := by
        unfold sampleMeter
        dsimp only
        rw [none_]
        rfl
      simp only [empty, implies_true, and_self]

/-! ## Runs -/

/-- A meter on the screen, with the pixels that are still to be drawn. -/
structure World where
  meter : Meter
  screen : Pixel → List Dot
  pending : Pixel → Bool

inductive Event where
  | setMotion (phase : UInt16) (enabled : Bool)
  | setMeter (bp : UInt16) (known : Bool) (color : UInt32)
  /-- Something else has an area drawn again. -/
  | invalidate (area : Pixel → Bool)
  /-- An area is drawn, for whatever reason. -/
  | draw (area : Pixel → Bool)

def World.step (w h : Int) (s : World) : Event → World
  | .setMotion phase enabled =>
    let moved := setMotion w h s.meter phase enabled
    { s with meter := moved.1, pending := fun p => s.pending p || moved.2.any (·.has p) }
  | .setMeter bp known color =>
    let set := setMeter s.meter bp known color
    { s with meter := set.1, pending := fun p => s.pending p || set.2 }
  | .invalidate area => { s with pending := fun p => s.pending p || area p }
  | .draw area =>
    { s with
      screen := fun p => if area p then frame (s.meter.draws w h) p else s.screen p
      pending := fun p => s.pending p && !area p }

def World.created (rows : Int) (screen : Pixel → List Dot) : World := ⟨createMeter rows, screen, fun _ => true⟩

def World.run (w h : Int) (s : World) (events : List Event) : World := events.foldl (World.step w h) s

def Meter.lastMoving (s : Meter) (w h : Int) : List Dot :=
  sampleMeter w h s.rows s.bp s.known s.meterPhase s.meterMotion s.color .strongDark

/-- A moving meter shows its phase; a meter that has stopped may still show the last one. -/
def Shows (w h : Int) (s : Meter) (p : Pixel) (v : List Dot) : Prop :=
  v = frame (s.draws w h) p ∨ (s.motion = false ∧ s.meterMotion = true ∧ v = frame (s.lastMoving w h) p)

structure Kept (w h : Int) (s : World) : Prop where
  shows : ∀ p, s.pending p = false → Shows w h s.meter p (s.screen p)
  moving : s.meter.motion = true → s.meter.meterPhase = s.meter.phase ∧ s.meter.meterMotion = true

variable {w h : Int} {s : Meter} {v : List Dot}

/-- A still meter looks the same in every phase. -/
theorem draws_still (phase : UInt16) (still : s.motion = false) :
    s.draws w h = sampleMeter w h s.rows s.bp s.known phase false s.color .strongDark := by
  simp only [Meter.draws, sampleMeter, still, meterColumnColor_still]

/-- The motion stops: what is shown stays. -/
theorem shows_stopped (phase : UInt16) (moving : s.motion = true → s.meterPhase = s.phase ∧ s.meterMotion = true)
    (shows : Shows w h s p v) : Shows w h { s with phase := phase, motion := false } p v := by
  cases motion : s.motion with
  | false =>
    rcases shows with now | ⟨-, once, last⟩
    · refine Or.inl (now.trans ?_)
      rw [draws_still phase motion]
      rfl
    · exact Or.inr ⟨rfl, once, last⟩
  | true =>
    obtain ⟨same, once⟩ := moving motion
    rcases shows with now | ⟨bad, -⟩
    · refine Or.inr ⟨rfl, once, now.trans ?_⟩
      show frame (sampleMeter w h s.rows s.bp s.known s.phase s.motion s.color .strongDark) p =
        frame (sampleMeter w h s.rows s.bp s.known s.meterPhase s.meterMotion s.color .strongDark) p
      rw [motion, once, same]
    · rw [motion] at bad
      cases bad

/-- The motion begins or goes on: what is not drawn again shows the new phase already. -/
theorem shows_moved (phase : UInt16) (moving : s.motion = true → s.meterPhase = s.phase ∧ s.meterMotion = true)
    (shows : Shows w h s p v)
    (out : ∀ r ∈ meterDirtyRegions w h s.rows s.bp s.known s.meterPhase s.meterMotion phase true s.color
      (!s.motion && s.meterMotion), r.has p = false) :
    Shows w h { s with phase := phase, motion := true, meterPhase := phase, meterMotion := true } p v := by
  obtain ⟨last, still⟩ := dirty_outside out
  refine Or.inl ?_
  rcases shows with now | ⟨-, -, old⟩
  · cases motion : s.motion with
    | true =>
      obtain ⟨same, once⟩ := moving motion
      refine now.trans (Eq.trans ?_ last)
      rw [Meter.draws, motion, once, same]
    | false =>
      rw [now, draws_still s.meterPhase motion]
      cases once : s.meterMotion with
      | true => exact still (by rw [motion, once]; rfl) s.meterPhase
      | false =>
        rw [once] at last
        exact last
  · exact old.trans last

theorem kept_setMotion {s : World} (kept : Kept w h s) (phase : UInt16) (enabled : Bool) :
    Kept w h (s.step w h (.setMotion phase enabled)) := by
  unfold World.step setMotion
  dsimp only
  split
  · refine ⟨fun p drawn => kept.shows p ?_, kept.moving⟩
    simpa using drawn
  · cases enabled with
    | false =>
      simp only [Bool.not_false, if_true]
      refine ⟨fun p drawn => shows_stopped _ kept.moving (kept.shows p ?_), fun bad => by cases bad⟩
      simpa using drawn
    | true =>
      simp only [Bool.not_true, Bool.false_eq_true, if_false]
      refine ⟨fun p drawn => ?_, fun _ => ⟨rfl, rfl⟩⟩
      rw [Bool.or_eq_false_iff] at drawn
      refine shows_moved _ kept.moving (kept.shows p drawn.1) fun r mem => ?_
      exact Bool.eq_false_of_not_eq_true (List.any_eq_false.mp drawn.2 r mem)

private theorem kept_setMeter {s : World} (kept : Kept w h s) (bp : UInt16) (known : Bool) (color : UInt32) :
    Kept w h (s.step w h (.setMeter bp known color)) := by
  unfold World.step setMeter
  dsimp only
  generalize (if known then min 10000 bp else 0) = bp
  split
  · refine ⟨fun p drawn => kept.shows p ?_, kept.moving⟩
    simpa using drawn
  · refine ⟨fun p drawn => ?_, kept.moving⟩
    simp at drawn

theorem kept_step {s : World} (kept : Kept w h s) (event : Event) : Kept w h (s.step w h event) := by
  cases event with
  | setMotion phase enabled => exact kept_setMotion kept phase enabled
  | setMeter bp known color => exact kept_setMeter kept bp known color
  | invalidate area =>
    refine ⟨fun p drawn => kept.shows p ?_, kept.moving⟩
    exact (Bool.or_eq_false_iff.mp drawn).1
  | draw area =>
    refine ⟨fun p drawn => ?_, kept.moving⟩
    show Shows w h s.meter p (if area p then frame (s.meter.draws w h) p else s.screen p)
    split
    · exact Or.inl rfl
    · rename_i outside
      refine kept.shows p ?_
      simpa [World.step, outside] using drawn

theorem kept_run {s : World} (kept : Kept w h s) (events : List Event) : Kept w h (s.run w h events) := by
  induction events generalizing s with
  | nil => exact kept
  | cons event rest ih => exact ih (kept_step kept event)

/-- Whatever happened to the meter: a pixel that waits for no drawing shows what a full drawing would while
it moves, and when it has stopped, that or its last moving phase. -/
theorem meter_shows (w h rows : Int) (screen : Pixel → List Dot) (events : List Event) (p : Pixel)
    (drawn : ((World.created rows screen).run w h events).pending p = false) :
    let s := (World.created rows screen).run w h events
    (s.meter.motion = true → s.screen p = frame (s.meter.draws w h) p) ∧
      (s.meter.motion = false → s.screen p = frame (s.meter.draws w h) p ∨
        s.screen p = frame (s.meter.lastMoving w h) p) := by
  have created : Kept w h (World.created rows screen) := ⟨(fun _ bad => by cases bad), fun bad => by cases bad⟩
  have shows := (kept_run created events).shows p drawn
  refine ⟨fun moving => ?_, fun _ => shows.imp id fun last => last.2.2⟩
  rcases shows with now | ⟨still, -⟩
  · exact now
  · rw [moving] at still
    cases still

/-- A meter that is drawn, filled, drawn again, moved twice and drawn again in its left half. -/
def movedMeter : List Event :=
  [.draw fun _ => true, .setMeter 5000 true 0x67e7ae, .setMotion 0 true, .draw fun _ => true, .setMotion 60 true,
    .draw fun p => p.x < 99]

def movedWorld : World := (World.created 3 fun _ => []).run 198 24 movedMeter

def stoppedWorld : World := (World.created 3 fun _ => []).run 198 24 (movedMeter ++ [.setMotion 60 false])

/-- While it moves the pixel shows what a full drawing would, and so it is when the meter has stopped. -/
theorem meter_shows_moved :
    (movedWorld.meter.motion = true ∧ movedWorld.screen ⟨50, 4⟩ = frame (movedWorld.meter.draws 198 24)
      ⟨50, 4⟩) ∧
    stoppedWorld.meter.motion = false ∧
      (stoppedWorld.screen ⟨50, 4⟩ = frame (stoppedWorld.meter.draws 198 24) ⟨50, 4⟩ ∨
        stoppedWorld.screen ⟨50, 4⟩ = frame (stoppedWorld.meter.lastMoving 198 24) ⟨50, 4⟩) := by
  have moving := meter_shows 198 24 3 (fun _ => []) movedMeter ⟨50, 4⟩ (by simp [movedMeter, World.run, World.step])
  have stopped := meter_shows 198 24 3 (fun _ => []) (movedMeter ++ [.setMotion 60 false]) ⟨50, 4⟩
    (by decide +kernel)
  exact ⟨⟨rfl, moving.1 rfl⟩, rfl, stopped.2 rfl⟩

end Mosaico.View
