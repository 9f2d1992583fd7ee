import Mosaico.View.DotMeter

/-! An icon is drawn again exactly when it looks different, and no dot of a meter or an icon is outside its widget. -/
namespace Mosaico.View

section Changes

variable {icon : Accent} {x y : Nat}

theorem mem_iconPoints : (x, y) ∈ iconPoints icon ↔ x < iconGrid icon ∧ y < iconGrid icon ∧
    iconPixel icon x y = true := by
  simp only [iconPoints, List.mem_flatMap, List.mem_map, List.mem_filter, List.mem_range, Prod.mk.injEq]
  constructor
  · rintro ⟨b, hb, a, ⟨ha, pixel⟩, rfl, rfl⟩
    exact ⟨ha, hb, pixel⟩
  · rintro ⟨ha, hb, pixel⟩
    exact ⟨y, hb, x, ⟨ha, pixel⟩, rfl, rfl⟩

theorem accentScale_refresh (phase : UInt16) (enabled : Bool) : accentScale .refresh phase enabled = 1000 := by
  simp [accentScale]

private theorem iconPointColor_plain (h : icon ≠ .refresh) (a b : Int) (phase : UInt16) (enabled : Bool)
    (color : UInt32) : iconPointColor icon a b phase enabled color = color := by
  simp [iconPointColor, h]

/-- Two phases of an icon differ in a point's place or its colour. -/
theorem iconDot_eq_iff {g : IconLayout} {before after : UInt16} {beforeEnabled afterEnabled : Bool} {color : UInt32}
    {point : Nat × Nat} :
    iconDot icon g before beforeEnabled color point = iconDot icon g after afterEnabled color point ↔
      iconX g point.1 (accentScale icon before beforeEnabled) = iconX g point.1
        (accentScale icon after afterEnabled) ∧ iconPointColor icon point.1 point.2 before beforeEnabled color =
          iconPointColor icon point.1 point.2 after afterEnabled color := by
  simp only [iconDot, Dot.mk.injEq, true_and]

/-- The quick look is exact: it says that an icon changed just when some dot is drawn elsewhere or otherwise. -/
theorem iconChanged_iff (icon : Accent) (w h : Int) (before : UInt16) (beforeEnabled : Bool) (after : UInt16)
    (afterEnabled : Bool) (color : UInt32) :
    iconChanged icon w h before beforeEnabled after afterEnabled color = true ↔
      sampleIcon icon w h before beforeEnabled color ≠ sampleIcon icon w h after afterEnabled color := by
  unfold iconChanged sampleIcon
  dsimp only
  split
  · simp
  · rw [Ne, List.map_inj_left]
    simp only [iconDot_eq_iff]
    split
    · rename_i refresh
      subst refresh
      simp only [accentScale_refresh, true_and, List.any_eq_true, bne_iff_ne, not_forall, exists_prop]
    · rename_i plain
      simp only [iconPointColor_plain plain, and_true, Bool.and_eq_true, bne_iff_ne, List.any_eq_true, List.mem_range]
      constructor
      · rintro ⟨-, x, small, moved, y, low, pixel⟩ same
        exact moved (same (x, y) (mem_iconPoints.mpr ⟨small, low, pixel⟩))
      · intro moved
        rw [not_forall] at moved
        obtain ⟨⟨x, y⟩, moved⟩ := moved
        rw [Classical.not_imp] at moved
        obtain ⟨small, low, pixel⟩ := mem_iconPoints.mp moved.1
        refine ⟨fun same => moved.2 ?_, x, small, moved.2, y, low, pixel⟩
        rw [same]

end Changes

section Bounds

/-- Inside the widget: what `BoundsSink` checks. -/
structure Dot.Inside (w h : Int) (d : Dot) : Prop where
  diameter : 0 < d.diameter
  left : 0 ≤ d.x
  right : d.x + d.diameter ≤ w
  top : 0 ≤ d.y
  bottom : d.y + d.diameter ≤ h

private theorem flipAngle_bounded : ∀ n : Fin 360, -1000 ≤ flipAngle n.val ∧
    flipAngle n.val ≤ 1000 := by decide +kernel

private theorem flipScale_bounded (phase : UInt16) : -1000 ≤ flipScale phase ∧ flipScale phase ≤ 1000 := by
  have small : phase.toNat % 360 < 360 := Nat.mod_lt _ (by decide)
  exact flipAngle_bounded ⟨phase.toNat % 360, small⟩

theorem accentScale_bounded (icon : Accent) (phase : UInt16) (enabled : Bool) :
    0 ≤ accentScale icon phase enabled ∧ accentScale icon phase enabled ≤ 1000 := by
  have bounded := flipScale_bounded phase
  unfold accentScale
  split
  · omega
  · split <;> omega

/-- Scaling towards zero. -/
private theorem scaled_between {q scale : Int} (low : 0 ≤ scale) (high : scale ≤ 1000) :
    (0 ≤ q → 0 ≤ (q * scale).tdiv 1000 ∧ (q * scale).tdiv 1000 ≤ q) ∧
      (q ≤ 0 → q ≤ (q * scale).tdiv 1000 ∧ (q * scale).tdiv 1000 ≤ 0) := by
  constructor
  · intro positive
    have least := Int.mul_nonneg positive low
    have most := Int.mul_le_mul_of_nonneg_left high positive
    rw [Int.tdiv_eq_ediv_of_nonneg least]
    omega
  · intro negative
    have least := Int.mul_nonneg (show 0 ≤ -q by omega) low
    have most := Int.mul_le_mul_of_nonneg_left high (show 0 ≤ -q by omega)
    rw [show q * scale = -(-q * scale) by ring, Int.neg_tdiv, Int.tdiv_eq_ediv_of_nonneg least]
    omega

variable {w h : Int} {icon : Accent}

/-- The centres of an icon's dots, in 256ths of a pixel, stay between the first and the last column. -/
theorem iconX_between {g : IconLayout} {column scale : Int} (pitch : 0 ≤ g.pitch256) (first : 0 ≤ column)
    (last : column ≤ g.grid - 1) (low : 0 ≤ scale) (high : scale ≤ 1000) :
    g.x ≤ iconX g column scale ∧ iconX g column scale ≤ g.x + ((g.grid - 1) * g.pitch256).tdiv 256 := by
  have start := Int.mul_nonneg first pitch
  have finish := Int.mul_le_mul_of_nonneg_right last pitch
  unfold iconX
  dsimp only
  generalize column * g.pitch256 = at_ at start finish ⊢
  generalize (g.grid - 1) * g.pitch256 = width at finish ⊢
  have half : width.tdiv 2 = width / 2 := Int.tdiv_eq_ediv_of_nonneg (by omega)
  rw [half]
  obtain ⟨right, left⟩ := scaled_between (q := at_ - width / 2) low high
  generalize ((at_ - width / 2) * scale).tdiv 1000 = moved at right left ⊢
  have inside : 0 ≤ width / 2 + moved ∧ width / 2 + moved ≤ width := by
    rcases Int.le_total 0 (at_ - width / 2) with positive | negative
    · have := right positive
      omega
    · have := left negative
      omega
  rw [Int.tdiv_eq_ediv_of_nonneg inside.1, Int.tdiv_eq_ediv_of_nonneg (by omega)]
  omega

private theorem iconDiameter_le {size n : Int} (two : 2 ≤ n) (fits : n ≤ size) :
    max 1 ((size * 7 + n * 5).tdiv (n * 10)) ≤ size := by
  refine Int.max_le.mpr ⟨by omega, ?_⟩
  rw [Int.tdiv_eq_ediv_of_nonneg (by omega)]
  refine Int.ediv_le_of_le_mul (by omega) ?_
  have wide := Int.mul_le_mul_of_nonneg_left (show 20 ≤ n * 10 by omega) (show 0 ≤ size by omega)
  omega

/-- The dots of a row or a column fit, whatever their number. -/
private theorem iconSpan_le {size d n : Int} (two : 2 ≤ n) (fits : d ≤ size) :
    0 ≤ ((size - d) * 256).tdiv (n - 1) ∧ 0 ≤ ((n - 1) * ((size - d) * 256).tdiv (n - 1)).tdiv 256 ∧
      ((n - 1) * ((size - d) * 256).tdiv (n - 1)).tdiv 256 + d ≤ size := by
  rw [Int.tdiv_eq_ediv_of_nonneg (show 0 ≤ (size - d) * 256 by omega)]
  have step : 0 ≤ (size - d) * 256 / (n - 1) := Int.ediv_nonneg (by omega) (by omega)
  have span := Int.mul_nonneg (show 0 ≤ n - 1 by omega) step
  have most : (n - 1) * ((size - d) * 256 / (n - 1)) ≤ (size - d) * 256 := Int.mul_ediv_self_le (by omega)
  rw [Int.tdiv_eq_ediv_of_nonneg span]
  omega

/-- A drawn icon has its dots between its origin and its far side. -/
structure IconLaid (w h : Int) (icon : Accent) (g : IconLayout) : Prop where
  grid : g.grid = iconGrid icon
  diameter : 0 < g.diameter
  pitch : 0 ≤ g.pitch256
  x : 0 ≤ g.x
  y : 0 ≤ g.y
  right : g.x + ((g.grid - 1) * g.pitch256).tdiv 256 + g.diameter ≤ w
  bottom : g.y + ((g.grid - 1) * g.pitch256).tdiv 256 + g.diameter ≤ h

theorem iconLayout_laid (drawn : (iconLayout icon w h).diameter ≠ 0) : IconLaid w h icon (iconLayout icon w h) := by
  have two : (2 : Int) ≤ iconGrid icon := by
    unfold iconGrid
    split <;> omega
  have fits : ¬min w h < (iconGrid icon : Int) := by
    intro small
    refine drawn ?_
    unfold iconLayout
    dsimp only
    rw [if_pos small]
  have small := iconDiameter_le two (Int.not_lt.mp fits)
  obtain ⟨step, positive, span⟩ := iconSpan_le two small
  have some_ : 0 < max 1 ((min w h * 7 + (iconGrid icon : Int) * 5).tdiv ((iconGrid icon : Int) * 10)) := by omega
  have wide : min w h ≤ w := Int.min_le_left ..
  have high : min w h ≤ h := Int.min_le_right ..
  unfold iconLayout
  dsimp only
  rw [if_neg fits]
  generalize max 1 ((min w h * 7 + (iconGrid icon : Int) * 5).tdiv ((iconGrid icon : Int) * 10)) = d at *
  generalize ((min w h - d) * 256).tdiv ((iconGrid icon : Int) - 1) = pitch at *
  generalize hs : (((iconGrid icon : Int) - 1) * pitch).tdiv 256 = s at *
  have left : 0 ≤ (w - (s + d)).tdiv 2 ∧ (w - (s + d)).tdiv 2 + s + d ≤ w := by
    rw [Int.tdiv_eq_ediv_of_nonneg (by omega)]
    omega
  have top : 0 ≤ (h - (s + d)).tdiv 2 ∧ (h - (s + d)).tdiv 2 + s + d ≤ h := by
    rw [Int.tdiv_eq_ediv_of_nonneg (by omega)]
    omega
  exact ⟨rfl, some_, step, left.1, top.1, hs ▸ left.2, hs ▸ top.2⟩

theorem sampleIcon_inside (icon : Accent) (w h : Int) (phase : UInt16) (enabled : Bool) (color : UInt32) :
    ∀ d ∈ sampleIcon icon w h phase enabled color, d.Inside w h := by
  intro d mem
  unfold sampleIcon at mem
  dsimp only at mem
  split at mem
  · cases mem
  · rename_i drawn
    have laid := iconLayout_laid drawn
    obtain ⟨⟨x, y⟩, point, rfl⟩ := List.mem_map.mp mem
    obtain ⟨right, low, -⟩ := mem_iconPoints.mp point
    obtain ⟨least, most⟩ := accentScale_bounded icon phase enabled
    have across := iconX_between laid.pitch (show (0 : Int) ≤ x by omega) (by rw [laid.grid]; omega) least most
    have down := Int.mul_le_mul_of_nonneg_right
        (show (y : Int) ≤ (iconLayout icon w h).grid - 1 by rw [laid.grid]; omega)
      laid.pitch
    have start := Int.mul_nonneg (show (0 : Int) ≤ y by omega) laid.pitch
    have bottom := laid.bottom
    have far := laid.right
    refine ⟨laid.diameter, Int.le_trans laid.x across.1, ?_, ?_, ?_⟩
    · show iconX (iconLayout icon w h) x (accentScale icon phase enabled) + (iconLayout icon w h).diameter ≤ w
      omega
    · show 0 ≤ (iconLayout icon w h).y + ((y : Int) * (iconLayout icon w h).pitch256).tdiv 256
      rw [Int.tdiv_eq_ediv_of_nonneg start]
      have := laid.y
      omega
    · show (iconLayout icon w h).y + ((y : Int) * (iconLayout icon w h).pitch256).tdiv 256 +
          (iconLayout icon w h).diameter ≤ h
      rw [Int.tdiv_eq_ediv_of_nonneg start]
      rw [Int.tdiv_eq_ediv_of_nonneg (Int.le_trans start down)] at bottom
      omega

/-- A drawn meter has its rows and its columns inside the widget. -/
structure MeterLaid (w h : Int) (g : Grid) : Prop where
  diameter : 0 < g.diameter
  pitch : 0 ≤ g.pitch
  x : 0 ≤ g.x
  y : 0 ≤ g.y
  right : g.x + (g.columns - 1) * g.pitch + g.diameter ≤ w
  bottom : g.y + (g.rows - 1) * g.pitch + g.diameter ≤ h
  few : g.columns * g.rows ≤ 200

/-- As many as fit, by a truncating division. -/
private theorem whole_le {a b n : Int} (positive : 0 < b) (some_ : 0 < n) (most : n ≤ a.tdiv b) : b * n ≤ a := by
  have nonneg : 0 ≤ a := by
    by_contra negative
    have := Int.tdiv_nonneg (show 0 ≤ -a by omega) (Int.le_of_lt positive)
    rw [Int.neg_tdiv] at this
    omega
  exact Int.le_trans (Int.mul_le_mul_of_nonneg_left most (Int.le_of_lt positive)) (Int.mul_tdiv_self_le nonneg)

theorem meterLayout_inside (w h rows : Int) (some_ : 0 < (meterLayout w h rows).columns) :
    MeterLaid w h (meterLayout w h rows) := by
  have row := meterLayout_rows w h rows
  have rows4 : (meterLayout w h rows).rows ≤ 4 := Int.min_le_left ..
  have pitchDef : (meterLayout w h rows).pitch = min 8 (h.tdiv (meterLayout w h rows).rows) := rfl
  have colsDef : (meterLayout w h rows).columns = if 2 ≤ (meterLayout w h rows).pitch then
      min ((200 : Int).tdiv (meterLayout w h rows).rows) (w.tdiv (meterLayout w h rows).pitch) else 0 := rfl
  have dDef : (meterLayout w h rows).diameter = if (meterLayout w h rows).columns ≠ 0 then
      max 1 (((meterLayout w h rows).pitch * 7).tdiv 10) else 0 := rfl
  have widthDef : (meterLayout w h rows).width = if (meterLayout w h rows).columns ≠ 0 then
      ((meterLayout w h rows).columns - 1) * (meterLayout w h rows).pitch + (meterLayout w h rows).diameter
        else 0 := rfl
  have heightDef : (meterLayout w h rows).height = if (meterLayout w h rows).columns ≠ 0 then
      ((meterLayout w h rows).rows - 1) * (meterLayout w h rows).pitch + (meterLayout w h rows).diameter else 0 := rfl
  have xDef : (meterLayout w h rows).x = (w - (meterLayout w h rows).width).tdiv 2 := rfl
  have yDef : (meterLayout w h rows).y = max ((h - (meterLayout w h rows).height).tdiv 2)
      (min 3 (h - (meterLayout w h rows).height)) := rfl
  generalize meterLayout w h rows = g at *
  have pitch : 2 ≤ g.pitch := by
    by_contra small
    rw [if_neg small] at colsDef
    omega
  rw [if_pos pitch] at colsDef
  have cols : g.columns ≠ 0 := Int.ne_of_gt some_
  rw [if_pos cols] at dDef widthDef heightDef
  rw [Int.tdiv_eq_ediv_of_nonneg (by omega)] at dDef
  have tall : g.rows * g.pitch ≤ h := whole_le (by omega) (by omega) (by omega)
  have wide : g.pitch * g.columns ≤ w := whole_le (by omega) some_ (by omega)
  have few : g.rows * g.columns ≤ 200 := whole_le (by omega) some_ (by omega)
  have across : (g.columns - 1) * g.pitch = g.pitch * g.columns - g.pitch := by ring
  have down : (g.rows - 1) * g.pitch = g.rows * g.pitch - g.pitch := by ring
  have inner : 0 ≤ w - g.width := by omega
  rw [Int.tdiv_eq_ediv_of_nonneg inner] at xDef
  have upper : 0 ≤ h - g.height := by omega
  rw [Int.tdiv_eq_ediv_of_nonneg upper] at yDef
  refine ⟨by omega, by omega, by omega, by omega, by omega, by omega, ?_⟩
  rw [Int.mul_comm]
  exact few

theorem sampleMeter_inside (w h rows : Int) (bp : UInt16) (known : Bool) (phase : UInt16) (enabled : Bool)
    (color : UInt32) (style : SweepStyle) : ∀ d ∈ sampleMeter w h rows bp known phase enabled color style,
    d.Inside w h := by
  intro d mem
  unfold sampleMeter at mem
  dsimp only at mem
  obtain ⟨x, column, mem⟩ := List.mem_flatMap.mp mem
  obtain ⟨y, row, rfl⟩ := List.mem_map.mp mem
  rw [List.mem_range] at column row
  have laid := meterLayout_inside w h rows (by omega)
  have right := laid.right
  have bottom := laid.bottom
  have left := laid.x
  have top := laid.y
  have across := Int.mul_le_mul_of_nonneg_right
      (show (x : Int) ≤ (meterLayout w h rows).columns - 1 by omega) laid.pitch
  have down := Int.mul_le_mul_of_nonneg_right (show (y : Int) ≤ (meterLayout w h rows).rows - 1 by omega) laid.pitch
  have start := Int.mul_nonneg (show (0 : Int) ≤ x by omega) laid.pitch
  have begin_ := Int.mul_nonneg (show (0 : Int) ≤ y by omega) laid.pitch
  exact ⟨laid.diameter, by dsimp only; omega, by dsimp only; omega, by dsimp only; omega, by dsimp only; omega⟩

theorem sampleMeter_few (w h rows : Int) (bp : UInt16) (known : Bool) (phase : UInt16) (enabled : Bool)
    (color : UInt32) (style : SweepStyle) :
    (sampleMeter w h rows bp known phase enabled color style).length ≤ 200 := by
  have each (x : Nat) (foreground : UInt32) :
      (columnDots (meterLayout w h rows) bp known foreground x).length = (meterLayout w h rows).rows.toNat := by
    rw [columnDots, List.length_map, List.length_range]
  unfold sampleMeter
  dsimp only
  simp only [List.length_flatMap, each, List.map_const', List.length_range, List.sum_replicate_nat]
  by_cases some_ : 0 < (meterLayout w h rows).columns
  · have few := (meterLayout_inside w h rows some_).few
    have row := meterLayout_rows w h rows
    rw [← Int.toNat_mul (by omega) (by omega)]
    omega
  · rw [show (meterLayout w h rows).columns.toNat = 0 by omega, Nat.zero_mul]
    exact Nat.zero_le _

private theorem iconPoints_few (icon : Accent) : (iconPoints icon).length ≤ 225 := by
  cases icon <;> decide +kernel

theorem sampleIcon_few (icon : Accent) (w h : Int) (phase : UInt16) (enabled : Bool) (color : UInt32) :
    (sampleIcon icon w h phase enabled color).length ≤ 225 := by
  unfold sampleIcon
  dsimp only
  split
  · exact Nat.zero_le _
  · rw [List.length_map]
    exact iconPoints_few icon

/-- A widget of a size at which the `int` of `iconX` does not overflow. -/
abbrev Narrow (w h : Int) : Prop := (-16384 ≤ w ∧ w ≤ 16384) ∧ (-16384 ≤ h ∧ h ≤ 16384)

theorem int_some {v : Int} (low : -2147483648 ≤ v) (high : v ≤ 2147483647) : int v = some v := if_pos ⟨low, high⟩

theorem int_bind {α : Type} {v : Int} {f : Int → Option α} (low : -2147483648 ≤ v) (high : v ≤ 2147483647) :
    (int v >>= f) = f v := by
  rw [int_some low high]
  rfl

theorem iconLayoutInt_eq (narrow : Narrow w h) : iconLayoutInt icon w h = some (iconLayout icon w h) := by
  obtain ⟨⟨-, right⟩, -, bottom⟩ := narrow
  have two : (13 : Int) ≤ iconGrid icon ∧ (iconGrid icon : Int) ≤ 15 := by
    unfold iconGrid
    split <;> omega
  unfold iconLayoutInt iconLayout
  dsimp only
  generalize (iconGrid icon : Int) = n at two ⊢
  split
  · rfl
  · rename_i fits
    have sizes : n ≤ min w h ∧ min w h ≤ 16384 := by omega
    have small := iconDiameter_le (show 2 ≤ n by omega) sizes.1
    have some_ : 1 ≤ max 1 ((min w h * 7 + n * 5).tdiv (n * 10)) := Int.le_max_left ..
    obtain ⟨step, positive, span⟩ := iconSpan_le (show 2 ≤ n by omega) small
    rw [int_bind (v := min w h * 7) (by omega) (by omega)]
    rw [int_bind (v := min w h * 7 + n * 5) (by omega) (by omega)]
    generalize max 1 ((min w h * 7 + n * 5).tdiv (n * 10)) = d at *
    rw [int_bind (v := min w h - d) (by omega) (by omega)]
    rw [int_bind (v := (min w h - d) * 256) (by omega) (by omega)]
    generalize ((min w h - d) * 256).tdiv (n - 1) = pitch at *
    have across := Int.mul_nonneg (show 0 ≤ n - 1 by omega) step
    generalize (n - 1) * pitch = width at *
    rw [Int.tdiv_eq_ediv_of_nonneg across] at *
    rw [int_bind (v := width) (by omega) (by omega)]
    rw [Int.tdiv_eq_ediv_of_nonneg across, int_bind (v := width / 256 + d) (by omega) (by omega)]
    rw [int_bind (v := w - (width / 256 + d)) (by omega) (by omega)]
    rw [int_bind (v := h - (width / 256 + d)) (by omega) (by omega)]
    rfl

private theorem scaled_reach {q n scale : Int} (near : -n ≤ q) (far : q ≤ n) (low : 0 ≤ scale)
    (high : scale ≤ 1000) : -(n * 1000) ≤ q * scale ∧ q * scale ≤ n * 1000 := by
  have most := Int.mul_le_mul_of_nonneg_right far low
  have least := Int.mul_le_mul_of_nonneg_right near low
  have wide := Int.mul_le_mul_of_nonneg_left high (show 0 ≤ n by omega)
  rw [Int.neg_mul] at least
  omega

theorem iconXInt_eq {g : IconLayout} {column scale : Int} (pitch : 0 ≤ g.pitch256) (first : 0 ≤ column)
    (last : column ≤ g.grid - 1) (low : 0 ≤ scale) (high : scale ≤ 1000) (start : 0 ≤ g.x)
    (finish : g.x + ((g.grid - 1) * g.pitch256).tdiv 256 ≤ 16384) :
    iconXInt g column scale = some (iconX g column scale) := by
  obtain ⟨least, most⟩ := iconX_between pitch first last low high
  have begin_ := Int.mul_nonneg first pitch
  have end_ := Int.mul_le_mul_of_nonneg_right last pitch
  unfold iconX at least most ⊢
  unfold iconXInt
  dsimp only at least most ⊢
  generalize column * g.pitch256 = at_ at *
  generalize (g.grid - 1) * g.pitch256 = width at *
  rw [Int.tdiv_eq_ediv_of_nonneg (show 0 ≤ width by omega)] at finish most
  rw [Int.tdiv_eq_ediv_of_nonneg (show 0 ≤ width by omega)] at least most ⊢
  rw [int_bind (v := width) (by omega) (by omega)]
  rw [Int.tdiv_eq_ediv_of_nonneg (show 0 ≤ width by omega), int_bind (v := at_) (by omega) (by omega)]
  rw [int_bind (v := at_ - width / 2) (by omega) (by omega)]
  -- The farthest column is half the width away, and the scale is in thousandths.
  obtain ⟨near, far⟩ := scaled_reach (q := at_ - width / 2) (n := 2097280) (by omega) (by omega) low high
  obtain ⟨right, left⟩ := scaled_between (q := at_ - width / 2) low high
  rw [int_bind (v := (at_ - width / 2) * scale) (by omega) (by omega)]
  generalize ((at_ - width / 2) * scale).tdiv 1000 = moved at *
  rw [int_bind (v := width / 2 + moved) (by omega) (by omega)]
  exact int_some (by omega) (by omega)

private theorem mapM_of_each {α β : Type} {f : α → Option β} {g : α → β} {xs : List α}
    (each : ∀ a ∈ xs, f a = some (g a)) : xs.mapM f = some (xs.map g) := by
  induction xs with
  | nil => rfl
  | cons a xs ih =>
    rw [List.mapM_cons, each a List.mem_cons_self, ih fun b mem => each b (List.mem_cons_of_mem _ mem)]
    rfl

theorem iconDotInt_eq {g : IconLayout} {point : Nat × Nat} (laid : IconLaid w h icon g) (narrow : Narrow w h)
    (drawn : point ∈ iconPoints icon) (phase : UInt16) (enabled : Bool) (color : UInt32) :
    iconDotInt icon g phase enabled color point = some (iconDot icon g phase enabled color point) := by
  obtain ⟨x, y⟩ := point
  obtain ⟨right, low, -⟩ := mem_iconPoints.mp drawn
  obtain ⟨⟨-, wide⟩, -, tall⟩ := narrow
  obtain ⟨least, most⟩ := accentScale_bounded icon phase enabled
  have far := laid.right
  have bottom := laid.bottom
  have thick := laid.diameter
  have top := laid.y
  have column : (x : Int) ≤ g.grid - 1 := by
    rw [laid.grid]
    omega
  have row : (y : Int) ≤ g.grid - 1 := by
    rw [laid.grid]
    omega
  have down := Int.mul_le_mul_of_nonneg_right row laid.pitch
  have start := Int.mul_nonneg (show (0 : Int) ≤ y by omega) laid.pitch
  unfold iconDotInt iconDot
  dsimp only
  rw [iconXInt_eq laid.pitch (Int.natCast_nonneg x) column least most laid.x (by omega)]
  rw [Int.tdiv_eq_ediv_of_nonneg (Int.le_trans start down)] at bottom
  refine (int_bind (v := (y : Int) * g.pitch256) (by omega) (by omega)).trans ?_
  rw [Int.tdiv_eq_ediv_of_nonneg start]
  exact int_bind (by omega) (by omega)

/-- At such a size the dots of an icon are the ones that `int` gives. -/
theorem sampleIconInt_eq (icon : Accent) (narrow : Narrow w h) (phase : UInt16) (enabled : Bool) (color : UInt32) :
    sampleIconInt icon w h phase enabled color = some (sampleIcon icon w h phase enabled color) := by
  unfold sampleIconInt sampleIcon
  rw [iconLayoutInt_eq narrow]
  simp only [Option.bind_eq_bind, Option.bind_some]
  split
  · rfl
  · rename_i drawn
    exact mapM_of_each fun point mem => iconDotInt_eq (iconLayout_laid drawn) narrow mem phase enabled color

/-- No dot is drawn outside the content of its widget, and there are few of them; the `int` that places the dots of an
icon is the integer up to a size. -/
theorem dots_inside (w h rows : Int) (bp : UInt16) (known : Bool) (icon : Accent) (phase : UInt16) (enabled : Bool)
    (color : UInt32) (style : SweepStyle) :
    ((∀ d ∈ sampleMeter w h rows bp known phase enabled color style, d.Inside w h) ∧
      (sampleMeter w h rows bp known phase enabled color style).length ≤ 200) ∧
    ((∀ d ∈ sampleIcon icon w h phase enabled color, d.Inside w h) ∧
      (sampleIcon icon w h phase enabled color).length ≤ 225) ∧
    (Narrow w h → sampleIconInt icon w h phase enabled color = some (sampleIcon icon w h phase enabled color)) :=
  ⟨⟨sampleMeter_inside w h rows bp known phase enabled color style,
    sampleMeter_few w h rows bp known phase enabled color style⟩,
    ⟨sampleIcon_inside icon w h phase enabled color, sampleIcon_few icon w h phase enabled color⟩,
    fun narrow => sampleIconInt_eq icon narrow phase enabled color⟩

/-- The refresh icon at 88 pixels, in motion. -/
theorem dots_inside_refresh : ∃ dots, sampleIconInt .refresh 88 88 60 true 0xe9c46a = some dots ∧
    (∀ d ∈ dots, d.Inside 88 88) ∧ 0 < dots.length ∧ dots.length ≤ 225 := by
  obtain ⟨-, ⟨inside, few⟩, exact_⟩ := dots_inside 88 88 3 5000 true .refresh 60 true 0xe9c46a .strongDark
  refine ⟨_, exact_ (by decide), inside, ?_, few⟩
  decide +kernel

end Bounds

end Mosaico.View
