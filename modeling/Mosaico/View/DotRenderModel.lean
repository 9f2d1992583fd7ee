import Mathlib.Data.List.Basic
import Mathlib.Data.List.Range
import Mathlib.Algebra.Group.Int.Defs

/-! `dot_patterns.h`, `dot_render_model.h` and the meters of `dot_widgets.cpp`: where the dots are, what
colour they have, and which part of a meter is drawn again when its phase moves on. -/
namespace Mosaico.View

/-! ## Layout -/

/-- `phase % 360`. -/
def turn (phase : UInt16) : Int := phase.toNat % 360

def cosine : List Int := [1000, 985, 940, 866, 766, 643, 500, 342, 174, 0]

def flipAngle (phase : Int) : Int :=
  let sign : Int := if 90 ≤ phase ∧ phase ≤ 270 then -1 else 1
  let phase := if 180 < phase then 360 - phase else phase
  let phase := if 90 < phase then 180 - phase else phase
  let index := (phase.tdiv 10).toNat
  let value := if index = 9 then 0
    else cosine.getD index 0 + ((cosine.getD (index + 1) 0 - cosine.getD index 0) * phase.tmod 10).tdiv 10
  sign * value

def flipScale (rawPhase : UInt16) : Int := flipAngle (turn rawPhase)

def pulse (phase : UInt16) : Int :=
  let p : Int := phase.toNat % 180
  ((if p ≤ 90 then p else 180 - p) * 80).tdiv 90

structure Grid where
  rows : Int
  columns : Int
  pitch : Int
  diameter : Int
  width : Int
  height : Int
  x : Int
  y : Int

def meterLayout (w h requestedRows : Int) : Grid :=
  let rows := min 4 (max 1 requestedRows)
  let p := min 8 (h.tdiv rows)
  let cols := if 2 ≤ p then min ((200 : Int).tdiv rows) (w.tdiv p) else 0
  let d := if cols ≠ 0 then max 1 ((p * 7).tdiv 10) else 0
  let width := if cols ≠ 0 then (cols - 1) * p + d else 0
  let height := if cols ≠ 0 then (rows - 1) * p + d else 0
  let top := max ((h - height).tdiv 2) (min 3 (h - height))
  ⟨rows, cols, p, d, width, height, (w - width).tdiv 2, top⟩

def filledDots (total : Int) (bp : UInt16) : Int := (total * min 10000 bp.toNat + 5000).tdiv 10000

def meterLit (column row : Int) (g : Grid) (bp : UInt16) (known : Bool) : Bool :=
  if known then column * g.rows + row < filledDots (g.columns * g.rows) bp else (column + row).tmod 2 == 0

def wavePosition (columns : Int) (phase : UInt16) : Int :=
  if columns = 0 then 0
  else
    let circumference := columns * 256
    let position := (columns - 1) * 256 - (turn phase * circumference).tdiv 360
    if position < 0 then position + circumference else position

/-! ## Colour -/

inductive SweepStyle where
  | strongDark | mildDark
  deriving DecidableEq

def channel (color shift : UInt32) : Int := ((color >>> shift) &&& 255).toNat

def perChannel (value : UInt32 → Int) : UInt32 :=
  [0, 8, 16].foldl (fun out shift => out ||| UInt32.ofInt (value shift) <<< shift) 0

def blendWhite (color : UInt32) (mix : Int) : UInt32 :=
  let mix := max 0 (min 255 mix)
  perChannel fun shift => channel color shift + ((255 - channel color shift) * mix + 127).tdiv 255

def blend (a b : UInt32) (amount : Int) : UInt32 :=
  let amount := max 0 (min 255 amount)
  perChannel fun shift => (channel a shift * (255 - amount) + channel b shift * amount + 127).tdiv 255

def luma (color : UInt32) : Int := (channel color 16 * 54 + channel color 8 * 183 + channel color 0 * 19).tdiv 256

def darkSkirt (color : UInt32) (style : SweepStyle) : UInt32 :=
  let gray := luma color
  let desaturate : Int := if style = .strongDark then 220 else 140
  let gain : Int := if style = .strongDark then 128 else 176
  let out := perChannel fun shift =>
    ((channel color shift * (255 - desaturate) + gray * desaturate + 127).tdiv 255 * gain).tdiv 255
  let floor := max 0 (72 - luma out)
  if floor ≠ 0 then perChannel fun shift => min 255 (channel out shift + floor) else out

def sweepColor (color : UInt32) (distance256 : Int) (style : SweepStyle) : UInt32 :=
  let distance := if distance256 < 0 then -distance256 else distance256
  if 640 ≤ distance then color
  else if distance ≤ 128 then blendWhite color (232 - (distance * 52).tdiv 128)
  else
    let skirt := darkSkirt color style
    if distance ≤ 256 then blend (blendWhite color 180) skirt (((distance - 128) * 255).tdiv 128)
    else if distance ≤ 384 then skirt
    else blend skirt color (((distance - 384) * 255).tdiv 256)

def filledOf (g : Grid) (bp : UInt16) (known : Bool) : Int := if known then filledDots (g.columns * g.rows) bp else 0

def meterColumnColor (g : Grid) (bp : UInt16) (known : Bool) (phase : UInt16) (enabled : Bool) (column : Int)
    (color : UInt32) (style : SweepStyle) : UInt32 :=
  let filled := filledOf g bp known
  let columns := if filled ≠ 0 then (filled + g.rows - 1).tdiv g.rows else 0
  if !enabled || columns == 0 || column < 0 || columns ≤ column then color
  else if columns = 1 then blendWhite color (48 + (pulse phase * 184).tdiv 80)
  else
    let circumference := columns * 256
    let distance := column * 256 - wavePosition columns phase
    let distance := if distance < 0 then -distance else distance
    sweepColor color (min distance (circumference - distance)) style

/-! ## Meters -/

structure Dot where
  x : Int
  y : Int
  diameter : Int
  color : UInt32

def unknownColor : UInt32 := 0x69716D

def unlitColor : UInt32 := 0x283642

def columnDots (g : Grid) (bp : UInt16) (known : Bool) (foreground : UInt32) (x : Nat) : List Dot :=
  (List.range g.rows.toNat).map fun y : Nat =>
    ⟨g.x + x * g.pitch, g.y + y * g.pitch, g.diameter, if meterLit x y g bp known then foreground else unlitColor⟩

def sampleMeter (w h rows : Int) (bp : UInt16) (known : Bool) (phase : UInt16) (enabled : Bool) (color : UInt32)
    (style : SweepStyle) : List Dot :=
  let g := meterLayout w h rows
  (List.range g.columns.toNat).flatMap fun x : Nat =>
    columnDots g bp known (if known then meterColumnColor g bp known phase enabled x color style else unknownColor) x

/-- Inclusive. -/
structure DirtyRect where
  x1 : Int
  y1 : Int
  x2 : Int
  y2 : Int

/-- The columns from `run` to `last`, with a pixel around them. -/
def runRect (g : Grid) (run last : Int) : DirtyRect :=
  ⟨g.x + run * g.pitch - 1, g.y - 1, g.x + last * g.pitch + g.diameter, g.y + g.height⟩

def addRect : List DirtyRect → DirtyRect → List DirtyRect
  | [first, second], rect => [first, { second with x2 := rect.x2 }]
  | rects, rect => rects ++ [rect]

def scanColumn (g : Grid) (changed : Nat → Bool) (s : Option Nat × List DirtyRect) (x : Nat) :
    Option Nat × List DirtyRect :=
  match s.1 with
  | none => if changed x then (some x, s.2) else s
  | some run => if changed x then s else (none, addRect s.2 (runRect g run ((x : Int) - 1)))

def meterDirtyRegions (w h rows : Int) (bp : UInt16) (known : Bool) (before : UInt16) (beforeEnabled : Bool)
    (after : UInt16) (afterEnabled : Bool) (color : UInt32) (alsoStaticBefore : Bool) : List DirtyRect :=
  let g := meterLayout w h rows
  let filled := filledOf g bp known
  if filled = 0 then []
  else
    let changed (x : Nat) : Bool :=
      let next := meterColumnColor g bp known after afterEnabled x color .strongDark
      x * g.rows < filled && (meterColumnColor g bp known before beforeEnabled x color .strongDark != next ||
        (alsoStaticBefore && next != color))
    ((List.range (g.columns + 1).toNat).foldl (scanColumn g changed) (none, [])).2

/-- The state of a meter widget. `meterPhase` and `meterMotion` are those of the last phase that was shown
in motion. -/
structure Meter where
  rows : Int := 3
  color : UInt32 := 0x67E7AE
  bp : UInt16 := 0
  known : Bool := false
  phase : UInt16 := 0
  motion : Bool := false
  meterPhase : UInt16 := 0
  meterMotion : Bool := false

def createMeter (rows : Int) : Meter := { rows := min 4 (max 1 rows) }

/-- What `DRAW_MAIN` draws. -/
def Meter.draws (s : Meter) (w h : Int) : List Dot :=
  sampleMeter w h s.rows s.bp s.known s.phase s.motion s.color .strongDark

/-- The new state and the areas to be drawn again; nothing is when the motion stops. -/
def setMotion (w h : Int) (s : Meter) (phase : UInt16) (enabled : Bool) : Meter × List DirtyRect :=
  let phase := phase % 360
  if s.phase = phase ∧ s.motion = enabled then (s, [])
  else
    let next := { s with phase := phase, motion := enabled }
    if !enabled then (next, [])
    else
      ({ next with meterPhase := phase, meterMotion := enabled },
        meterDirtyRegions w h s.rows s.bp s.known s.meterPhase s.meterMotion phase enabled s.color
          (!s.motion && s.meterMotion))

def setMeter (s : Meter) (bp : UInt16) (known : Bool) (color : UInt32) : Meter × Bool :=
  let bp := if known then min 10000 bp else 0
  if s.bp = bp ∧ s.known = known ∧ s.color = color then (s, false)
  else ({ s with bp := bp, known := known, color := color }, true)

/-! ## Icons -/

inductive Accent where
  | resetCard | quota | coin | refresh
  deriving DecidableEq

def glyphRows : Char → List Nat
  | 'R' => [30, 17, 17, 30, 20, 18, 17]
  | _ => [14, 17, 16, 16, 16, 17, 14]

def glyphPixel (glyph : Char) (x y : Int) : Bool :=
  if x < 0 || 5 ≤ x || y < 0 || 7 ≤ y then false
  else ((glyphRows glyph).getD y.toNat 0).testBit (4 - x).toNat

def topRefreshArc (x y : Int) : Bool :=
  let radius := (x - 7) * (x - 7) + (y - 7) * (y - 7)
  let arc := 32 ≤ radius && radius ≤ 40 && y ≤ 6 && !(x ≤ 2 && 5 ≤ y)
  arc || (x == 10 && y == 6) || (x == 11 && y == 7) || (x == 12 && y == 8) || (x == 13 && y == 7) ||
    (x == 14 && y == 6)

def iconGrid (icon : Accent) : Nat := if icon = .refresh then 15 else 13

def iconPixel (icon : Accent) (x y : Int) : Bool :=
  match icon with
  | .refresh => topRefreshArc x y || topRefreshArc (14 - x) (14 - y)
  | .coin =>
    let radius := (x - 6) * (x - 6) + (y - 6) * (y - 6)
    (29 ≤ radius && radius ≤ 40) || glyphPixel 'C' (x - 4) (y - 3)
  | .resetCard =>
    ((y == 0 || y == 12) && 2 ≤ x && x ≤ 10) || ((x == 0 || x == 12) && 2 ≤ y && y ≤ 10) ||
      ((y == 1 || y == 11) && (x == 1 || x == 11)) || glyphPixel 'R' (x - 4) (y - 3)
  | .quota =>
    (y == 0 && 3 ≤ x && x ≤ 9) || (y == 1 && (x == 2 || x == 10)) || (y == 2 && (x == 1 || x == 11)) ||
      ((y == 3 || y == 12) && 1 ≤ x && x ≤ 11) || (x == 1 && 4 ≤ y && y ≤ 11) ||
      (x == 11 && (y == 4 || y == 5 || y == 10 || y == 11)) || ((y == 6 || y == 9) && 7 ≤ x && x ≤ 12) ||
      ((y == 7 || y == 8) && (x == 7 || x == 9 || x == 12)) || ((y == 6 || y == 9) && 3 ≤ x && x ≤ 5)

structure IconLayout where
  grid : Int
  pitch256 : Int
  diameter : Int
  width : Int
  height : Int
  x : Int
  y : Int

def iconLayout (icon : Accent) (w h : Int) : IconLayout :=
  let n : Int := iconGrid icon
  let size := min w h
  if size < n then ⟨n, 0, 0, 0, 0, 0, 0⟩
  else
    let d := max 1 ((size * 7 + n * 5).tdiv (n * 10))
    let step := ((size - d) * 256).tdiv (n - 1)
    let span := ((n - 1) * step).tdiv 256 + d
    ⟨n, step, d, span, span, (w - span).tdiv 2, (h - span).tdiv 2⟩

def iconX (g : IconLayout) (column scale : Int) : Int :=
  let centre := ((g.grid - 1) * g.pitch256).tdiv 2
  g.x + (centre + ((column * g.pitch256 - centre) * scale).tdiv 1000).tdiv 256

def accentScale (icon : Accent) (phase : UInt16) (enabled : Bool) : Int :=
  if !enabled || (icon != .coin && icon != .resetCard) then 1000
  else if flipScale phase < 0 then -flipScale phase else flipScale phase

/-- Clockwise, from the top. -/
def refreshAngle (x y : Int) : Int :=
  let dx := x - 7
  let dy := y - 7
  let ax := if dx < 0 then -dx else dx
  let ay := if dy < 0 then -dy else dy
  let sum := ax + ay
  if sum = 0 then 0
  else if 0 ≤ dx ∧ dy < 0 then (ax * 90).tdiv sum
  else if 0 ≤ dx ∧ 0 ≤ dy then 90 + (ay * 90).tdiv sum
  else if dx < 0 ∧ 0 ≤ dy then 180 + (ax * 90).tdiv sum
  else 270 + (ay * 90).tdiv sum

def iconPointColor (icon : Accent) (x y : Int) (phase : UInt16) (enabled : Bool) (color : UInt32) : UInt32 :=
  if icon != .refresh || !enabled then color
  else
    let behind := (turn phase - refreshAngle x y + 360).tmod 360
    blendWhite color (if behind < 110 then ((110 - behind) * 220).tdiv 110 else 0)

def iconPoints (icon : Accent) : List (Nat × Nat) :=
  (List.range (iconGrid icon)).flatMap fun y : Nat =>
    ((List.range (iconGrid icon)).filter fun x : Nat => iconPixel icon x y).map fun x => (x, y)

def iconDot (icon : Accent) (g : IconLayout) (phase : UInt16) (enabled : Bool) (color : UInt32)
    (point : Nat × Nat) : Dot :=
  ⟨iconX g point.1 (accentScale icon phase enabled), g.y + (point.2 * g.pitch256).tdiv 256, g.diameter,
    iconPointColor icon point.1 point.2 phase enabled color⟩

def sampleIcon (icon : Accent) (w h : Int) (phase : UInt16) (enabled : Bool) (color : UInt32) : List Dot :=
  let g := iconLayout icon w h
  if g.diameter = 0 then [] else (iconPoints icon).map (iconDot icon g phase enabled color)

/-! ## The same in `int` -/

/-- A result that does not fit an `int` has no value. -/
def int (v : Int) : Option Int := if -2147483648 ≤ v ∧ v ≤ 2147483647 then some v else none

def iconLayoutInt (icon : Accent) (w h : Int) : Option IconLayout :=
  let n : Int := iconGrid icon
  let size := min w h
  if size < n then some ⟨n, 0, 0, 0, 0, 0, 0⟩
  else do
    let scaled ← int (size * 7)
    let rounded ← int (scaled + n * 5)
    let d := max 1 (rounded.tdiv (n * 10))
    let room ← int (size - d)
    let room256 ← int (room * 256)
    let step := room256.tdiv (n - 1)
    let width256 ← int ((n - 1) * step)
    let span ← int (width256.tdiv 256 + d)
    let left ← int (w - span)
    let top ← int (h - span)
    return ⟨n, step, d, span, span, left.tdiv 2, top.tdiv 2⟩

def iconXInt (g : IconLayout) (column scale : Int) : Option Int := do
  let width256 ← int ((g.grid - 1) * g.pitch256)
  let centre := width256.tdiv 2
  let column256 ← int (column * g.pitch256)
  let off ← int (column256 - centre)
  let scaled ← int (off * scale)
  let moved ← int (centre + scaled.tdiv 1000)
  int (g.x + moved.tdiv 256)

def iconDotInt (icon : Accent) (g : IconLayout) (phase : UInt16) (enabled : Bool) (color : UInt32)
    (point : Nat × Nat) : Option Dot := do
  let x ← iconXInt g point.1 (accentScale icon phase enabled)
  let row256 ← int (point.2 * g.pitch256)
  let y ← int (g.y + row256.tdiv 256)
  return ⟨x, y, g.diameter, iconPointColor icon point.1 point.2 phase enabled color⟩

def sampleIconInt (icon : Accent) (w h : Int) (phase : UInt16) (enabled : Bool) (color : UInt32) :
    Option (List Dot) := do
  let g ← iconLayoutInt icon w h
  if g.diameter = 0 then return [] else (iconPoints icon).mapM (iconDotInt icon g phase enabled color)

/-- Whether an icon is to be drawn again. -/
def iconChanged (icon : Accent) (w h : Int) (before : UInt16) (beforeEnabled : Bool) (after : UInt16)
    (afterEnabled : Bool) (color : UInt32) : Bool :=
  let g := iconLayout icon w h
  if g.diameter = 0 then false
  else if icon = .refresh then
    (iconPoints icon).any fun point =>
      iconPointColor icon point.1 point.2 before beforeEnabled color !=
        iconPointColor icon point.1 point.2 after afterEnabled color
  else
    let a := accentScale icon before beforeEnabled
    let b := accentScale icon after afterEnabled
    a != b && (List.range (iconGrid icon)).any fun x : Nat =>
      iconX g x a != iconX g x b && (List.range (iconGrid icon)).any fun y : Nat => iconPixel icon x y

example : luma (darkSkirt 0x67e7ae .strongDark) < luma 0x67e7ae := by decide +kernel

end Mosaico.View
