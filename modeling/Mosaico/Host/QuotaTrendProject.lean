import Mosaico.Host.TokenHistoryModel
import Mathlib.Data.List.Chain

/-! The weekly quota trend that `quota_trend.py` projects, as the document that carries it. -/
namespace Mosaico.Host.QuotaTrend

open TokenHistory

abbrev weekMinutes : Int := 10080
abbrev maxGapSeconds : Int := 180
abbrev offsetMinutes : Int := 480

/-- A row of the quota table. -/
structure Row where
  epoch : Int
  ident : String
  bp : Int
  reset : Int
  deriving DecidableEq, Repr

/-- An observation of the target, and how it follows the one before. -/
structure Mark where
  epoch : Int
  bp : Int
  broken : Bool
  reset : Bool

structure ProjectedPoint where
  epoch : Int
  remainingBp : Option Int := none
  breakBefore : Bool := false
  resetBefore : Bool := false
  deriving DecidableEq, Repr

structure Projection where
  available : Bool
  capturedEpoch : Int
  ageSeconds : Int
  limitId : String
  start24hEpoch : Int
  endEpoch : Int
  start7dEpoch : Int
  hours : List ProjectedPoint
  days : List ProjectedPoint

/-- One row of the loop that marks the target's observations. -/
def markRow (target : String) (state : Option Row × List Mark) (row : Row) :
    Option Row × List Mark :=
  let (previous, marked) := state
  let same := previous.any fun p => p.ident == row.ident
  let resetBefore := same && previous.any fun p => p.reset != row.reset
  let breakBefore := !same || (previous.any fun p => decide (row.epoch - p.epoch > maxGapSeconds)) ||
    resetBefore
  (some row,
    if row.ident = target then
      marked ++ [{ epoch := row.epoch, bp := row.bp, broken := breakBefore, reset := resetBefore }]
    else marked)

def mark (target : String) (eligible : List Row) : List Mark :=
  (eligible.foldl (markRow target) (none, [])).2

def offset : Int := offsetMinutes * 60

def bucket (step epoch : Int) : Int := (epoch + offset) / step

def ProjectedPoint.update (point : ProjectedPoint) (m : Mark) : ProjectedPoint where
  epoch := m.epoch
  remainingBp := some m.bp
  breakBefore := point.breakBefore || m.broken
  resetBefore := point.resetBefore || m.reset

def place (start now first step : Int) (count : Nat) (result : List ProjectedPoint) (m : Mark) :
    List ProjectedPoint :=
  if start ≤ m.epoch ∧ m.epoch ≤ now then
    let index := bucket step m.epoch - bucket step first
    if 0 ≤ index ∧ index < count then result.modify index.toNat (·.update m) else result
  else result

def slots (marked : List Mark) (now span step : Int) (count : Nat) : List ProjectedPoint :=
  let start := now - span
  let anchor := bucket step now * step - offset
  let first := anchor - (count - 1) * step
  let result := (List.range count).map fun (i : Nat) =>
    ({ epoch := max start (first + i * step) } : ProjectedPoint)
  marked.foldl (place start now first step count) result

def project (rows : List Row) (now age : Int) : Projection :=
  let eligible := rows.filter fun row => decide (row.epoch ≤ now)
  let newest := eligible.getLast?
  let target := (newest.map (·.ident)).getD ""
  let marked := mark target eligible
  let hours := slots marked now 86400 3600 25
  let days := slots marked now 604800 86400 8
  { available := days.any fun p => p.remainingBp.isSome
    capturedEpoch := (newest.map (·.epoch)).getD 0
    ageSeconds := if newest.isSome then max 0 age else 0
    limitId := target
    start24hEpoch := now - 86400
    endEpoch := now
    start7dEpoch := now - 604800
    hours := hours
    days := days }

def ProjectedPoint.document (p : ProjectedPoint) : Json :=
  .object [
    ("epoch", .number p.epoch),
    ("remaining_bp", p.remainingBp.elim .null fun bp => .number bp),
    ("break_before", .bool p.breakBefore),
    ("reset_before", .bool p.resetBefore)]

def Projection.document (p : Projection) : Json :=
  .object [
    ("version", .number (some 1)),
    ("available", .bool p.available),
    ("captured_epoch", .number p.capturedEpoch),
    ("age_seconds", .number p.ageSeconds),
    ("limit_id", .string p.limitId),
    ("duration_minutes", .number weekMinutes),
    ("timezone_offset_minutes", .number offsetMinutes),
    ("start_24h_epoch", .number p.start24hEpoch),
    ("end_epoch", .number p.endEpoch),
    ("start_7d_epoch", .number p.start7dEpoch),
    ("hours", .array (p.hours.map ProjectedPoint.document)),
    ("days", .array (p.days.map ProjectedPoint.document))]

def ProjectedPoint.stored (p : ProjectedPoint) : Point where
  epoch := p.epoch.toNat
  remainingBasisPoints := (p.remainingBp.getD 0).toNat
  valid := p.remainingBp.isSome
  breakBefore := p.breakBefore
  resetBefore := p.resetBefore

end Mosaico.Host.QuotaTrend
