import Mathlib.Data.List.Basic
import Mathlib.Logic.Function.Basic

/-! The discharge trace of `gauge_discharge_trace_model.h`: a ring of samples that gives up one
old sample, the least telling, when it is full. -/
namespace Mosaico.Host.GaugeTrace

abbrev capacity : Nat := 64

structure Sample where
  boot : UInt32 := 0
  monotonicMs : UInt64 := 0
  epoch : UInt64 := 0
  flags : UInt16 := 0
  soc : UInt16 := 0
  voltageMv : UInt16 := 0
  currentMa : Int16 := 0
  averageCurrentMa : Int16 := 0
  remainingMah : UInt16 := 0
  fullMah : UInt16 := 0
  designMah : UInt16 := 0
  operationStatus : UInt16 := 0
  batteryStatus : UInt16 := 0
  stateOfHealth : UInt16 := 0
  cycleCount : UInt16 := 0
  temperatureDeciK : UInt16 := 0
  rawCoulombMah : UInt16 := 0
  deriving DecidableEq, Inhabited

namespace Sample

def valid (s : Sample) : Bool := s.flags &&& 1 != 0

def rawCoulombValid (s : Sample) : Bool := s.flags &&& 32 != 0

def low (s : Sample) : Bool := s.valid && (decide (s.soc ≤ 15) || decide (s.voltageMv ≤ 3500))

def writable (s : Sample) : Bool := s.valid && decide (3300 ≤ s.voltageMv)

def edv (s : Sample) : Bool := s.operationStatus &&& 8 != 0

def vdq (s : Sample) : Bool := s.operationStatus &&& 16 != 0

end Sample

structure Model where
  rows : Vector Sample capacity := Vector.replicate capacity {}
  head : Nat := 0
  count : Nat := 0
  armed : Bool := false
  lowSeen : Bool := false
  finalizedChargeAfterLow : Bool := false
  chargingSamples : UInt8 := 0
  boot : UInt32 := 1
  sampled : Bool := false
  lastLow : Bool := false
  checkpointed : Bool := false
  dirty : Bool := false
  lastSampleMs : UInt64 := 0
  lastCheckpointMs : UInt64 := 0

def slot (i : Nat) : Fin capacity := Fin.ofNat capacity i

namespace Model

def start (m : Model) : Nat := m.head + capacity - m.count

def at_ (m : Model) (i : Nat) : Sample := m.rows.get (slot (m.start + i))

def items (m : Model) : List Sample := (List.range m.count).map m.at_

def due (m : Model) (now : UInt64) : Bool :=
  m.armed && (!m.sampled || decide (now - m.lastSampleMs ≥ if m.lastLow then 10000 else 60000))

end Model

/-- Which milestones the rows looked at so far have shown. -/
structure Marks where
  edv : Bool := false
  zero : Bool := false
  vdq : Bool := false
  plateau : Bool := false
  departed : Bool := false

def Marks.rank (k : Marks) (s : Sample) : Nat :=
  if s.valid then
    let rank := if !k.edv && s.edv then 240 else 0
    let rank := if !k.zero && s.soc == 0 then max rank 230 else rank
    let rank := if !k.vdq && !s.vdq then max rank 220 else rank
    if !k.plateau && s.soc == 96 then max rank 211
    else if k.plateau && !k.departed && s.soc != 96 then max rank 210
    else rank
  else 0

def Marks.step (k : Marks) (s : Sample) : Marks :=
  if s.valid then
    { edv := k.edv || s.edv
      zero := k.zero || s.soc == 0
      vdq := k.vdq || !s.vdq
      plateau := k.plateau || s.soc == 96
      departed := k.departed || (k.plateau && s.soc != 96) }
  else k

abbrev Priorities := Nat → Nat

def Priorities.raise (p : Priorities) (i v : Nat) : Priorities :=
  Function.update p i (max (p i) v)

/-- The priorities of a row, of the one before a milestone, and of both sides of a boot. -/
def rankRow (at_ : Nat → Sample) (state : Priorities × Marks) (i : Nat) : Priorities × Marks :=
  let s := at_ i
  let rank := state.2.rank s
  let p := state.1.raise i rank
  let p := if rank ≠ 0 ∧ i ≠ 0 then p.raise (i - 1) 140 else p
  let p := if i ≠ 0 ∧ (at_ (i - 1)).boot ≠ s.boot then (p.raise (i - 1) 180).raise i 180 else p
  (p, state.2.step s)

def firstOnly : Priorities := fun i => if i = 0 then 255 else 0

def priorities (at_ : Nat → Sample) (count : Nat) : Priorities :=
  ((List.range count).foldl (rankRow at_) (firstOnly, {})).1

def gapAround (at_ : Nat → Sample) (i : Nat) : UInt64 :=
  let before := at_ (i - 1)
  let after := at_ (i + 1)
  if before.boot = after.boot then after.monotonicMs - before.monotonicMs else 0

def better (at_ : Nat → Sample) (p : Priorities) (best : Nat × UInt64) (i : Nat) :
    Nat × UInt64 :=
  let gap := gapAround at_ i
  if p i < p best.1 ∨ (p i = p best.1 ∧ gap ≤ best.2) then (i, gap) else best

def victim (at_ : Nat → Sample) (count : Nat) : Nat :=
  let p := priorities at_ count
  ((List.range' 1 (capacity / 2)).foldl (better at_ p) (1, 0xFFFFFFFFFFFFFFFF)).1

def moveRow (start : Nat) (rows : Vector Sample capacity) (i : Nat) : Vector Sample capacity :=
  rows.set (slot (start + i)) (rows.get (slot (start + i + 1)))

namespace Model

def compactOldest (m : Model) : Model :=
  let v := victim m.at_ m.count
  { m with
    rows := (List.range' v (m.count - 1 - v)).foldl (moveRow m.start) m.rows
    head := (m.head + capacity - 1) % capacity
    count := m.count - 1 }

def push (m : Model) (s : Sample) : Model :=
  { m with
    rows := m.rows.set (slot m.head) s
    head := (m.head + 1) % capacity
    count := if m.count < capacity then m.count + 1 else m.count }

/-- Two samples that charge after a low one end the trace. -/
def watchCharge (m : Model) (s : Sample) : Model :=
  if s.valid then
    let lowSeen := m.lowSeen || ((decide (s.soc ≤ 5) || decide (s.voltageMv ≤ 3500)) &&
      (decide (s.currentMa < 0) || decide (s.averageCurrentMa < 0)))
    if lowSeen && decide (s.currentMa > 5) then
      let charging := if m.chargingSamples < 2 then m.chargingSamples + 1 else m.chargingSamples
      if charging ≥ 2 then
        { m with
          lowSeen := lowSeen, chargingSamples := charging, armed := false
          finalizedChargeAfterLow := true }
      else { m with lowSeen := lowSeen, chargingSamples := charging }
    else { m with lowSeen := lowSeen, chargingSamples := 0 }
  else { m with chargingSamples := 0 }

def append (m : Model) (s : Sample) : Model :=
  let m := if m.count = capacity then m.compactOldest else m
  let m := (m.push { s with boot := m.boot }).watchCharge s
  { m with
    sampled := true, lastSampleMs := s.monotonicMs, dirty := true
    lastLow := if s.valid then s.low else m.lastLow }

def checkpointDue (m : Model) (now : UInt64) : Bool :=
  m.dirty && m.lastLow && (!m.checkpointed || decide (now - m.lastCheckpointMs ≥ 60000))

def attempted (m : Model) (now : UInt64) : Model :=
  { m with checkpointed := true, lastCheckpointMs := now }

end Model

end Mosaico.Host.GaugeTrace
