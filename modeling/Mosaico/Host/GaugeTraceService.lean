import Mosaico.Host.GaugeTraceCodec

/-! The trace task of `gauge_discharge_trace.cpp`: operator commands, loads and the periodic
service, with whatever its storage and the gauge answer. -/
namespace Mosaico.Host.GaugeTrace

inductive Command where
  | none | arm | stop | clear | checkpoint | resume
  deriving DecidableEq, Repr

/-- The variables of the task; a restart sets them back. -/
structure Service where
  model : Model := {}
  ready : Bool := false
  corrupt : Bool := false
  pending : Command := .none
  lastWriteAttempt : UInt64 := 0
  nextLoadAttempt : UInt64 := 0
  writeAttempted : Bool := false

/-- `stored` has every blob that a save or a format may have left anywhere. -/
structure World where
  service : Service := {}
  clock : UInt64 := 0
  stored : List Blob := []

inductive Loaded where
  | retry | missing | unreadable
  | found (blob : Blob)

/-- A save that is not acknowledged may have taken effect. -/
inductive Saving where
  | failed | unacknowledged | acknowledged
  deriving DecidableEq, Repr

/-- What a sample takes from the gauge's telemetry. -/
structure Telemetry where
  valid : Bool := false
  capacityValid : Bool := false
  nominalConfigured : Bool := false
  reportedSoc : UInt8 := 0
  voltageMv : UInt16 := 0
  currentMa : Int16 := 0
  averageCurrentMa : Int16 := 0
  remainingMah : UInt16 := 0
  fullMah : UInt16 := 0
  designMah : UInt16 := 0
  operationStatus : UInt16 := 0
  batteryStatus : UInt16 := 0
  stateOfHealth : UInt16 := 0
  cycleCount : UInt16 := 0
  temperatureDeciK : UInt16 := 0
  temperatureValid : Bool := false
  rawCoulombMah : UInt16 := 0
  rawCoulombValid : Bool := false
  unitFactor : Int64 := 0
  unitVerified : Bool := false

/-- What a call of `service` meets; the OTA state is looked at again before a write. -/
structure Tick where
  nandBusy : Bool := false
  locked : Bool := false
  otaBlocked : Bool := false
  memory : Bool := true
  now : UInt64
  loaded : Loaded := .missing
  telemetry : Option Telemetry := Option.none
  trialActive : Bool := false
  epoch : Option UInt64 := Option.none
  otaBlockedLater : Bool := false
  saving : Saving := .failed

def flag (set : Bool) (bit : UInt16) : UInt16 := if set then bit else 0

def convert (t : Telemetry) (epoch : Option UInt64) (now : UInt64) : Sample where
  monotonicMs := now
  epoch := epoch.getD 0
  flags := flag t.valid 1 ||| flag t.capacityValid 2 ||| flag t.temperatureValid 4 |||
    flag epoch.isSome 8 ||| flag t.nominalConfigured 16 ||| flag t.rawCoulombValid 32
  soc := t.reportedSoc.toUInt16
  voltageMv := t.voltageMv
  currentMa := t.currentMa
  averageCurrentMa := t.averageCurrentMa
  remainingMah := t.remainingMah
  fullMah := t.fullMah
  designMah := t.designMah
  operationStatus := t.operationStatus
  batteryStatus := t.batteryStatus
  stateOfHealth := t.stateOfHealth
  cycleCount := t.cycleCount
  temperatureDeciK := t.temperatureDeciK
  rawCoulombMah := t.rawCoulombMah

def nextSession (s : Service) (m : Model) : Service :=
  if m.boot = 0xFFFFFFFF then { s with model := m, corrupt := true, ready := true }
  else { s with model := { m with boot := m.boot + 1 }, ready := true }

def takeOver (s : Service) : Option Model → Service
  | some m => nextSession s m
  | none => { s with corrupt := true, ready := true }

def load (s : Service) : Loaded → Service
  | .retry => s
  | .missing => nextSession s s.model
  | .unreadable => takeOver s none
  | .found blob => takeOver s (decode blob)

def refused (s : Service) : Command → Bool
  | .none => true
  | .arm => s.corrupt || s.model.count != 0 || s.model.armed
  | .stop => !s.model.armed
  | .clear => false
  | .checkpoint => s.corrupt || s.model.armed || s.model.count == 0
  | .resume => s.corrupt || s.model.armed || s.model.count == 0 || s.model.finalizedChargeAfterLow

def request (c : Command) (s : Service) : Service :=
  if s.ready && s.pending == .none && !refused s c then { s with pending := c } else s

def carriedOut (c : Command) (m : Model) : Model :=
  match c with
  | .arm | .resume => { m with armed := true }
  | .stop => { m with armed := false }
  | .clear => { boot := m.boot }
  | .none | .checkpoint => m

def keep (w : World) (m : Model) : Saving → World
  | .failed => w
  | _ => { w with stored := encodeInto m :: w.stored }

def writeCommand (w : World) (e : Tick) : World :=
  let s := { w.service with lastWriteAttempt := e.now, writeAttempted := true }
  let next := carriedOut s.pending s.model
  let w := keep w next e.saving
  if e.saving = .acknowledged then
    { w with service :=
      { s with model := { next with dirty := false }, pending := .none, corrupt := false } }
  else { w with service := s }

def writeCheckpoint (w : World) (e : Tick) : World :=
  let m := w.service.model.attempted e.now
  let s := { w.service with lastWriteAttempt := e.now, writeAttempted := true, model := m }
  let w := keep w m e.saving
  if e.saving = .acknowledged then { w with service := { s with model := { m with dirty := false } } }
  else { w with service := s }

def canAttempt (s : Service) (now : UInt64) : Bool :=
  !s.writeAttempted || decide (now - s.lastWriteAttempt ≥ 60000)

def finalPending (m : Model) : Bool := m.finalizedChargeAfterLow && m.dirty

/-- The sample is taken, and at most one write attempted. -/
def work (w : World) (e : Tick) (t : Telemetry) : World :=
  let s := convert t e.epoch e.now
  let m := w.service.model
  let m := if m.due e.now && !w.service.corrupt then m.append s else m
  let w := { w with service := { w.service with model := m } }
  if !s.writable || e.otaBlockedLater then w
  else if w.service.pending ≠ .none ∧ canAttempt w.service e.now then writeCommand w e
  else if (m.checkpointDue e.now || finalPending m) && canAttempt w.service e.now then
    writeCheckpoint w e
  else w

def ready (w : World) (e : Tick) : World :=
  let s := w.service
  let command := s.pending ≠ .none
  if s.corrupt ∧ ¬ command then w
  else if !s.model.due e.now ∧ ¬ ((command ∨ finalPending s.model) ∧ canAttempt s e.now) then w
  else
    match e.telemetry with
    | none => w
    | some t => if e.trialActive || (t.unitVerified && t.unitFactor != 1) then w else work w e t

def service (w : World) (e : Tick) : World :=
  if e.nandBusy || e.locked || e.otaBlocked || !e.memory then w
  else if w.service.ready then ready w e
  else if e.now < w.service.nextLoadAttempt then w
  else
    let s := load w.service e.loaded
    if s.ready then ready { w with service := s } e
    else { w with service := { s with nextLoadAttempt := e.now + 60000 } }

def nandFormatConfirm (w : World) : World :=
  let s := w.service
  if s.ready && !s.corrupt && s.pending == .none && !s.model.armed && s.model.count != 0 then
    keep w s.model .unacknowledged
  else w

inductive Step (w : World) : World → Prop
  | restart : Step w { w with service := {}, clock := 0 }
  | request (c : Command) : Step w { w with service := request c w.service }
  | format : Step w (nandFormatConfirm w)
  | service (e : Tick) (later : w.clock ≤ e.now)
      (durable : ∀ blob, e.loaded = .found blob → blob ∈ w.stored) :
      Step w { service w e with clock := e.now }

/-- The runs through allowed states only. -/
inductive Reach (allowed : World → Prop) : World → Prop
  | start : Reach allowed {}
  | step {w w' : World} (before : Reach allowed w) (next : Step w w') (ok : allowed w') :
      Reach allowed w'

end Mosaico.Host.GaugeTrace
