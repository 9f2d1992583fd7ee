import Mathlib.Data.List.Basic

/-! `touch_sleep_model.h` with the calls of `touch_sleep.cpp` that drive it: one trial of putting the
touch controller to sleep and waking it again. Times are microseconds of any sign. The SDK's answers
are arguments of the calls; the main loop alone owns the model, the mutex orders the admissions. -/
namespace Mosaico.Host.TouchSleep

inductive Phase where
  | off | probe | handshake1 | handshake2 | handshakeEcho | modeWrite | modeEcho | settle | sleepWrite
  | sleepRequested | verifyRelease | complete | heldClosed | failedRestored | rebootPending
  deriving DecidableEq, Repr

structure AdmissionModel where
  touchReserved : Bool := false
  otaInFlight : Nat := 0
  deriving DecidableEq, Repr

def AdmissionModel.reserveTouch (a : AdmissionModel) (busy : Bool) : AdmissionModel × Bool :=
  if busy ∨ a.touchReserved ∨ a.otaInFlight ≠ 0 then (a, false)
  else ({ a with touchReserved := true }, true)

def AdmissionModel.enterOta (a : AdmissionModel) : AdmissionModel × Bool :=
  if a.touchReserved then (a, false) else ({ a with otaInFlight := a.otaInFlight + 1 }, true)

def AdmissionModel.leaveOta (a : AdmissionModel) : AdmissionModel :=
  { a with otaInFlight := a.otaInFlight - 1 }

def AdmissionModel.releaseTouch (a : AdmissionModel) : AdmissionModel := { a with touchReserved := false }

structure Model where
  phase : Phase := .off
  consumed : Bool := false
  restoring : Bool := false
  dirty : Bool := false
  failed : Bool := false
  releaseProven : Bool := false
  normalVerified : Bool := false
  normalReportValid : Bool := false
  revision : UInt32 := 0
  writes : UInt32 := 0
  reads : UInt32 := 0
  entryAttempts : UInt32 := 0
  restoreAttempts : UInt32 := 0
  echo : UInt8 := 0
  failedEcho : UInt8 := 0
  errorPhase : Phase := .off
  restoreErrorPhase : Phase := .off
  lastCommand : UInt16 := 0
  lastI2cError : Int := 0
  error : Int := 0
  restoreError : Int := 0
  startedUs : Int := 0
  sleepRequestUs : Int := 0
  leaseUntilUs : Int := 0
  restoreStartedUs : Int := 0
  restoredUs : Int := 0
  deadlineUs : Int := 0
  restoreDeadlineUs : Int := 0
  deriving DecidableEq, Repr

def Phase.critical : Phase → Bool
  | .off | .complete | .heldClosed | .failedRestored => false
  | _ => true

def Model.critical (m : Model) : Bool := m.phase.critical

def Model.request (m : Model) (now : Int) : Model × Bool :=
  if m.consumed ∨ m.critical then (m, false)
  else
    ({ m with consumed := true, phase := .probe, startedUs := now, entryAttempts := m.entryAttempts + 1,
              revision := m.revision + 1 }, true)

def Model.restore (m : Model) (now : Int) : Model :=
  if m.critical = false ∨ m.restoring ∨ m.phase = .rebootPending then m
  else if m.dirty = false then { m with phase := .complete, revision := m.revision + 1 }
  else
    { m with restoring := true, restoreStartedUs := now, restoreDeadlineUs := now + 5000000,
             leaseUntilUs := 0, restoreAttempts := m.restoreAttempts + 1, phase := .handshake1,
             revision := m.revision + 1 }

def Model.noteError (m : Model) (rc : Int) : Model :=
  let m : Model := { m with failed := true }
  if m.error = 0 then { m with error := rc, errorPhase := m.phase, failedEcho := m.echo } else m

def Model.fail (m : Model) (now : Int) (rc : Int) : Model :=
  let m := m.noteError rc
  if m.restoring then
    { m with restoreError := rc, restoreErrorPhase := m.phase, phase := .rebootPending,
             deadlineUs := now + 1000000, revision := m.revision + 1 }
  else if m.dirty then m.restore now
  else { m with phase := .failedRestored, revision := m.revision + 1 }

def Model.underWay (m : Model) : Bool := m.restoring && m.critical && m.phase != .rebootPending

def Model.overdue (m : Model) (now : Int) : Model :=
  if m.phase = .verifyRelease ∧ m.normalVerified ∧ m.normalReportValid then
    { m with phase := .heldClosed, restoredUs := now, revision := m.revision + 1 }
  else m.fail now (-3)

def Model.tick (m : Model) (now : Int) (restoreNeeded : Bool) : Model :=
  let m := if restoreNeeded ∨ (m.phase = .sleepRequested ∧ m.leaseUntilUs ≤ now) then m.restore now else m
  let m := if m.underWay ∧ m.restoreDeadlineUs ≤ now then m.overdue now else m
  if m.phase = .settle ∧ m.deadlineUs ≤ now then
    { m with phase := if m.restoring then .verifyRelease else .sleepWrite, revision := m.revision + 1 }
  else m

def Model.writeCommand (m : Model) : UInt16 :=
  match m.phase with
  | .handshake1 | .handshake2 => 0xD11E
  | .modeWrite => if m.restoring then 0xD109 else 0xD101
  | .sleepWrite => 0xD105
  | _ => 0

def Model.beforeWrite (m : Model) : Model :=
  { m with lastCommand := m.writeCommand, dirty := true, writes := m.writes + 1 }

def Model.moveTo (m : Model) (phase : Phase) : Model :=
  { m with phase := phase, revision := m.revision + 1 }

/-- The part of `complete` for an action that succeeded in time. -/
def Model.advance (m : Model) (now : Int) (observed : UInt8) (released : Bool) : Model :=
  match m.phase with
  | .probe => m.moveTo .handshake1
  | .handshake1 => m.moveTo .handshake2
  | .handshake2 => m.moveTo .handshakeEcho
  | .handshakeEcho =>
    let m : Model := { m with echo := observed }
    if m.echo ≠ 0x1E then m.fail now (-2) else m.moveTo .modeWrite
  | .modeWrite => m.moveTo .modeEcho
  | .modeEcho =>
    let m : Model := { m with echo := observed }
    if m.echo ≠ (if m.restoring then 0x09 else 0x01) then m.fail now (-2)
    else Model.moveTo { m with normalVerified := m.restoring, deadlineUs := now + 10000 } .settle
  | .sleepWrite => Model.moveTo { m with sleepRequestUs := now, leaseUntilUs := now + 120000000 } .sleepRequested
  | .verifyRelease =>
    let m : Model := { m with normalReportValid := true }
    if released = false then m
    else Model.moveTo { m with releaseProven := true, restoredUs := now }
      (if m.failed then .failedRestored else .complete)
  | _ => m

def Model.complete (m : Model) (now : Int) (rc : Int) (observed : UInt8) (released : Bool) : Model :=
  let m : Model := { m with lastI2cError := rc }
  if rc ≠ 0 then m.fail now rc
  else if m.underWay ∧ m.restoreDeadlineUs ≤ now then m.overdue now
  else m.advance now observed released

/-- What was done on the bus: a command written, or an action that came to an end in a phase, in a
restore or not, with the byte it read. -/
inductive Event where
  | wrote (command : UInt16)
  | ended (phase : Phase) (restoring : Bool) (rc : Int) (observed : UInt8)
  deriving DecidableEq, Repr

/-- The globals of `touch_sleep.cpp`; `accepted` counts the trials that were accepted, `admitted` the
admissions of OTA calls that are alive, `bus` is the bus so far, the newest first. -/
structure System where
  model : Model := {}
  reserved : Bool := false
  needRestore : Bool := false
  admission : AdmissionModel := {}
  accepted : Nat := 0
  admitted : Nat := 0
  bus : List Event := []
  deriving DecidableEq, Repr

/-- `refused` is what the caller's view and the SDK say against a trial, `busy` the second look at
the OTA service under the mutex. -/
def System.request120 (s : System) (refused busy : Bool) (now : Int) : System :=
  if refused ∨ s.model.consumed then s
  else match s.admission.reserveTouch busy with
    | (_, false) => s
    | (admission, true) =>
      match s.model.request now with
      | (_, false) => { s with admission := admission.releaseTouch }
      | (model, true) =>
        { s with model := model, admission := admission, reserved := true, needRestore := false,
                 accepted := s.accepted + 1 }

/-- The constructor of `OtaAdmission`. -/
def System.enterOta (s : System) : System :=
  match s.admission.enterOta with
  | (_, false) => { s with needRestore := true }
  | (admission, true) => { s with admission := admission, admitted := s.admitted + 1 }

def System.leaveOta (s : System) : System :=
  if s.admitted = 0 then s
  else { s with admission := s.admission.leaveOta, admitted := s.admitted - 1 }

/-- What the bus answers to one action and when it has. -/
structure Answer where
  rc : Int
  observed : UInt8
  released : Bool
  now : Int

def System.act (s : System) (a : Answer) : System :=
  let command := s.model.writeCommand
  let model := if command ≠ 0 then s.model.beforeWrite else { s.model with reads := s.model.reads + 1 }
  { s with
    model := model.complete a.now a.rc a.observed a.released
    bus := .ended s.model.phase s.model.restoring a.rc a.observed ::
      if command ≠ 0 then .wrote command :: s.bus else s.bus }

/-- `service` up to the tick. The calls of other tasks may fall between it and `finish`. -/
def System.tick (s : System) (locked conflict : Bool) (now : Int) : System :=
  { s with model := s.model.tick now (s.needRestore || !locked || conflict), needRestore := false }

/-- The rest of `service`. In the phase of the pending restart the boot may end here. -/
def System.finish (s : System) (a : Answer) : System :=
  if s.model.critical = false then
    { s with reserved := false
             admission := if s.reserved then s.admission.releaseTouch else s.admission }
  else if s.model.phase = .sleepRequested ∨ s.model.phase = .settle ∨ s.model.phase = .rebootPending then s
  else s.act a

inductive Input where
  | request120 (refused busy : Bool) (now : Int)
  | off
  | wakeRequested
  | enterOta
  | leaveOta
  | tick (locked conflict : Bool) (now : Int)
  | finish (a : Answer)

def System.step (s : System) : Input → System
  | .request120 refused busy now => s.request120 refused busy now
  | .off => { s with needRestore := true }
  | .wakeRequested => if s.reserved then { s with needRestore := true } else s
  | .enterOta => s.enterOta
  | .leaveOta => s.leaveOta
  | .tick locked conflict now => s.tick locked conflict now
  | .finish a => s.finish a

def run (inputs : List Input) : System := inputs.foldl System.step {}

end Mosaico.Host.TouchSleep
