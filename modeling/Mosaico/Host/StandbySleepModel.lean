import Mathlib.Data.List.Basic
import Mathlib.Algebra.Group.Int.Defs

/-! `standby_sleep_model.h` and `standby_sleep.cpp`: whether light sleep may be configured, and the lock that keeps it
away meanwhile. Every call holds the mutex from its start to its return. Times are microseconds of any sign; the wake
interval counters and the statistics that only a snapshot copies are left out. -/
namespace Mosaico.Host.StandbySleep

inductive Mode where
  | off | diagnostic | automatic
  deriving DecidableEq, Repr

/-- No lease is a lease until 0. -/
structure Model where
  leaseUntil : Int := 0
  awakeUntil : Int := 0
  supported : Bool := true
  automaticPolicy : Bool := false
  otaBlocked : Bool := false
  viewLocked : Bool := false
  displaySafe : Bool := false
  fault : Bool := false
  uartPending : Bool := false
  deriving DecidableEq, Repr

namespace Model

def requested (m : Model) (now : Int) : Bool :=
  m.automaticPolicy || (m.leaseUntil != 0 && decide (now < m.leaseUntil))

def mode (m : Model) (now : Int) : Mode :=
  if m.automaticPolicy then .automatic
  else if m.leaseUntil != 0 && decide (now < m.leaseUntil) then .diagnostic
  else .off

def request (m : Model) (seconds : Nat) (now : Int) : Option Model :=
  if !m.supported || decide (seconds < 30) || decide (300 < seconds) then none
  else some { m with automaticPolicy := false, leaseUntil := now + seconds * 1000000 }

def enableAutomatic (m : Model) (confirmed : Bool) : Option Model :=
  if !m.supported || !confirmed then none
  else some { m with leaseUntil := 0, automaticPolicy := true }

def off (m : Model) : Model := { m with leaseUntil := 0, automaticPolicy := false }

def pause (m : Model) : Model := { m with leaseUntil := 0, displaySafe := false }

def wake (m : Model) (now : Int) : Model :=
  if m.requested now then { m with awakeUntil := now + 500000 } else m

def service (m : Model) (now : Int) : Model :=
  if m.leaseUntil != 0 &&
      (decide (m.leaseUntil ≤ now) || !m.viewLocked || !m.displaySafe || m.fault || m.otaBlocked) then
    { m with leaseUntil := 0 }
  else m

def eligible (m : Model) (now : Int) (cpu : Nat) (locked wireless : Bool) : Bool :=
  m.supported && m.requested now && m.viewLocked && locked && m.displaySafe && !m.fault && !m.otaBlocked &&
    !wireless && cpu == 160

def uartBlocked (m : Model) (now : Int) : Bool := m.uartPending || decide (now < m.awakeUntil)

end Model

def initialModel (supported automaticFlag : Bool) : Model :=
  { supported := supported, automaticPolicy := supported && automaticFlag }

/-- What a call reads outside, and how the calls of the SDK end. `now` is the reading of the clock that the refresh of
the lock is given, `earlier` one that is taken before it; so it is with the readings of the USB console. -/
structure Outside where
  earlier : Int := 0
  now : Int := 0
  usbEarlier : Bool := false
  usbSafe : Bool := false
  busy : Bool := false
  healthPending : Bool := false
  ioReady : Bool := false
  createError : Int := 0
  setupError : Int := 0
  lockError : Int := 0
  deriving DecidableEq, Repr

def Outside.ota (o : Outside) : Bool := o.busy || o.healthPending

/-- The variables of the file. `created` tells that there is a lock, `locks` what was asked of it, the newest first:
true for acquire. -/
structure State where
  model : Model
  ready : Bool := false
  initialized : Bool := false
  setupAttempted : Bool := false
  fatal : Bool := false
  applied : Bool := false
  wanted : Bool := false
  bleActive : Bool := false
  held : Bool := false
  created : Bool := false
  lastError : Int := 0
  locks : List Bool := []
  deriving DecidableEq, Repr

def booted (supported automaticFlag : Bool) : State := { model := initialModel supported automaticFlag }

def espErrNotSupported : Int := 0x106

namespace State

def lockRecovery (s : State) (o : Outside) (need : Bool) : State :=
  if !s.created || need == s.held then s
  else if o.lockError ≠ 0 then
    { s with
      locks := need :: s.locks
      lastError := o.lockError
      fatal := true
      model := s.model.pause
      wanted := false }
  else { s with locks := need :: s.locks, held := need }

def blocked (s : State) (o : Outside) : Bool :=
  !s.wanted || !o.usbSafe || s.model.uartBlocked o.now || !s.model.requested o.now

def refreshRecovery (s : State) (o : Outside) : State :=
  s.lockRecovery o ((s.applied || s.model.requested o.now) && s.blocked o)

/-- The first error of the calls behind the creation of the lock is `setupError`. -/
def initializeOnce (s : State) (o : Outside) : Bool × State :=
  if !s.model.supported then (false, { s with lastError := espErrNotSupported })
  else if s.initialized then (true, s)
  else if !s.ready || s.setupAttempted then (false, s)
  else
    let created := o.createError == 0
    let err := if created then o.setupError else o.createError
    let s := { s with setupAttempted := true, created := created }
    if err ≠ 0 then (false, { s with lastError := err, fatal := true }) else (true, { s with initialized := true })

def pulseEligible (s : State) (o : Outside) (free : Bool) : Bool :=
  free && s.applied && s.wanted && s.ready && s.model.viewLocked && s.model.displaySafe && !s.model.fault &&
    !s.model.otaBlocked && !s.bleActive && s.model.requested o.now && !s.model.uartBlocked o.now &&
      o.usbSafe && !o.ota

def monitoring (s : State) : Bool := s.model.automaticPolicy || s.model.leaseUntil != 0 || s.applied

def uartReady (s : State) (o : Outside) (value : Bool) : State :=
  let s := { s with ready := value }
  if value then s else ({ s with model := s.model.pause, wanted := false } : State).refreshRecovery o

def usbActivity (s : State) (o : Outside) : State :=
  ({ s with model := s.model.wake o.now, wanted := false } : State).refreshRecovery o

def uartWake (s : State) (o : Outside) : State :=
  ({ s with model := s.model.wake o.earlier } : State).refreshRecovery o

def uartTraffic (s : State) (o : Outside) (pending activity : Bool) : State :=
  let model := { s.model with uartPending := pending }
  ({ s with model := if activity then model.wake o.now else model } : State).refreshRecovery o

def viewState (s : State) (o : Outside) (locked safe fault : Bool) : State :=
  let model := { s.model with viewLocked := locked, displaySafe := safe, fault := fault }
  ({ s with
    model := model.service o.earlier
    wanted := if !locked || !safe || fault then false else s.wanted } : State).refreshRecovery o

def service (s : State) (o : Outside) (ota activeBle : Bool) : State :=
  let model := { s.model with otaBlocked := ota || o.ota }
  let model := (if activeBle then model.pause else model).service o.now
  ({ s with
    model := model
    bleActive := activeBle
    wanted := if model.otaBlocked || activeBle || !model.requested o.now then false else s.wanted } :
      State).refreshRecovery o

def request (s : State) (o : Outside) (seconds : Nat) : Bool × State :=
  if !o.ioReady || decide (seconds < 30) || decide (300 < seconds) || !s.ready || !s.model.viewLocked ||
      !s.model.displaySafe || s.model.fault || s.bleActive || s.model.otaBlocked || o.ota then (false, s)
  else if s.fatal then (false, s)
  else
    let (set, s) := s.initializeOnce o
    if !set then (false, s)
    else
      match s.model.request seconds o.earlier with
      | none => (false, s)
      | some model => (true, ({ s with model := model, wanted := false } : State).refreshRecovery o)

def enableAutomatic (s : State) (o : Outside) (confirmed : Bool) : Bool × State :=
  if !o.ioReady || !confirmed || !s.model.supported || !s.ready || s.fatal then (false, s)
  else
    let model := (s.model.enableAutomatic true).getD s.model
    (true, ({ s with model := model, wanted := false } : State).refreshRecovery o)

def cancelForActivity (s : State) (o : Outside) : State :=
  ({ s with model := s.model.pause, wanted := false } : State).refreshRecovery o

def otaActivity (s : State) (o : Outside) : State :=
  ({ s with model := ({ s.model with otaBlocked := true } : Model).pause, wanted := false } : State).refreshRecovery o

def off (s : State) (o : Outside) : State :=
  ({ s with model := s.model.off, wanted := false } : State).refreshRecovery o

def gated (s : State) (o : Outside) : Model :=
  if o.ota then { s.model with otaBlocked := true } else s.model

/-- The model that `allow` judges. -/
def allowModel (s : State) (o : Outside) (wifi : Bool) : Model :=
  (if !o.ioReady || wifi || s.bleActive then (s.gated o).pause else s.gated o).service o.now

def safe (s : State) (o : Outside) (cpu : Nat) (locked wifi : Bool) : Bool :=
  o.usbEarlier && o.ioReady && !s.fatal && s.ready &&
    (s.allowModel o wifi).eligible o.now cpu locked (wifi || s.bleActive)

/-- What `allow` makes of the state before it brings the lock up to date. -/
def judged (s : State) (o : Outside) (cpu : Nat) (locked wifi : Bool) : State :=
  let t := { s with model := s.allowModel o wifi }
  if s.safe o cpu locked wifi && !s.initialized then
    { (t.initializeOnce o).2 with wanted := (t.initializeOnce o).1 }
  else { t with wanted := s.safe o cpu locked wifi }

def allow (s : State) (o : Outside) (cpu : Nat) (locked wifi : Bool) : Bool × State :=
  let s := (s.judged o cpu locked wifi).refreshRecovery o
  (s.wanted, s)

def configured (s : State) (o : Outside) (lightSleep : Bool) (error : Int) : State :=
  let s := if error ≠ 0 then { s with lastError := error, fatal := true, model := s.model.pause, wanted := false }
    else { s with applied := lightSleep }
  s.refreshRecovery o

end State

structure Snapshot where
  supported : Bool
  lease : Bool
  configured : Bool
  eligible : Bool
  uartBlocked : Bool
  uartReady : Bool
  automaticPolicy : Bool
  policyMode : Mode
  activeMode : Mode
  remainingSeconds : Int
  error : Int
  deriving DecidableEq, Repr

def State.snapshot (s : State) (o : Outside) : Snapshot × State :=
  let model := (s.gated o).service o.now
  let s := { s with model := model }
  let eligible := s.wanted && o.usbEarlier && model.requested o.now && model.displaySafe && !model.otaBlocked &&
    !model.fault
  let out :=
    { supported := model.supported
      lease := model.leaseUntil != 0
      configured := s.applied
      eligible := eligible
      uartBlocked := model.uartBlocked o.now
      uartReady := s.ready
      automaticPolicy := model.automaticPolicy
      policyMode := model.mode o.now
      activeMode := if s.applied && eligible && !model.uartBlocked o.now then model.mode o.now else .off
      remainingSeconds := if model.leaseUntil != 0 then (model.leaseUntil - o.now + 999999) / 1000000 else 0
      error := s.lastError }
  (out, s.refreshRecovery o)

/-- The calls of the interface. -/
inductive Input where
  | pulseEligible (free : Bool)
  | monitoring
  | uartReady (value : Bool)
  | usbActivity
  | uartWake
  | uartTraffic (pending activity : Bool)
  | viewState (locked safe fault : Bool)
  | service (ota activeBle : Bool)
  | request (seconds : Nat)
  | enableAutomatic (confirmed : Bool)
  | cancelForActivity
  | otaActivity
  | off
  | allow (cpu : Nat) (locked wifi : Bool)
  | beforeConfigure (lightSleep : Bool)
  | configured (lightSleep : Bool) (error : Int)
  | snapshot
  deriving DecidableEq, Repr

def State.step (s : State) (o : Outside) : Input → State
  | .pulseEligible _ | .monitoring | .beforeConfigure _ => s
  | .uartReady value => s.uartReady o value
  | .usbActivity => s.usbActivity o
  | .uartWake => s.uartWake o
  | .uartTraffic pending activity => s.uartTraffic o pending activity
  | .viewState locked safe fault => s.viewState o locked safe fault
  | .service ota activeBle => s.service o ota activeBle
  | .request seconds => (s.request o seconds).2
  | .enableAutomatic confirmed => (s.enableAutomatic o confirmed).2
  | .cancelForActivity => s.cancelForActivity o
  | .otaActivity => s.otaActivity o
  | .off => s.off o
  | .allow cpu locked wifi => (s.allow o cpu locked wifi).2
  | .configured lightSleep error => s.configured o lightSleep error
  | .snapshot => (s.snapshot o).2

def State.run (s : State) : List (Outside × Input) → State
  | [] => s
  | (o, c) :: rest => (s.step o c).run rest

end Mosaico.Host.StandbySleep
