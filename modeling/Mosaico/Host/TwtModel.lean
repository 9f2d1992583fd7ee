import Mathlib.Data.List.Basic

/-! `mosaico_twt_model.h`: the tracker of one target-wake-time trial at a time. Times are
microseconds of any sign and 0 stands for no deadline. The fields of the snapshot that only the
owner of the tracker fills (link state, cleanup, fetch counters) are left out. -/
namespace Mosaico.Host.Twt

/-- `unlisted` is a value outside the enumeration. -/
inductive Mode where
  | off | baseline | on | unlisted
  deriving DecidableEq, Repr

inductive Profile where
  | default | announcedTrigger | wideServiceWindow | unlisted
  deriving DecidableEq, Repr

inductive Stage where
  | off | armed | negotiating | active | baseline | failed
  deriving DecidableEq, Repr

inductive Stop where
  | none | explicit | expired | unsupported | rejected | timeout | lost | ota | awake | driver | invalid
  deriving DecidableEq, Repr

def validLease (seconds : Nat) : Bool := seconds == 600 || seconds == 1800

def Mode.code : Mode → Nat
  | .off => 0 | .baseline => 1 | .on => 2 | .unlisted => 3

def Profile.code : Profile → Nat
  | .announcedTrigger => 8 | .wideServiceWindow => 16 | _ => 0

def encodeRequest (mode : Mode) (seconds : Nat) (profile : Profile) : Int :=
  if mode = .off then 0
  else if mode = .unlisted ∨ validLease seconds = false ∨ profile = .unlisted ∨
      (mode = .baseline ∧ profile ≠ .default) then -1
  else ((mode.code ||| (if seconds = 1800 then 4 else 0) ||| profile.code : Nat) : Int)

/-- What the access point answers to a setup. -/
structure Result where
  id : Nat := 0
  mantissa : UInt16 := 0
  flow : UInt8 := 0
  exponent : UInt8 := 0
  duration : UInt8 := 0
  unit : UInt8 := 0
  reason : UInt8 := 0
  trigger : UInt8 := 0
  flowType : UInt8 := 0
  status : Int := 0
  targetWakeUs : UInt64 := 0
  deriving DecidableEq, Repr

structure StaDisconnect where
  reason : UInt16 := 0
  ownerTrialId : Nat := 0
  eventUs : Int := 0
  valid : Bool := false
  deriving DecidableEq, Repr

structure Snapshot where
  requested : Mode := .off
  profile : Profile := .default
  stage : Stage := .off
  stop : Stop := .none
  lastFailure : Stop := .none
  id : Nat := 0
  leaseSeconds : Nat := 600
  expiryUs : Int := 0
  bootstrapDeadlineUs : Int := 0
  setupDeadlineUs : Int := 0
  actual : Result := {}
  staDisconnect : StaDisconnect := {}
  intervalUs : Nat := 0
  durationUs : Nat := 0
  lateEvents : UInt32 := 0
  deriving DecidableEq, Repr

structure Model where
  state : Snapshot := {}
  nextId : Nat := 0
  deriving DecidableEq, Repr

def Model.live (m : Model) : Bool :=
  m.state.stage == .armed || m.state.stage == .negotiating || m.state.stage == .active ||
    m.state.stage == .baseline

/-- `Off` is the stage of a trial that ended as intended. -/
def endedStage (why : Stop) : Stage :=
  if why = .explicit ∨ why = .expired ∨ why = .ota ∨ why = .awake then .off else .failed

/-- `end` of the source. -/
def Model.endTrial (m : Model) (why : Stop) : Model :=
  { m with state := { m.state with
      profile := .default
      stop := why
      stage := endedStage why
      lastFailure := if endedStage why = .failed then why else m.state.lastFailure
      expiryUs := 0
      bootstrapDeadlineUs := 0
      setupDeadlineUs := 0 } }

/-- No identifier is used twice in a boot; the flag is the source's result. -/
def Model.start (m : Model) (mode : Mode) (now : Int) (leaseSeconds : Nat) (profile : Profile) :
    Model × Bool :=
  if mode = .off then
    (Model.endTrial { m with state := { m.state with requested := mode } } .explicit, true)
  else if encodeRequest mode leaseSeconds profile < 0 ∨ m.nextId = 32767 then (m, false)
  else
    ({ nextId := m.nextId + 1
       state := {
         staDisconnect := m.state.staDisconnect
         profile := if mode = .on then profile else .default
         requested := mode
         id := m.nextId + 1
         leaseSeconds := leaseSeconds
         stage := .armed
         expiryUs := now + (leaseSeconds : Int) * 1000000
         bootstrapDeadlineUs := now + 60 * 1000000 } }, true)

def Model.recordStaDisconnect (m : Model) (reason : UInt16) (eventUs : Int) (valid : Bool) : Model :=
  { m with state := { m.state with staDisconnect :=
      { reason := reason, eventUs := eventUs, valid := valid, ownerTrialId := m.state.id } } }

def Model.due (m : Model) (now : Int) (ota locked : Bool) : Option Stop :=
  if ota then some .ota
  else if m.state.expiryUs ≤ now then some .expired
  else if locked = false then some .awake
  else if m.state.stage = .armed ∧ m.state.bootstrapDeadlineUs ≤ now then some .timeout
  else if m.state.stage = .negotiating ∧ m.state.setupDeadlineUs ≤ now then some .timeout
  else none

def Model.check (m : Model) (now : Int) (ota locked : Bool) : Model × Bool :=
  if m.live = false then (m, false)
  else match m.due now ota locked with
    | some why => (m.endTrial why, (m.endTrial why).live)
    | none => (m, m.live)

/-- Polls never reset a deadline. -/
def Model.bootstrapReady (m : Model) (now : Int) : Model × Bool :=
  if m.state.stage ≠ .armed then (m, false)
  else match m.check now false true with
    | (m, false) => (m, false)
    | (m, true) =>
      let stage : Stage := if m.state.requested = .baseline then .baseline else .negotiating
      ({ m with state := { m.state with
          bootstrapDeadlineUs := 0
          stage := stage
          setupDeadlineUs := if stage = .negotiating then now + 10 * 1000000 else 0 } }, true)

def Result.intervalUs (r : Result) : Nat :=
  if r.exponent ≤ 31 then r.mantissa.toNat <<< r.exponent.toNat else 0

def Result.durationUs (r : Result) : Nat := r.duration.toNat * if r.unit ≠ 0 then 1024 else 256

def Model.accept (m : Model) (r : Result) : Model × Bool :=
  if m.state.stage ≠ .negotiating ∨ r.id ≠ m.state.id then
    ({ m with state := { m.state with lateEvents := m.state.lateEvents + 1 } }, false)
  else
    let m : Model := { m with state := { m.state with
      actual := r
      intervalUs := r.intervalUs
      durationUs := r.durationUs } }
    if r.status ≠ 1 then (m.endTrial .rejected, false)
    else if r.mantissa = 0 ∨ r.duration = 0 ∨ 31 < r.exponent ∨ 7 < r.flow ∨ 1 < r.unit ∨
        2000000 < m.state.intervalUs ∨ m.state.intervalUs ≤ m.state.durationUs then
      (m.endTrial .invalid, false)
    else ({ m with state := { m.state with stage := .active, setupDeadlineUs := 0 } }, true)

/-- What the owner does with the tracker, in any order and at any times. -/
inductive Input where
  | start (mode : Mode) (now : Int) (leaseSeconds : Nat) (profile : Profile)
  | stop (why : Stop)
  | disconnected (reason : UInt16) (eventUs : Int) (valid : Bool)
  | check (now : Int) (ota locked : Bool)
  | ready (now : Int)
  | setup (r : Result)

def Model.step (m : Model) : Input → Model
  | .start mode now leaseSeconds profile => (m.start mode now leaseSeconds profile).1
  | .stop why => m.endTrial why
  | .disconnected reason eventUs valid => m.recordStaDisconnect reason eventUs valid
  | .check now ota locked => (m.check now ota locked).1
  | .ready now => (m.bootstrapReady now).1
  | .setup r => (m.accept r).1

def Model.accepts (m : Model) : Input → Bool
  | .start mode now leaseSeconds profile => mode ≠ .off && (m.start mode now leaseSeconds profile).2
  | _ => false

/-- The tracker after these inputs, and the identifiers of the accepted requests, the newest first. -/
structure Tracked where
  model : Model := {}
  issued : List Nat := []

def Tracked.step (t : Tracked) (input : Input) : Tracked where
  model := t.model.step input
  issued := if t.model.accepts input then (t.model.step input).state.id :: t.issued else t.issued

def track (inputs : List Input) : Tracked := inputs.foldl Tracked.step {}

end Mosaico.Host.Twt
