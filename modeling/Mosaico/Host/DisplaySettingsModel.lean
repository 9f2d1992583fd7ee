import Mosaico.Library.ByteFields

/-! `mosaico_display_settings_model.h` with the calls of `mosaico_display_settings.cpp`: settings that are
edited in RAM, lent for a while, and written to flash by a single owner that holds no lock meanwhile. -/
namespace Mosaico.Host.DisplaySettings

open ByteFields

structure Config where
  chargeTimeoutSeconds : UInt32 := 60
  batteryTimeoutSeconds : UInt32 := 60
  chargeBrightness : UInt8 := 80
  batteryBrightness : UInt8 := 80
  lockBrightness : UInt8 := 8
  burnIn : Bool := true
  lockWifiMinutes : UInt8 := 5
  lockBleMinutes : UInt8 := 1
  smartKeepalive : Bool := true
  deriving DecidableEq, Repr

def validLockMinutes (m : UInt8) : Bool := m == 1 || m == 2 || m == 5 || m == 10 || m == 15 || m == 30 || m == 60

def validChargeTimeout (t : UInt32) : Bool :=
  t == 0 || t == 15 || t == 30 || t == 60 || t == 120 || t == 300 || t == 600

def validBatteryTimeout (b : UInt32) : Bool := b == 15 || b == 30 || b == 45 || b == 60

def clampBrightness (b : UInt8) : UInt8 := if b < 10 then 10 else if 100 < b then 100 else b

def sanitize (c : Config) : Config where
  lockWifiMinutes := if validLockMinutes c.lockWifiMinutes then c.lockWifiMinutes else 5
  lockBleMinutes := if validLockMinutes c.lockBleMinutes then c.lockBleMinutes else 1
  chargeTimeoutSeconds := if validChargeTimeout c.chargeTimeoutSeconds then c.chargeTimeoutSeconds else 60
  batteryTimeoutSeconds := if validBatteryTimeout c.batteryTimeoutSeconds then c.batteryTimeoutSeconds else 60
  chargeBrightness := clampBrightness c.chargeBrightness
  batteryBrightness := clampBrightness c.batteryBrightness
  lockBrightness := if 100 < c.lockBrightness then 100 else c.lockBrightness
  burnIn := c.burnIn
  smartKeepalive := c.smartKeepalive

/-- The value of a field set in a configuration, before it is sanitized. -/
def withField (c : Config) (field : String) (value : Nat) : Option Config :=
  if field = "charge_timeout" then some { c with chargeTimeoutSeconds := UInt32.ofNat value }
  else if field = "battery_timeout" then some { c with batteryTimeoutSeconds := UInt32.ofNat value }
  else if field = "charge_brightness" then
    if 100 < value then none else some { c with chargeBrightness := UInt8.ofNat value }
  else if field = "battery_brightness" then
    if 100 < value then none else some { c with batteryBrightness := UInt8.ofNat value }
  else if field = "lock_brightness" then
    if 100 < value then none else some { c with lockBrightness := UInt8.ofNat value }
  else if field = "smart_keepalive" then
    if 1 < value then none else some { c with smartKeepalive := value != 0 }
  else if field = "burn_in" then
    if 1 < value then none else some { c with burnIn := value != 0 }
  else if field = "lock_wifi_minutes" then
    if 60 < value then none else some { c with lockWifiMinutes := UInt8.ofNat value }
  else if field = "lock_ble_minutes" then
    if 60 < value then none else some { c with lockBleMinutes := UInt8.ofNat value }
  else none

/-- A rejected patch answers `none` and leaves the configuration. -/
def patch (c : Config) (field : Option String) (value : Int) : Option Config :=
  match field with
  | none => none
  | some field =>
    if value < 0 ∨ 600 < value then none
    else match withField c field value.toNat with
      | none => none
      | some next => if sanitize next = next then some next else none

structure Snapshot where
  config : Config := {}
  effectiveConfig : Config := {}
  temporary : Bool := false
  runtimeRevision : UInt32 := 1
  remainingLeaseSeconds : UInt32 := 0
  revision : UInt32 := 1
  savedRevision : UInt32 := 0
  pending : Bool := false
  error : Int := 0
  deriving DecidableEq, Repr

def rebootSaveReady (s : Snapshot) : Bool :=
  !s.pending && s.error == 0 && (s.savedRevision == s.revision || (s.revision == 1 && s.savedRevision == 0))

abbrev Blob := Bytes 24

def magic : Nat := 0x4453504D

def Config.bit (b : Bool) : Nat := if b then 1 else 0

def encode (c : Config) : Blob :=
  let b := put (zero 24) 0 magic 4
  let b := put b 4 3 1
  let b := put b 5 (Config.bit c.burnIn) 1
  let b := put b 6 c.chargeBrightness.toNat 1
  let b := put b 7 c.batteryBrightness.toNat 1
  let b := put b 8 c.lockBrightness.toNat 1
  let b := put b 9 c.lockWifiMinutes.toNat 1
  let b := put b 10 c.lockBleMinutes.toNat 1
  let b := put b 11 (Config.bit c.smartKeepalive) 1
  let b := put b 12 c.chargeTimeoutSeconds.toNat 4
  let b := put b 16 c.batteryTimeoutSeconds.toNat 4
  closeCrc b 20

def decode (b : Blob) : Option Config :=
  if get b 0 4 ≠ magic ∨ (byteAt b 4 ≠ 1 ∧ byteAt b 4 ≠ 2 ∧ byteAt b 4 ≠ 3) ∨ 1 < byteAt b 5 ∨
      (byteAt b 4 = 1 ∧ (byteAt b 9 ≠ 0 ∨ byteAt b 10 ≠ 0)) ∨
      (if byteAt b 4 < 3 then byteAt b 11 ≠ 0 else 1 < byteAt b 11) ∨ crcMatches b 20 = false then none
  else
    let c : Config := {
      chargeTimeoutSeconds := UInt32.ofNat (get b 12 4)
      batteryTimeoutSeconds := UInt32.ofNat (get b 16 4)
      chargeBrightness := byteAt b 6
      batteryBrightness := byteAt b 7
      lockBrightness := byteAt b 8
      burnIn := byteAt b 5 != 0 }
    let c := if 2 ≤ byteAt b 4 then { c with lockWifiMinutes := byteAt b 9, lockBleMinutes := byteAt b 10 } else c
    let c := if byteAt b 4 = 3 then { c with smartKeepalive := byteAt b 11 != 0 } else c
    if sanitize c = c then some c else none

structure Model where
  state : Snapshot := {}
  overlay : Config := {}
  leaseUntil : Int := 0
  runtimeRevision : UInt32 := 1
  requestedAt : Int := 0
  attemptedRevision : UInt32 := 0
  deriving DecidableEq, Repr

def Model.effective (m : Model) : Config := if m.leaseUntil ≠ 0 then m.overlay else m.state.config

def Model.restore (m : Model) : Model :=
  if m.leaseUntil = 0 then m else { m with leaseUntil := 0, runtimeRevision := m.runtimeRevision + 1 }

def Model.expire (m : Model) (now : Int) (isUnsafe : Bool) : Model :=
  if m.leaseUntil ≠ 0 ∧ (isUnsafe ∨ m.leaseUntil ≤ now) then m.restore else m

def Model.snapshot (m : Model) (now : Int) : Snapshot :=
  { m.state with
    effectiveConfig := m.effective
    temporary := m.leaseUntil ≠ 0
    runtimeRevision := m.runtimeRevision
    remainingLeaseSeconds :=
      if m.leaseUntil ≠ 0 ∧ now < m.leaseUntil then UInt32.ofInt ((m.leaseUntil - now + 999999).tdiv 1000000) else 0 }

def Model.setTemporary (m : Model) (field : Option String) (value : Int) (seconds : UInt32) (now : Int) :
    Model × Bool :=
  if seconds < 30 ∨ 600 < seconds then (m, false)
  else match patch (if m.leaseUntil ≠ 0 ∧ now < m.leaseUntil then m.overlay else m.state.config) field value with
    | none => (m, false)
    | some next =>
      let m := m.expire now false
      ({ m with overlay := next, leaseUntil := now + seconds.toNat * 1000000,
                runtimeRevision := m.runtimeRevision + 1 }, true)

def Model.request (m : Model) (c : Config) (now : Int) : Model :=
  let m := m.restore
  let c := sanitize c
  if c = m.state.config ∧ m.state.error = 0 then m
  else
    { m with
      state := { m.state with config := c, revision := m.state.revision + 1, pending := true, error := 0 }
      runtimeRevision := m.runtimeRevision + 1
      requestedAt := now }

def Model.requestPersistentField (m : Model) (field : Option String) (value now : Int) : Model × Bool :=
  match patch m.state.config field value with
  | none => (m, false)
  | some next => (m.request next now, true)

def Model.saveTemporary (m : Model) (confirmed : Bool) (now : Int) : Model × Bool :=
  if confirmed = false then (m, false)
  else
    let m := m.expire now false
    (m.request m.effective now, true)

def Model.due (m : Model) (now : Int) : Bool :=
  m.state.pending && m.attemptedRevision != m.state.revision && 1000000 ≤ now - m.requestedAt

def Model.completed (m : Model) (revision : UInt32) (error : Int) : Model :=
  let m : Model := if error = 0 then { m with state := { m.state with savedRevision := revision } } else m
  if revision = m.state.revision then { m with state := { m.state with pending := false, error := error } } else m

/-- The blobs of the name space, where `config` is the one of the firmware before. A blob of another size
does not decode, and is held as one that does not. -/
structure Nvs where
  config3 : Option Blob := none
  config : Option Blob := none

def espErrInvalidArg : Int := 0x102
def espErrNoMem : Int := 0x101

def defaults (brightness : Int) : Config :=
  if 10 ≤ brightness ∧ brightness ≤ 100 then
    { chargeBrightness := UInt8.ofNat brightness.toNat, batteryBrightness := UInt8.ofNat brightness.toNat }
  else {}

def loaded (brightness : Int) : Option Config → Model
  | none => { state := { config := defaults brightness, error := espErrInvalidArg } }
  | some config => { state := { config := config, savedRevision := 1 } }

/-- What a boot finds. `readError` is what its reads of flash answer where they fail. -/
def init (nvs : Nvs) (brightness readError : Int) : Model :=
  if readError ≠ 0 then { state := { config := defaults brightness, error := readError } }
  else match nvs.config3.or nvs.config with
    | none => { state := { config := defaults brightness } }
    | some blob => loaded brightness (decode blob)

/-- The module with the flash. `writing` is the write in flight, with what it took along; `edits` counts
the edits accepted since that write began. -/
structure System where
  model : Model := {}
  nvs : Nvs := {}
  writing : Option (Config × UInt32) := none
  edits : Nat := 0

def boot (nvs : Nvs) (brightness readError : Int) : System := { model := init nvs brightness readError, nvs := nvs }

def System.with (s : System) (m : Model) : System :=
  { s with model := m, edits := if m.state.revision = s.model.state.revision then s.edits else s.edits + 1 }

def System.setTemporary (s : System) (field : Option String) (value : Int) (seconds : UInt32) (now : Int)
    (isUnsafe : Bool) : System × Bool :=
  let m := s.model.expire now isUnsafe
  if isUnsafe then (s.with m, false)
  else match m.setTemporary field value seconds now with
    | (m, accepted) => (s.with m, accepted)

def System.saveTemporary (s : System) (confirmed : Bool) (now : Int) (isUnsafe : Bool) : System × Bool :=
  if confirmed = false then (s, false)
  else
    let m := s.model.expire now isUnsafe
    if isUnsafe then (s.with m, false) else (s.with (m.saveTemporary true now).1, true)

def System.attempt (s : System) (allowed : Bool) (now : Int) : System :=
  if allowed = false ∨ s.writing ≠ none ∨ s.model.due now = false then s
  else
    { s with
      model := { s.model with attemptedRevision := s.model.state.revision }
      writing := some (s.model.state.config, s.model.state.revision)
      edits := 0 }

def System.written (s : System) (error : Int) (effect : Bool) : System :=
  match s.writing with
  | none => s
  | some (config, revision) =>
    { s with
      model := s.model.completed revision error
      nvs := if error = 0 ∨ effect then { s.nvs with config3 := some (encode config) } else s.nvs
      writing := none }

inductive Input where
  | request (c : Config) (now : Int)
  | requestPersistentField (field : Option String) (value now : Int)
  | setTemporary (field : Option String) (value : Int) (seconds : UInt32) (now : Int) (isUnsafe : Bool)
  | restoreTemporary
  | saveTemporary (confirmed : Bool) (now : Int) (isUnsafe : Bool)
  | expire (now : Int) (isUnsafe : Bool)
  | attempt (allowed : Bool) (now : Int)
  | written (error : Int) (effect : Bool)
  | ownerFailed

def System.step (s : System) : Input → System
  | .request c now => s.with (s.model.request c now)
  | .requestPersistentField field value now => s.with (s.model.requestPersistentField field value now).1
  | .setTemporary field value seconds now isUnsafe => (s.setTemporary field value seconds now isUnsafe).1
  | .restoreTemporary => s.with s.model.restore
  | .saveTemporary confirmed now isUnsafe => (s.saveTemporary confirmed now isUnsafe).1
  | .expire now isUnsafe => s.with (s.model.expire now isUnsafe)
  | .attempt allowed now => s.attempt allowed now
  | .written error effect => s.written error effect
  | .ownerFailed => { s with model := { s.model with state := { s.model.state with error := espErrNoMem } } }

def System.run (s : System) (inputs : List Input) : System := inputs.foldl System.step s

end Mosaico.Host.DisplaySettings
