import Mosaico.Library.Interaction
import Mosaico.Library.ByteFields

/-! The state of `mosaico_ota.cpp` and the helpers its entry points share. A function is a
program over calls: the RAM state is read and modified through calls, everything outside the
file answers them. What is only displayed or logged is left out. -/
namespace Mosaico.Ota

open Interaction ByteFields

inductive UiStage where
  | idle | checking | available | waitingPower | downloading | verifying | readyInstall
  | installing | readyReboot | bootChecking | complete | failed
  deriving DecidableEq, Repr

/-- The part of the display that later calls read back. -/
structure Ui where
  stage : UiStage := .idle
  targetVersion : String := "-"
  sha256 : String := ""
  signatureShort : String := ""
  signatureVerified : Bool := false
  imageVerified : Bool := false
  deriving DecidableEq

structure Partition where
  address : Nat
  deriving DecidableEq, Repr

abbrev Digest := Bytes 32

/-- `MosaicoOtaMaintenance::Grant`. -/
structure Grant where
  enabled : Bool := false
  sha : String := ""
  lastUs : Int := 0
  runningAddress : Nat := 0
  bootAddress : Nat := 0
  unmountEpoch : Nat := 0
  deriving DecidableEq

/-- A flag that `busy` looks at. -/
inductive Flag where
  | active | approvedRequest | checkQueued | checking | installQueued | rebootQueued | bootPending
  deriving DecidableEq, Repr

/-- The variables of the file. -/
structure Ram where
  ui : Ui := {}
  approvedRequest : Bool := false
  autoInstall : Bool := false
  preferenceLoaded : Bool := false
  imageReady : Bool := false
  signedVersion : Bool := false
  checkQueued : Bool := false
  checking : Bool := false
  installQueued : Bool := false
  rebootQueued : Bool := false
  selected : Bool := false
  verified : Bool := false
  statusStage : UiStage := .idle
  readySince : Int := 0
  installSince : Int := 0
  approvedHash : String := ""
  active : Bool := false
  requestedAtMs : UInt32 := 0
  pending : Bool := false
  writing : Bool := false
  hashLive : Bool := false
  automaticMode : Bool := false
  usbBypass : Bool := false
  maintenanceMode : Bool := false
  maintenanceGrant : Grant := {}
  currentHashChecked : Bool := false
  currentHashValid : Bool := false
  currentHash : String := ""
  fullFallbackUsed : Bool := false
  deltaTransfer : Bool := false
  handle : Nat := 0
  target : Option Partition := none
  expectedSize : Nat := 0
  received : Nat := 0
  expectedHash : Digest := zero 32
  bootPending : Bool := false
  deriving DecidableEq

def Ram.flag (o : Ram) : Flag → Bool
  | .active => o.active
  | .approvedRequest => o.approvedRequest
  | .checkQueued => o.checkQueued
  | .checking => o.checking
  | .installQueued => o.installQueued
  | .rebootQueued => o.rebootQueued
  | .bootPending => o.bootPending

inductive Mutex where
  | lock | snapshotLock
  deriving DecidableEq, Repr

structure Usb where
  tudMounted : Bool
  mounted : Bool
  connected : Bool
  suspended : Bool
  unmounts : Nat
  deriving DecidableEq

structure Battery where
  valid : Bool
  operationStatus : UInt16
  voltageMv : Nat
  currentMa : Int
  deriving DecidableEq

/-- The fields of a manifest that passed the field checks and whose signature was verified. -/
structure Signed where
  versionSigned : Bool
  size : Nat
  sha : String
  version : String
  fingerprint : String
  deriving DecidableEq

structure Descriptor extends Signed where
  hash : Digest
  deriving DecidableEq

/-- What the entry points use of the rest of the firmware. The offset of a write and the message
of `failed` (which sets `reason`) are what the caller says of them. -/
inductive OtaCall where
  | get
  | modify (f : Ram → Ram)
  | exchangeApproved
  | lock (m : Mutex)
  | tryLock (m : Mutex)
  | unlock (m : Mutex)
  | failed (message : String)
  | touchAdmission
  | nandBusy
  | observersClean
  | now
  | usb
  | battery
  | runningPartition
  | bootPartition
  | nextUpdatePartition
  | currentReady
  | imageFits (p : Partition) (size : Nat)
  | validate (json : String)
  | hashRunning
  | readAttempt
  | recordAttempt (attempted version fingerprint : String)
  | storePreference (enabled : Bool)
  | appVersion (p : Partition)
  | inDram (data : List UInt8)
  | otaBegin (p : Partition) (size : Nat)
  | otaWrite (handle offset : Nat) (data : List UInt8)
  | otaEnd (handle : Nat)
  | otaAbort (handle : Nat)
  | setBootPartition (p : Partition)
  | hashSetup
  | hashUpdate (data : List UInt8)
  | hashFinish
  | hashAbort
  | restart

abbrev OtaAnswer : OtaCall → Type
  | .get => Ram
  | .now => Int
  | .usb => Usb
  | .battery => Battery
  | .runningPartition | .bootPartition | .nextUpdatePartition => Option Partition
  | .validate _ => Except String Signed
  | .hashRunning | .readAttempt | .appVersion _ => Option String
  | .otaBegin _ _ => Option Nat
  | .hashFinish => Option Digest
  | .tryLock _ | .touchAdmission | .nandBusy | .observersClean | .currentReady | .imageFits _ _ => Bool
  | .recordAttempt _ _ _ | .storePreference _ | .inDram _ | .otaWrite _ _ _ | .otaEnd _ => Bool
  | .exchangeApproved | .setBootPartition _ | .hashSetup | .hashUpdate _ => Bool
  | .modify _ | .lock _ | .unlock _ | .failed _ | .otaAbort _ | .hashAbort | .restart => Unit

abbrev OtaProg (α : Type) := Prog OtaCall OtaAnswer α

def perform (c : OtaCall) : OtaProg (OtaAnswer c) := Prog.perform c

def get : OtaProg Ram := perform .get

def modify (f : Ram → Ram) : OtaProg Unit := perform (.modify f)

def holding {α : Type} (m : Mutex) (body : OtaProg α) : OtaProg α := do
  perform (.lock m)
  let r ← body
  perform (.unlock m)
  return r

def tryHolding {α : Type} (m : Mutex) (refused : α) (body : OtaProg α) : OtaProg α := do
  if !(← perform (.tryLock m)) then return refused
  let r ← body
  perform (.unlock m)
  return r

def anyFlag : List Flag → OtaProg Bool
  | [] => return false
  | flag :: flags => do
    let s ← get
    if s.flag flag then return true else anyFlag flags

def busy : OtaProg Bool :=
  anyFlag [.active, .approvedRequest, .checkQueued, .checking, .installQueued, .rebootQueued,
    .bootPending]

def lowerHex (text : String) : Bool :=
  text.length == 64 &&
    text.toList.all fun c => ('0' ≤ c && c ≤ '9') || ('a' ≤ c && c ≤ 'f')

def nibble (c : Char) : UInt8 :=
  if c ≤ '9' then (c.toNat - '0'.toNat).toUInt8 else (c.toNat - 'a'.toNat + 10).toUInt8

def unhex (sha : String) : Digest :=
  let nibbles := sha.toList.map nibble
  ofFn 32 fun i => nibbles.getD (2 * i) 0 <<< 4 ||| nibbles.getD (2 * i + 1) 0

def hexDigit (v : UInt8) : Char := "0123456789abcdef".toList.getD v.toNat '0'

def hashHex (digest : Digest) : String :=
  String.ofList ((List.range 32).flatMap fun i =>
    [hexDigit (byteAt digest i >>> 4), hexDigit (byteAt digest i &&& 15)])

namespace Grant

def clear (g : Grant) : Grant := { g with enabled := false }

def matchesSha (g : Grant) (sha : String) : Bool := lowerHex sha && g.sha == sha

def start (g : Grant) (sha : String) (ttl : Nat) (now : Int) (running boot epoch : Nat) :
    Bool × Grant :=
  if !lowerHex sha ∨ ttl < 30 ∨ ttl > 600 ∨ now < 0 then (false, g.clear)
  else (true, ⟨true, sha, now, running, boot, epoch⟩)

def check (g : Grant) (now : Int) (usb : Bool) (running boot expectedBoot epoch : Nat) :
    Bool × Grant :=
  if !g.enabled ∨ now < g.lastUs ∨ !usb ∨ running ≠ g.runningAddress ∨ boot ≠ expectedBoot ∨
      epoch ≠ g.unmountEpoch then (false, g.clear)
  else (true, { g with lastUs := now })

end Grant

def Usb.live (u : Usb) : Bool := u.tudMounted && u.mounted && u.connected && !u.suspended

def activeUsbPower : OtaProg Bool := return (← perform .usb).live

def Battery.sealed (b : Battery) : Bool :=
  b.valid && (b.operationStatus >>> 1) &&& 3 == 3 && b.operationStatus &&& 0x0401 == 0

def downloadPowerSafe : OtaProg Bool := do
  if ← activeUsbPower then return true
  else if (← get).usbBypass then return false
  else
    let b ← perform .battery
    return b.sealed && decide (3500 ≤ b.voltageMv)

def useManualInstallPolicy (s : Ram) : Bool := s.usbBypass || !s.automaticMode

def automaticPowerSafe : OtaProg Bool := do
  if ← activeUsbPower then return true
  else if (← get).usbBypass then return false
  else
    let b ← perform .battery
    return b.sealed && decide (3900 ≤ b.voltageMv) && decide (b.currentMa > 3)

def installPowerSafe (manual : Bool) : OtaProg Bool := do
  if ← activeUsbPower then return true
  else if (← get).usbBypass then return false
  else if !manual then automaticPowerSafe
  else
    let b ← perform .battery
    return b.sealed && decide (3900 ≤ b.voltageMv)

/-- `maintenanceGrant.check`, at the partition that is expected to boot. -/
def checkGrant (running boot : Partition) : OtaProg Bool := do
  let now ← perform .now
  let usb ← perform .usb
  let s ← get
  let expectedBoot :=
    if s.selected then (s.target.map Partition.address).getD s.maintenanceGrant.bootAddress
    else s.maintenanceGrant.bootAddress
  let (ok, grant) :=
    s.maintenanceGrant.check now usb.live running.address boot.address expectedBoot usb.unmounts
  modify fun s => { s with maintenanceGrant := grant }
  return ok

def clearGrant : OtaProg Unit :=
  modify fun s => { s with maintenanceGrant := s.maintenanceGrant.clear }

def maintenancePowerSafe : OtaProg Bool := do
  let running ← perform .runningPartition
  let boot ← perform .bootPartition
  let ready ← perform .currentReady
  match running, boot with
  | some running, some boot =>
    if (← get).maintenanceMode && ready then checkGrant running boot
    else
      clearGrant
      return false
  | _, _ =>
    clearGrant
    return false

def publish (stage : UiStage) : OtaProg Unit :=
  holding .snapshotLock <| modify fun s =>
    { s with
      approvedRequest := s.approvedRequest && stage != .failed && stage != .waitingPower
      statusStage := stage
      ui := { s.ui with stage := stage } }

def Ui.clearCandidate (ui : Ui) : Ui :=
  { ui with
    targetVersion := "-", sha256 := "", signatureShort := ""
    signatureVerified := false, imageVerified := false }

def refreshRequestUiBinding (expectedSha : String) : OtaProg Unit :=
  holding .snapshotLock <| modify fun s =>
    if !s.ui.signatureVerified ∨ expectedSha = "" ∨ expectedSha ≠ s.ui.sha256 then
      { s with ui := s.ui.clearCandidate }
    else s

/-- What `failLocked` does to a transaction that selected nothing. -/
def abandon (message : String) (s : Ram) : OtaProg Unit := do
  modify fun s => { s with maintenanceMode := false }
  if s.writing then perform (.otaAbort s.handle)
  modify fun s => { s with writing := false, handle := 0 }
  if s.hashLive then perform .hashAbort
  modify fun s => { s with hashLive := false, pending := false, target := none }
  perform (.failed message)
  modify fun s => { s with imageReady := false, verified := false }
  holding .snapshotLock <| modify fun s => { s with ui := { s.ui with imageVerified := false } }
  modify fun s =>
    { s with checkQueued := false, checking := false, installQueued := false, rebootQueued := false }
  publish .failed
  modify fun s => { s with active := false }

def retain : OtaProg Unit := do
  modify fun s =>
    { s with
      active := false, pending := false, approvedRequest := false, checkQueued := false
      checking := false, installQueued := false, rebootQueued := false }
  publish .readyReboot

def failLocked (message : String) : OtaProg Unit := do
  clearGrant
  let s ← get
  if s.selected then retain else abandon message s

def reject (message : String) : OtaProg Bool := do
  failLocked message
  return false

def revokeForNormalRequest : OtaProg Unit := do
  let s ← get
  if s.maintenanceMode && !s.selected then failLocked "maintenance_cancelled_by_normal_request"
  else
    clearGrant
    if s.maintenanceMode && s.selected then publish .readyReboot

def validateDescriptor (json : String) : OtaProg (Except String Descriptor) := do
  match ← perform (.validate json) with
  | .error e => return .error e
  | .ok m =>
    if lowerHex m.sha then return .ok { m with hash := unhex m.sha }
    else return .error "manifest_fields_or_encoding"

end Mosaico.Ota
