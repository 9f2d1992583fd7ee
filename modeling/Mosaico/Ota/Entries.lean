import Mosaico.Ota.Session

/-! The entry points of `mosaico_ota.cpp`, each with the admission it takes. Those that only
read (the status texts, `maintenanceRuntimeRestart`, `rollbackTest`) are left out. -/
namespace Mosaico.Ota

open Interaction

/-- How a lease was obtained. -/
inductive Kind where
  | storage | networkStart
  deriving DecidableEq, Repr

/-- The storage lease (a recursive mutex, a depth and an owner), and everything else. -/
inductive Call where
  | tryLockLease
  | unlockLease
  | depth
  | deepen (kind : Kind)
  | shallow
  | storeOwner (mine : Bool)
  | ownsLease
  | ota (c : OtaCall)

abbrev Answer : Call → Type
  | .tryLockLease | .ownsLease => Bool
  | .depth | .shallow => Nat
  | .unlockLease | .deepen _ | .storeOwner _ => Unit
  | .ota c => OtaAnswer c

abbrev EntryProg (α : Type) := Prog Call Answer α

def lift {α : Type} : OtaProg α → EntryProg α
  | .done value => .done value
  | .call c next => .call (.ota c) fun r => lift (next r)

def leaseCall (c : Call) : EntryProg (Answer c) := Prog.perform c

/-- The mutex is this task's; `StorageAdmission` also wants no lease. -/
def leased {α : Type} (refused : α) (body : EntryProg α) : EntryProg α := do
  if (← leaseCall .depth) = 0 then
    let r ← body
    leaseCall .unlockLease
    return r
  else
    leaseCall .unlockLease
    return refused

def admitted {α : Type} (refused : α) (body : EntryProg α) : EntryProg α := do
  if ← leaseCall .tryLockLease then leased refused body else return refused

abbrev maxDepth : Nat := 2 ^ 32 - 1

def enterLease (kind : Kind) (refused : Bool) : EntryProg Bool := do
  if refused then
    leaseCall .unlockLease
    return false
  else
    leaseCall (.deepen kind)
    leaseCall (.storeOwner true)
    return true

def storageRefused : EntryProg Bool := do
  if ← lift busy then return true
  else return (← leaseCall .depth) == maxDepth

def tryStorageLease : EntryProg Bool := do
  if ← leaseCall .tryLockLease then enterLease .storage (← storageRefused) else return false

def networkStartRefused : EntryProg Bool := return (← leaseCall .depth) == maxDepth

def tryNetworkStartLease : EntryProg Bool := do
  if ← leaseCall .tryLockLease then enterLease .networkStart (← networkStartRefused)
  else return false

def leaveLease : EntryProg Unit := do
  if (← leaseCall .shallow) = 0 then leaseCall (.storeOwner false)
  leaseCall .unlockLease

def releaseStorageLease : EntryProg Unit := do
  if ← leaseCall .ownsLease then leaveLease else return ()

def unlessNandBusy (body : OtaProg Bool) : OtaProg Bool := do
  if ← perform .nandBusy then return false else body

def touchAdmitted (body : OtaProg Bool) : OtaProg Bool := do
  if ← perform .touchAdmission then body else return false

def timeMs (us : Int) : UInt32 := UInt32.ofInt (us / 1000)

/-- The new transaction, once it is admitted and safe. -/
def enqueued (automatic preserveAge : Bool) : OtaProg Bool := do
  modify fun s =>
    { s with
      automaticMode := automatic, fullFallbackUsed := false, deltaTransfer := false
      received := 0, expectedSize := 0, pending := true }
  if !preserveAge then
    let now ← perform .now
    modify fun s => { s with requestedAtMs := timeMs now }
  modify fun s => { s with active := true }
  publish .downloading
  return true

def requestGuarded (automatic preserveAge maintenance : Bool) : OtaProg Bool := do
  let s ← get
  if s.active || s.approvedRequest || s.imageReady || s.selected then return false
  else
    refreshRequestUiBinding (if maintenance then s.maintenanceGrant.sha else s.approvedHash)
    if !(← perform .currentReady) then reject "running_or_layout_not_ready"
    else if !(← if maintenance then maintenancePowerSafe else downloadPowerSafe) then
      reject "gauge_not_valid_sealed_cfg0_cal0"
    else enqueued automatic preserveAge

def requestLocked (automatic preserveAge maintenance : Bool) : EntryProg Bool :=
  admitted false <| lift <| unlessNandBusy <| touchAdmitted <|
    requestGuarded automatic preserveAge maintenance

/-- The hash that the display shows becomes the approved one, where it shows a candidate. -/
def bindApproval (s : Ram) : Ram :=
  if s.ui.signatureVerified ∧ s.ui.sha256 ≠ "" ∧
      (s.ui.stage = .available ∨ s.ui.stage = .waitingPower) then
    { s with approvedHash := s.ui.sha256 }
  else
    { s with
      approvedHash := "", verified := false
      ui := { s.ui with
        signatureVerified := false, imageVerified := false, sha256 := "", signatureShort := "" } }

def requestBound : OtaProg Bool := do
  revokeForNormalRequest
  perform (.lock .snapshotLock)
  let wasBusy ← busy
  let s ← get
  if wasBusy || s.imageReady || s.selected then
    perform (.unlock .snapshotLock)
    return false
  else
    modify bindApproval
    perform (.unlock .snapshotLock)
    activeUsbPower

def request : EntryProg Bool := admitted false do
  if ← lift (perform .nandBusy) then return false
  else if !(← lift (perform .touchAdmission)) then return false
  else
    lift (perform (.lock .lock))
    if !(← lift requestBound) then
      lift (perform (.unlock .lock))
      return false
    else
      let accepted ← requestLocked true false false
      lift (modify fun s => { s with usbBypass := accepted })
      lift (perform (.unlock .lock))
      return accepted

def maintenanceDenied : OtaProg Bool := do
  clearGrant
  return false

/-- The grant is started at the running partition and the one to boot, where these pass. -/
def startGrant (expectedSha : String) (ttlSeconds : Nat) (pass : Partition → Partition → Bool) :
    OtaProg Bool := do
  let running ← perform .runningPartition
  let boot ← perform .bootPartition
  let usb ← perform .usb
  let ready ← perform .currentReady
  match running, boot with
  | some running, some boot =>
    if ready && pass running boot then
      let now ← perform .now
      let (ok, grant) := (← get).maintenanceGrant.start expectedSha ttlSeconds now running.address
        boot.address usb.unmounts
      modify fun s => { s with maintenanceGrant := grant }
      return ok
    else return false
  | _, _ => return false

def maintenancePrepared (expectedSha : String) (ttlSeconds : Nat) : OtaProg Bool := do
  let wasBusy ← busy
  let s ← get
  if wasBusy || s.imageReady || s.selected then maintenanceDenied
  else if !(← startGrant expectedSha ttlSeconds fun running boot =>
      running.address == boot.address) then maintenanceDenied
  else
    refreshRequestUiBinding expectedSha
    modify fun s =>
      { s with maintenanceMode := true, automaticMode := false, usbBypass := false, approvedHash := "" }
    if ← maintenancePowerSafe then return true else reject "maintenance_admission_power"

def requestMaintenanceUpdate (expectedSha : String) (ttlSeconds : Nat) : EntryProg Bool :=
  admitted false do
    if ← lift (perform .nandBusy) then return false
    else if !(← lift (perform .touchAdmission)) then return false
    else
      lift (perform (.lock .lock))
      if !(← lift (maintenancePrepared expectedSha ttlSeconds)) then
        lift (perform (.unlock .lock))
        return false
      else
        let accepted ← requestLocked false false true
        if !accepted then
          lift clearGrant
          lift (modify fun s => { s with maintenanceMode := false })
        lift (perform (.unlock .lock))
        return accepted

def maintenanceRebootLocked (expectedSha : String) (ttlSeconds : Nat) : OtaProg Bool := do
  let wasBusy ← busy
  let s ← get
  if !s.maintenanceMode || !s.selected || !s.imageReady || !s.verified || wasBusy ||
      !lowerHex expectedSha || expectedSha != hashHex s.expectedHash then maintenanceDenied
  else
    match s.target with
    | none => maintenanceDenied
    | some target =>
      if !(← startGrant expectedSha ttlSeconds fun running boot =>
          running.address == s.maintenanceGrant.runningAddress && boot.address == target.address)
      then maintenanceDenied
      else if !(← maintenancePowerSafe) then reject "maintenance_reboot_power"
      else
        modify fun s => { s with rebootQueued := true }
        return true

def requestMaintenanceReboot (expectedSha : String) (ttlSeconds : Nat) : EntryProg Bool :=
  admitted false <| lift <| touchAdmitted <| holding .lock <|
    maintenanceRebootLocked expectedSha ttlSeconds

/-- An approval of what the display shows, under the locks that are only tried. -/
def approveLocked (expectedSha : String) : OtaProg Bool := do
  revokeForNormalRequest
  tryHolding .snapshotLock false do
    let wasBusy ← busy
    let s ← get
    if wasBusy || !lowerHex expectedSha || expectedSha != s.ui.sha256 || !s.ui.signatureVerified ||
        s.ui.imageVerified || (s.ui.stage != .available && s.ui.stage != .waitingPower) then
      return false
    else
      let now ← perform .now
      modify fun s =>
        { s with
          approvedHash := s.ui.sha256, requestedAtMs := timeMs now, approvedRequest := true }
      return true

def approveUpdate (expectedSha : String) : EntryProg Bool :=
  admitted false <| lift <| unlessNandBusy <| touchAdmitted <|
    tryHolding .lock false (approveLocked expectedSha)

/-- The running image's hash, read once a boot and never again after a failure. -/
def currentImageHash : OtaProg Bool := do
  let s ← get
  if s.currentHashChecked then return s.currentHashValid
  else
    modify fun s => { s with currentHashChecked := true }
    match ← perform .hashRunning with
    | none => return false
    | some sha =>
      modify fun s => { s with currentHash := sha, currentHashValid := true }
      return true

def showCandidate (d : Descriptor) (s : Ram) : Ram :=
  { s with
    verified := false
    ui := { s.ui with
      targetVersion := d.version, sha256 := d.sha, signatureShort := d.fingerprint
      signatureVerified := true, imageVerified := false } }

/-- A candidate that is neither running nor was tried is shown; true when it is. -/
def showDiscovered (d : Descriptor) : OtaProg Bool := do
  if !(← currentImageHash) then
    publish .failed
    return false
  else
    match ← perform .readAttempt with
    | none =>
      publish .failed
      return false
    | some attempted =>
      if d.sha = (← get).currentHash ∨ d.sha = attempted then
        publish .idle
        return false
      else
        modify fun s => { s with expectedSize := d.size, received := 0 }
        holding .snapshotLock <| modify (showCandidate d)
        publish .available
        modify fun s => { s with checking := false }
        return true

/-- The hash of the discovered candidate. -/
def discoverLocked (json : String) : OtaProg (Option String) := do
  revokeForNormalRequest
  let s ← get
  if s.active || s.approvedRequest || s.imageReady || s.selected then return none
  else
    match ← validateDescriptor json with
    | .error _ =>
      publish .failed
      return none
    | .ok d =>
      if !(← perform .currentReady) then return none
      else if ← showDiscovered d then return some d.sha
      else return none

def discoverManifest (json : String) : EntryProg Bool := admitted false do
  if !(← lift (perform .touchAdmission)) then return false
  else
    match ← lift (holding .lock (discoverLocked json)) with
    | none => return false
    | some sha =>
      if (← lift get).autoInstall then
        let _ ← approveUpdate sha
        return true
      else return true

def deferLocked : OtaProg Unit := do
  revokeForNormalRequest
  tryHolding .snapshotLock () do
    let wasBusy ← busy
    let s ← get
    if wasBusy || s.ui.imageVerified || s.selected then return ()
    else
      modify fun s =>
        { s with approvedRequest := false, statusStage := .idle, ui := { s.ui with stage := .idle } }

def deferUpdate : EntryProg Unit := admitted () <| lift <| tryHolding .lock () deferLocked

def setAutomaticInstall (enabled : Bool) : EntryProg Bool :=
  admitted false <| lift <| holding .lock do
    revokeForNormalRequest
    if ← perform (.storePreference enabled) then
      modify fun s => { s with autoInstall := enabled, preferenceLoaded := true }
      return true
    else return false

def requestAgeMs : OtaProg UInt32 := do
  if ← busy then return timeMs (← perform .now) - (← get).requestedAtMs else return 0

/-- The request that was queued is handed over, unless the maintenance grant is gone. -/
def takePending : OtaProg Bool := do
  let s ← get
  if s.maintenanceMode && s.pending && !(← maintenancePowerSafe) then
    reject "maintenance_request_expired"
  else
    let s ← get
    modify fun s => { s with pending := false }
    return s.pending && s.active

def approvalTimedOut : OtaProg Bool := do
  let s ← get
  if s.active || !s.approvedRequest then return false
  else return decide ((← requestAgeMs) ≥ 120000)

def exchangeApproval : OtaProg Bool := do
  if (← get).active then return false else perform .exchangeApproved

/-- What becomes of an approval before its transaction: true where it may start. -/
def takeApproval : OtaProg Bool := do
  modify fun s => { s with usbBypass := false }
  if !(← perform .currentReady) then
    publish .failed
    return false
  else if !(← downloadPowerSafe) then
    publish .waitingPower
    return false
  else return true

def takeLocked : EntryProg Bool := do
  let s ← lift get
  if !s.active && !s.approvedRequest && !s.pending then return false
  else if !(← lift (perform .touchAdmission)) then return false
  else if ← lift approvalTimedOut then lift (reject "request_timeout")
  else if ← lift exchangeApproval then
    if !(← lift takeApproval) then return false
    else if !(← requestLocked (← lift get).autoInstall true false) then return false
    else lift takePending
  else lift takePending

def takeRequest : EntryProg Bool := admitted false do
  lift (perform (.lock .lock))
  let r ← takeLocked
  lift (perform (.unlock .lock))
  return r

def fail (message : String) : EntryProg Unit := lift <| holding .lock (failLocked message)

def manifestRefused (s : Ram) (d : Descriptor) : Option String :=
  if s.maintenanceMode && (!d.versionSigned || !s.maintenanceGrant.matchesSha d.sha) then
    some "maintenance_manifest_pin"
  else if s.approvedHash ≠ "" ∧ d.sha ≠ s.approvedHash then some "approved_manifest_changed"
  else if s.fullFallbackUsed ∧ (d.size ≠ s.expectedSize ∨ d.hash ≠ s.expectedHash) then
    some "fallback_target_changed"
  else none

def acceptManifest (d : Descriptor) (s : Ram) : Ram :=
  { s with expectedSize := d.size, signedVersion := d.versionSigned, expectedHash := d.hash }

def transactionPowerSafe : OtaProg Bool := do
  if (← get).maintenanceMode then maintenancePowerSafe else downloadPowerSafe

/-- The next partition, where it can take the image and is not the running one. -/
def chooseTarget (size : Nat) : OtaProg (Option Partition) := do
  let running ← perform .runningPartition
  let next ← perform .nextUpdatePartition
  modify fun s => { s with target := next }
  match next with
  | none => return none
  | some p =>
    if (← perform (.imageFits p size)) && running.all fun r => p.address != r.address then
      return some p
    else return none

def startWriting (p : Partition) (size : Nat) : OtaProg Bool := do
  modify fun s => { s with hashLive := true }
  if !(← perform .hashSetup) then reject "hash_init"
  else
    match ← perform (.otaBegin p size) with
    | none => reject "ota_begin"
    | some h =>
      modify fun s => { s with handle := h, writing := true, received := 0 }
      publish .downloading
      return true

def beginAccepted (d : Descriptor) : OtaProg Bool := do
  modify (acceptManifest d)
  holding .snapshotLock <| modify (showCandidate d)
  let ready ← perform .currentReady
  if !(← if ready then transactionPowerSafe else pure false) then reject "prewrite_safety"
  else
    match ← chooseTarget d.size with
    | none => reject "target_partition"
    | some p => startWriting p d.size

def beginLocked (json : String) : OtaProg Bool := do
  let s ← get
  if !s.active || s.pending || s.writing || s.imageReady then reject "manifest_out_of_sequence"
  else
    match ← validateDescriptor json with
    | .error e => reject e
    | .ok d =>
      match manifestRefused (← get) d with
      | some message => reject message
      | none => beginAccepted d

def beginManifest (json : String) : EntryProg Bool :=
  admitted false <| lift <| unlessNandBusy <| touchAdmitted <| holding .lock (beginLocked json)

def chunkRefused (s : Ram) (offset : Nat) : OtaProg (Option String) := do
  if s.maintenanceMode then
    if ← maintenancePowerSafe then return none else return some "maintenance_chunk_power"
  else if offset % 65536 = 0 then
    if ← downloadPowerSafe then return none else return some "download_power_lost"
  else return none

def storeChunk (s : Ram) (offset : Nat) (data : List UInt8) : OtaProg Bool := do
  if !(← perform (.otaWrite s.handle offset data)) then reject "ota_write"
  else if !(← perform (.hashUpdate data)) then reject "hash_update"
  else
    modify fun s => { s with received := s.received + data.length }
    publish (if s.deltaTransfer then .verifying else .downloading)
    return true

def writeLocked (offset : Nat) (data : List UInt8) : OtaProg Bool := do
  let s ← get
  if !s.active || !s.writing || data.isEmpty || offset != s.received ||
      decide (s.received > s.expectedSize) ||
      decide (data.length > s.expectedSize - s.received) then
    reject "chunk_offset_or_length"
  else if data.length > 4096 || !(← perform (.inDram data)) then reject "chunk_not_internal"
  else
    match ← chunkRefused s offset with
    | some message => reject message
    | none => storeChunk s offset data

def writeChunk (offset : Nat) (data : List UInt8) : EntryProg Bool :=
  admitted false <| lift <| holding .lock (writeLocked offset data)

/-- The power a step of the maintenance transaction needs; others need none here. -/
def maintenanceSafe : OtaProg Bool := do
  if (← get).maintenanceMode then maintenancePowerSafe else return true

def imageAccepted : OtaProg Bool := do
  let now ← perform .now
  modify fun s => { s with imageReady := true, verified := true, readySince := now, installSince := 0 }
  holding .snapshotLock <| modify fun s => { s with ui := { s.ui with imageVerified := true } }
  publish .readyInstall
  modify fun s => { s with active := s.usbBypass || s.automaticMode || s.maintenanceMode }
  return true

/-- The version of the image, where the manifest signed one. -/
def imageChecked : OtaProg Bool := do
  let s ← get
  let version ← match s.target with
    | none => pure none
    | some p => perform (.appVersion p)
  match version with
  | none => reject "image_version_mismatch"
  | some v =>
    if s.signedVersion && v != s.ui.targetVersion then reject "image_version_mismatch"
    else imageAccepted

def endImage : OtaProg Bool := do
  perform .hashAbort
  modify fun s => { s with hashLive := false }
  let ended ← perform (.otaEnd (← get).handle)
  modify fun s => { s with writing := false, handle := 0 }
  if !ended then reject "image_validation"
  else if !(← maintenanceSafe) then reject "maintenance_end_power"
  else imageChecked

def finishLocked : OtaProg Bool := do
  let s ← get
  if !s.active || !s.writing || s.received != s.expectedSize then reject "incomplete_image"
  else if !(← maintenanceSafe) then reject "maintenance_final_power"
  else
    publish .verifying
    match ← perform .hashFinish with
    | none => reject "image_hash"
    | some digest => if digest = s.expectedHash then endImage else reject "image_hash"

def finishDownload : EntryProg Bool := admitted false <| lift <| holding .lock finishLocked

/-- The selector is written once the attempt is on record. -/
def selectImage : OtaProg Bool := do
  let s ← get
  if !(← perform (.recordAttempt (hashHex s.expectedHash) s.ui.targetVersion s.ui.signatureShort))
  then reject "attempt_commit_failed"
  else if !(← maintenanceSafe) then reject "maintenance_selector_power"
  else
    match (← get).target with
    | none => reject "set_boot_partition"
    | some p =>
      if !(← perform (.setBootPartition p)) then reject "set_boot_partition"
      else
        modify fun s => { s with selected := true }
        publish .readyReboot
        modify fun s => { s with active := false }
        return true

def waitForPower : OtaProg Bool := do
  modify fun s => { s with active := false, installSince := 0 }
  publish .waitingPower
  return false

def readyToInstall (s : Ram) (manual : Bool) : OtaProg Bool := do
  if !(← perform .currentReady) then return false
  else if s.maintenanceMode then return true
  else installPowerSafe manual

/-- Half a second after the first call, with fresh evidence. -/
def installNow (s : Ram) (manual : Bool) : OtaProg Bool := do
  if s.installSince = 0 then
    let now ← perform .now
    modify fun s => { s with installSince := now }
    publish .installing
    return false
  else if (← perform .now) - s.installSince < 500000 then return false
  else if !(← maintenanceSafe) then reject "maintenance_preselector_power"
  else if !(← readyToInstall s manual) then waitForPower
  else selectImage

def stillSettling (s : Ram) : OtaProg Bool := do
  if s.usbBypass || s.automaticMode || s.maintenanceMode then
    return decide ((← perform .now) - s.readySince < 1500000)
  else return false

def installAdmitted (s : Ram) : OtaProg Bool := do
  if ← stillSettling s then return false
  else if !(← maintenanceSafe) then reject "maintenance_install_power"
  else if !(← readyToInstall s (useManualInstallPolicy s)) then waitForPower
  else installNow s (useManualInstallPolicy s)

def installLocked : OtaProg Bool := do
  let s ← get
  if !s.active || !s.imageReady || s.selected then return false
  else touchAdmitted (installAdmitted s)

def installVerified : EntryProg Bool := admitted false <| lift <| holding .lock installLocked

/-- Delta transfer gives way to the full image, once. -/
def fallbackLocked : OtaProg Bool := do
  let s ← get
  if !s.active || s.selected || s.imageReady || s.fullFallbackUsed then return false
  else
    modify fun s => { s with fullFallbackUsed := true }
    if s.writing then perform (.otaAbort s.handle)
    modify fun s => { s with writing := false, handle := 0 }
    if s.hashLive then perform .hashAbort
    modify fun s => { s with hashLive := false, received := 0, deltaTransfer := false }
    publish .downloading
    return true

def resetDownloadForFullFallback : EntryProg Bool :=
  admitted false <| lift <| holding .lock fallbackLocked

def checkLocked : OtaProg Bool := do
  revokeForNormalRequest
  tryHolding .snapshotLock false do
    let wasBusy ← busy
    let s ← get
    if wasBusy || s.selected || s.ui.stage == .readyInstall || s.ui.stage == .readyReboot ||
        (s.ui.stage == .waitingPower && s.imageReady) then return false
    else
      let now ← perform .now
      modify fun s =>
        { s with requestedAtMs := timeMs now, ui := s.ui.clearCandidate, checkQueued := true }
      return true

def requestCheck : EntryProg Bool :=
  admitted false <| lift <| unlessNandBusy <| touchAdmitted <| tryHolding .lock false checkLocked

def takeCheckRequest : EntryProg Bool := admitted false <| lift do
  if !(← get).checkQueued then return false
  else
    touchAdmitted do
      let queued := (← get).checkQueued
      modify fun s => { s with checkQueued := false }
      if !queued then return false
      else
        modify fun s => { s with checking := true }
        publish .checking
        return true

def finishCheck (transportOk : Bool) : EntryProg Unit := lift do
  modify fun s => { s with checking := false }
  if !transportOk then publish .failed
  else if (← get).statusStage = .checking then publish .idle

def approveInstallLocked (expectedSha : String) : OtaProg Bool := do
  revokeForNormalRequest
  tryHolding .snapshotLock false do
    let wasBusy ← busy
    let s ← get
    if wasBusy || !lowerHex expectedSha || expectedSha != s.ui.sha256 || !s.ui.signatureVerified ||
        !s.ui.imageVerified || !s.imageReady || s.selected ||
        (s.ui.stage != .readyInstall && s.ui.stage != .waitingPower) then
      return false
    else
      let now ← perform .now
      modify fun s => { s with requestedAtMs := timeMs now, installQueued := true }
      return true

def approveInstall (expectedSha : String) : EntryProg Bool :=
  admitted false <| lift <| unlessNandBusy <| touchAdmitted <|
    tryHolding .lock false (approveInstallLocked expectedSha)

def rebootLocked : OtaProg Bool := do
  revokeForNormalRequest
  tryHolding .snapshotLock false do
    let wasBusy ← busy
    let s ← get
    if wasBusy || s.ui.stage != .readyReboot || !s.selected then return false
    else
      modify fun s => { s with rebootQueued := true }
      return true

def requestReboot : EntryProg Bool :=
  admitted false <| lift <| unlessNandBusy <| touchAdmitted <| tryHolding .lock false rebootLocked

def freshPowerLocked : OtaProg Bool := do
  let s ← get
  if !(← if s.maintenanceMode then maintenancePowerSafe
      else installPowerSafe (useManualInstallPolicy s)) then
    modify fun s => { s with active := false }
    publish .readyReboot
    return false
  else
    modify fun s => { s with active := true }
    perform .restart
    return true

def rebootWithFreshPower : EntryProg Bool :=
  admitted false <| lift <| touchAdmitted <| holding .lock freshPowerLocked

def installStage (stage : UiStage) : Bool :=
  stage == .readyInstall || stage == .waitingPower || stage == .installing

/-- The polling of `installVerified`, for as many rounds as its deadline leaves. -/
def installLoop : Nat → EntryProg Unit
  | 0 => return ()
  | rounds + 1 => do
    let s ← lift get
    if s.active && !s.selected then
      let _ ← installVerified
      installLoop rounds
    else return ()

def installWork (rounds : Nat) : EntryProg Unit := do
  installLoop rounds
  if (← lift get).active then fail "install_stage_timeout"
  let s ← lift get
  if (s.usbBypass || s.automaticMode || s.maintenanceMode) && s.selected then
    let _ ← rebootWithFreshPower

def startQueuedInstall (s : Ram) : Ram :=
  if s.installQueued then
    { s with
      installQueued := false, automaticMode := false, usbBypass := false, installSince := 0
      active := true }
  else s

def localWork (rounds : Nat) : EntryProg Unit := do
  let s ← lift get
  lift (modify fun s => { s with rebootQueued := false })
  if s.rebootQueued && s.selected then
    let _ ← rebootWithFreshPower
  else
    lift (modify startQueuedInstall)
    let s ← lift get
    if s.active && s.imageReady && !s.selected && installStage s.statusStage then installWork rounds

def processLocalRequests (rounds : Nat) : EntryProg Unit := admitted () do
  let s ← lift get
  let installing := s.active && s.imageReady && !s.selected && installStage s.statusStage
  if !s.rebootQueued && !s.installQueued && !installing then return ()
  else if !(← lift (perform .observersClean)) then return ()
  else if !(← lift (perform .touchAdmission)) then return ()
  else localWork rounds

/-- Of the progress, later calls only see whether it is of a delta, and the stage. -/
def recordTransferProgress (delta reconstructing : Bool) : EntryProg Unit :=
  lift <| holding .snapshotLock do
    if (← get).active then
      modify fun s => { s with deltaTransfer := delta }
      if reconstructing then
        modify fun s => { s with statusStage := .verifying, ui := { s.ui with stage := .verifying } }

end Mosaico.Ota
