import Mosaico.Gauge.HalAccess

/-! `Hal::gaugeSetNominalCapacity`: the two capacity fields of the data memory are set to the nominal
capacity, or back to what they were, under a stored journal. -/
namespace Mosaico.Gauge.Hal

open ByteFields Interaction DurableCell

section Memory

def macChecksum (bytes : List UInt8) : UInt8 := 255 - bytes.foldl (· + ·) 0

/-- A block of 36 bytes: the selector, the data, the checksum and the length. -/
def authenticatedMac (block : List UInt8) (selector : UInt16) (dm : Bool) : Bool :=
  let length := (block.getD 35 0).toNat
  decide (6 ≤ length) && decide (length ≤ 36) && (!dm || length == 36) &&
    block.getD 0 0 == low selector && block.getD 1 0 == high selector &&
    macChecksum (block.take (length - 2)) == block.getD 34 0

def authenticateDmResponse (block : List UInt8) (requested : UInt16) : Bool :=
  let block := if block.getD 0 0 = 0xff ∧ block.getD 1 0 = 0xff then
      low requested :: high requested :: block.drop 2
    else block
  authenticatedMac block requested true

/-- Words from `reg` on, `n` of them. -/
def macPayload : Nat → UInt8 → Bus (Option (List UInt8))
  | 0, _ => return some []
  | n + 1, reg => do
    let some bytes ← gaugeRead reg | return none
    let some rest ← macPayload n (reg + 2) | return none
    return some (bytes.1 :: bytes.2 :: rest)

def selectPacket (field : Field) : List UInt8 := [0x3e, low field.address, high field.address]

def bigEndian (bytes : UInt8 × UInt8) : UInt16 :=
  (bytes.1.toUInt16 <<< (8 : UInt16)) ||| bytes.2.toUInt16

def gaugeMacWord (field : Field) : Bus (Option UInt16) := do
  if !(← transmit (selectPacket field)) then return none
  else
    let some echo ← gaugeRead 0x3e | return none
    let some value ← gaugeRead 0x40 | return none
    let some rest ← macPayload 16 0x42 | return none
    if authenticateDmResponse (echo.1 :: echo.2 :: value.1 :: value.2 :: rest) field.address then
      return some (bigEndian value)
    else return none

def gaugePair : Bus (Option GaugePair) := do
  let design ← gaugeMacWord .design
  let fcc ← gaugeMacWord .initialFcc
  match design, fcc with
  | some design, some fcc => return some { design := design, fcc := fcc }
  | _, _ => return none

/-- The standard registers; the second is read where the first could be. -/
def standardPair : Bus (Option GaugePair) := do
  let some dc ← gaugeWord 0x3c | return none
  let some fcc ← gaugeWord 0x12 | return none
  return some { design := dc, fcc := fcc }

def gaugeStandardMatches (pair : GaugePair) : Bus Bool := do
  let dc ← gaugeWord 0x3c
  let fcc ← gaugeWord 0x12
  return dc == some pair.design && fcc == some pair.fcc

def gaugeQuietFull (ownedUnresolvedRestore : Bool := false) : Bus (Option UInt16) := do
  let operation ← gaugeWord 0x3a
  let soc ← gaugeWord 0x2c
  let mv ← gaugeWord 0x08
  let temperature ← gaugeWord 0x06
  let current ← gaugeWord 0x0c
  let average ← gaugeWord 0x14
  let reload ← gate .bootFactoryReloadScope
  match operation, soc, mv, temperature, current, average with
  | some operation, some soc, some mv, some temperature, some current, some average =>
    if reload && !ownedUnresolvedRestore && security operation == 1 then
      let standard ← standardPair
      let quiet := standard == some { design := factoryMah, fcc := factoryMah } &&
        bootReloadPhysical operation mv temperature current.toInt16 average.toInt16
      return if quiet then some operation else none
    else
      let quiet :=
        if ownedUnresolvedRestore then
          quietFullRestore operation soc mv temperature current.toInt16 average.toInt16 true
        else quietFull operation soc mv temperature current.toInt16 average.toInt16
      return if quiet then some operation else none
  | _, _, _, _, _, _ => return none

def fieldPacket (field : Field) (value : UInt16) : List UInt8 :=
  [0x3e, low field.address, high field.address, high value, low value]

def commitPacket (field : Field) (value : UInt16) : List UInt8 :=
  [0x60, macChecksum (fieldPacket field value).tail, 6]

def writable (operation : UInt16) : Bool :=
  security operation == 1 && operation &&& 0x0400 != 0 && operation &&& 1 == 0

def readBackWord (field : Field) (value : UInt16) : Nat → Bus Bool
  | 0 => return true
  | n + 1 => do
    if (← gaugeMacWord field) = some value then readBackWord field value n else return false

def gaugeWriteField (journal : Journal) (field : Field) (value : UInt16) : Bus Bool := do
  if !allowedValue journal field value then return false
  else if !((← gaugeWord 0x3a).any writable) then return false
  else if !(← transmit (fieldPacket field value)) then return false
  else if !(← transmit (commitPacket field value)) then return false
  else readBackWord field value 2

end Memory

section Transaction

variable (mac : Bytes 6)

def gaugeSealedPriorVerified : Bus Bool := do
  if !(← gate .factoryMac) then return false
  else
    match ← gaugeLoadAccess mac with
    | .ok access =>
      return access.priorSecurity == 3 && access.unsealVerified != 0 && access.fullVerified != 0 &&
        !failedDefaultAttempt access && (access.state == AccessState.opened.byte ||
          access.state == AccessState.restored.byte)
    | .error _ => return false

/-- The pair as the data memory has it, and the standard registers too where that is asked. -/
def pairShown (desired : GaugePair) (standard : Bool) : Bus Bool := do
  if (← gaugePair) ≠ some desired then return false
  else if standard then gaugeStandardMatches desired
  else return true

/-- A sealed gauge may hide its data memory: then the standard registers count. -/
def sealedShown (desired : GaugePair) : Bus Bool := do
  if !(← gaugeSealedPriorVerified mac) then return false
  else if !(← gaugeIdentity) then return false
  else gaugeStandardMatches desired

def standardShown (desired : GaugePair) : Bus Bool := do
  match ← gaugeWord 0x3a with
  | none => return false
  | some operation =>
    if !configExitAccepted operation then return false
    else if security operation = 3 then sealedShown mac desired
    else pairShown desired true

def verifyPairTimes (desired : GaugePair) (standard : Bool) : Nat → Bus Bool
  | 0 => return true
  | n + 1 => do
    let shown ← if standard then standardShown mac desired else pairShown desired false
    if shown then verifyPairTimes desired standard n else return false

def gaugeVerifyPair (desired : GaugePair) (standard : Bool) : Bus Bool :=
  verifyPairTimes mac desired standard 2

def verifiedWhere (go : Bool) (desired : GaugePair) (standard : Bool) : Bus Bool :=
  if go then gaugeVerifyPair mac desired standard else return false

def rollbackField (journal : Journal) (field : Field) (value : UInt16) (touched : Bool) : Bus Bool :=
  if touched then gaugeWriteField journal field value else return true

def gaugeRollback (journal : Journal) (before : GaugePair) (touchedDc touchedFcc : Bool) :
    Bus Bool := do
  let dc ← rollbackField journal .design before.design touchedDc
  let fcc ← rollbackField journal .initialFcc before.fcc touchedFcc
  if dc && fcc then gaugeVerifyPair mac before false else return false

def enterConfig : Bus Bool := do
  let sent ← gaugeControl .enterConfig
  let observed ← gaugeWaitConfig true
  return sent && observed

def outcome (success : Bool) (why : String) : Outcome := { success := success, reason := why }

def Journal.withState (j : Journal) (state : State) : Journal := { j with state := state.byte }

def Journal.withLast (j : Journal) (pair : GaugePair) : Journal :=
  { j with lastDesign := pair.design, lastFcc := pair.fcc }

/-- A pending intent; its outcome is not known yet. -/
def Journal.intent (j : Journal) (action : UInt8) : Journal :=
  (({ j with action := action } : Journal).withState .pending).withLast {}

def sealedMark (journal : Journal) : Bus Journal := do
  match ← gaugeWord 0x3a with
  | some operation =>
    return if security operation = 3 then journal.withState .verifiedSealedPrior3 else journal
  | none => return journal

def finalJournal (journal : Journal) (state : State) (final : Option GaugePair) : Bus Journal :=
  match final with
  | some pair => sealedMark ((journal.withState state).withLast pair)
  | none => return journal.withState state

section Restore

def restoreRefused (journal : Journal) : Bus Outcome := do
  let exited ← gaugeExitConfig
  let state := if exited then State.rollbackFailed else State.exitFailed
  let _ ← gaugeStoreJournal mac (journal.withState state)
  let _ ← sampleBattery
  return outcome false
    (if exited then "blocked_recovery_preflight_exit_only" else "critical_cfg_exit_or_security")

def clearTarget (why : String) : Bus Outcome := do
  if !(← gaugeStoreNormalTarget 0) then
    return outcome false "critical_normal_target_clear_readback"
  else return outcome true why

def entered (operation : UInt16) : Bus Bool :=
  if operation &&& 0x0400 ≠ 0 then return true else enterConfig

def writeBack (journal : Journal) (before desired : GaugePair) (operation : UInt16) : Bus Bool := do
  let changeDc := before.design != desired.design
  let changeFcc := journal.changedFcc != 0 && before.fcc != desired.fcc
  if !(← entered operation) then return false
  else if !(← gaugeVerifyPair mac before false) then return false
  else gaugeRollback mac journal desired changeDc changeFcc

/-- The old values are written in configuration update, and it is left whatever came of that. -/
def restoreWrite (journal : Journal) (before desired : GaugePair) (operation : UInt16) :
    Bus (Bool × Bool) := do
  let written ← writeBack mac journal before desired operation
  let exited ← gaugeExitConfig
  let restored ← verifiedWhere mac (written && exited) desired true
  return (exited, restored)

def restoreFinish (journal : Journal) (desired : GaugePair) (owned exited restored : Bool) :
    Bus Outcome := do
  let state :=
    if !exited then State.exitFailed else if restored then .restored else .rollbackFailed
  let journal ← finalJournal journal state (if restored then some desired else none)
  let recorded ← gaugeStoreJournal mac journal
  let _ ← sampleBattery
  if !exited then return outcome false "critical_cfg_exit_or_security"
  else if !restored then return outcome false "critical_restore_old_readback"
  else if !recorded then return outcome false "critical_final_journal_readback"
  else
    clearTarget
      (if owned then "restored_interrupted_journal_old" else "restored_original_nominal")

def restoreRecheck (owned : Bool) (before : GaugePair) : Bus (Option UInt16) := do
  let some operation ← gaugeQuietFull owned | return none
  if (← gaugePair) = some before then return some operation else return none

def restoreRun (journal : Journal) (before desired : GaugePair) (owned : Bool)
    (operation : UInt16) : Bus Outcome := do
  let journal := journal.intent 2
  if !(← gaugeStoreJournal mac journal) then
    if operation &&& 0x0400 ≠ 0 then
      let exited ← gaugeExitConfig
      let _ ← sampleBattery
      return outcome false
        (if exited then "critical_recovery_journal_exit_only" else "critical_recovery_journal_cfg_active")
    else return outcome false "blocked_journal_prepare"
  else
    match ← restoreRecheck owned before with
    | none => restoreRefused mac journal
    | some operation =>
      let (exited, restored) ← restoreWrite mac journal before desired operation
      restoreFinish mac journal desired owned exited restored

def alreadyRestored (before desired : GaugePair) (operation : UInt16) : Bus Bool :=
  if operation &&& 0x0400 = 0 ∧ before = desired then gaugeVerifyPair mac desired true
  else return false

def restoreFrom (journal : Journal) (before : GaugePair) (owned : Bool) (operation : UInt16) :
    Bus Outcome := do
  let desired : GaugePair :=
    { design := journal.originalDesign
      fcc := if journal.changedFcc ≠ 0 then journal.originalFcc else before.fcc }
  if ← alreadyRestored mac before desired operation then
    let journal := (({ journal with action := 2 } : Journal).withState .restored).withLast desired
    if !(← gaugeStoreJournal mac journal) then return outcome false "critical_final_journal_readback"
    else clearTarget "already_restored_normal_target_cleared"
  else restoreRun mac journal before desired owned operation

def unexpectedDm (observed : UInt16) : Bus Outcome := do
  match ← gaugeWord 0x3c with
  | some standard =>
    return outcome false
      s!"blocked_expected_dm observed_dm_design={observed} std_design={standard}"
  | none =>
    return outcome false
      s!"blocked_expected_dm observed_dm_design={observed} std_design=unreadable"

/-- From the quiet gauge on. -/
def restoreQuiet (expectedOld : UInt16) (journal : Journal) : Bus Outcome := do
  let owned := recoveryState journal.state
  let some operation ← gaugeQuietFull owned | return outcome false "blocked_quiet_full_temperature"
  if !(← gaugeIdentity) then return outcome false "blocked_identity_0220"
  else
    let some before ← gaugePair | return outcome false "blocked_dm_mac_checksum_echo"
    if !restorePairAllowed journal before.design before.fcc then
      return outcome false "blocked_restore_old_target_pair"
    else if before.design ≠ expectedOld then unexpectedDm before.design
    else restoreFrom mac journal before owned operation

def restoreNominal (expectedOld : UInt16) (journal : Journal) : Bus Outcome := do
  let some operation ← gaugeWord 0x3a | return outcome false "blocked_restore_status_read"
  if security operation ≠ 1 then return outcome false "blocked_not_full_access"
  else if operation &&& 1 ≠ 0 then return outcome false "blocked_cal_active"
  else if operation &&& 0x0400 ≠ 0 ∧ recoveryState journal.state = false then
    return outcome false "blocked_cfg_without_unresolved_journal"
  else restoreQuiet mac expectedOld journal

end Restore

section Apply

/-- What the two writes came to; a write that failed may still have reached the device. -/
structure Progress where
  forward : Bool := false
  touchedDc : Bool := false
  touchedFcc : Bool := false
  deriving DecidableEq, Repr

def applyField (journal : Journal) (field : Field) (value : UInt16) (forward change : Bool) :
    Bus (Bool × Bool) :=
  if forward && change then do
    let ok ← gaugeWriteField journal field value
    return (ok, true)
  else return (forward, false)

def nearBoot (forward reload : Bool) : Bus Unit :=
  if forward && reload then enters .nearBootApply else return ()

def applyWrite (journal : Journal) (before desired : GaugePair) (changeFcc reload : Bool) :
    Bus Progress := do
  let entered ← enterConfig
  let forward ← verifiedWhere mac entered before false
  let (forward, touchedDc) ←
    applyField journal .design desired.design forward (before.design != desired.design)
  let (forward, touchedFcc) ← applyField journal .initialFcc desired.fcc forward changeFcc
  let forward ← verifiedWhere mac forward desired false
  nearBoot forward reload
  return { forward := forward, touchedDc := touchedDc, touchedFcc := touchedFcc }

def rollbackInPlace (journal : Journal) (before : GaugePair) (p : Progress) : Bus Bool :=
  if !p.forward && (p.touchedDc || p.touchedFcc) then
    gaugeRollback mac journal before p.touchedDc p.touchedFcc
  else return false

def applyCritical (journal : Journal) (why : String) : Bus Outcome := do
  let _ ← gaugeStoreJournal mac (journal.withState .exitFailed)
  let _ ← sampleBattery
  return outcome false why

def enteredRollback (journal : Journal) (before : GaugePair) (p : Progress) : Bus Bool := do
  if !(← enterConfig) then return false
  else gaugeRollback mac journal before p.touchedDc p.touchedFcc

def rollbackAgain (journal : Journal) (before : GaugePair) (p : Progress) : Bus (Bool × Bool) := do
  let rolledBack ← enteredRollback mac journal before p
  let exited ← gaugeExitConfig
  return (exited, rolledBack)

def untouchedShown (before : GaugePair) (p : Progress) (forward rolledBack : Bool) : Bus Bool :=
  if !forward && !p.touchedDc && !p.touchedFcc then gaugeVerifyPair mac before true
  else return rolledBack

def rolledBackShown (before : GaugePair) (p : Progress) (forward exited rolledBack : Bool) :
    Bus Bool := do
  let rolledBack ← untouchedShown mac before p forward rolledBack
  if !forward && rolledBack then verifiedWhere mac exited before true
  else return rolledBack

def applyFinish (journal : Journal) (before desired : GaugePair) (p : Progress)
    (forward exited rolledBack : Bool) : Bus Outcome := do
  let rolledBack ← rolledBackShown mac before p forward exited rolledBack
  let state :=
    if !exited then State.exitFailed else if forward then .committed
    else if rolledBack then .rolledBack else .rollbackFailed
  let final := if forward then some desired else if rolledBack then some before else none
  let journal ← finalJournal journal state final
  let recorded ← gaugeStoreJournal mac journal
  let _ ← sampleBattery
  if !exited then return outcome false "critical_cfg_exit_or_security"
  else if !forward && !rolledBack then return outcome false "critical_rollback_readback"
  else if !recorded then return outcome false "critical_final_journal_readback"
  else if !forward then return outcome false "failed_transaction_rolled_back"
  else return outcome true "nominal_set_not_learned"

/-- Full access outside configuration update, from which a rollback may start. -/
def reenterable (operation : UInt16) : Bool := configExitAccepted operation && security operation == 1

def applyExited (journal : Journal) (before desired : GaugePair) (p : Progress)
    (rolledBack : Bool) : Bus Outcome := do
  if p.forward then
    if ← gaugeVerifyPair mac desired true then
      applyFinish mac journal before desired p true true rolledBack
    else if !((← gaugeWord 0x3a).any reenterable) then
      applyCritical mac journal "critical_unknown_terminal_security"
    else
      let (exited, rolledBack) ← rollbackAgain mac journal before p
      applyFinish mac journal before desired p false exited rolledBack
  else applyFinish mac journal before desired p false true rolledBack

def applyRun (journal : Journal) (before desired : GaugePair) (changeFcc reload : Bool) :
    Bus Outcome := do
  let p ← applyWrite mac journal before desired changeFcc reload
  let rolledBack ← rollbackInPlace mac journal before p
  if !(← gaugeExitConfig) then applyCritical mac journal "critical_cfg_exit_or_security"
  else applyExited mac journal before desired p rolledBack

def applyRecheck (before : GaugePair) : Bus Bool := do
  let some _ ← gaugeQuietFull | return false
  if (← gaugePair) = some before then gaugeStandardMatches before else return false

def bootDiagnostic (reload : Bool) : Bus Unit :=
  if reload then enters .bootDiagnostic else return ()

def applyJournalled (journal : Journal) (before desired : GaugePair) (changeFcc : Bool) :
    Bus Outcome := do
  if !(← gaugeStoreJournal mac journal) then return outcome false "blocked_journal_prepare"
  else if !(← applyRecheck before) then return outcome false "blocked_preflight_changed_pending"
  else
    let reload ← gate .bootFactoryReloadScope
    bootDiagnostic reload
    applyRun mac journal before desired changeFcc reload

def freshJournal (before desired : GaugePair) (changeFcc : Bool) : Journal where
  magic := 0x47433635
  version := 1
  deviceType := deviceType
  unitMah := 1
  mac := mac
  originalDesign := before.design
  originalFcc := before.fcc
  targetDesign := desired.design
  targetFcc := desired.fcc
  changedFcc := if changeFcc then 1 else 0

def backupMatches (journal : Journal) (before : GaugePair) (changeFcc : Bool) : Bool :=
  journal.originalDesign == before.design && journal.originalFcc == before.fcc &&
    journal.changedFcc == if changeFcc then 1 else 0

def applyFrom (saved : Option Journal) (before : GaugePair) (operation : UInt16) : Bus Outcome :=
  if saved.any fun j => recoveryState j.state then
    return outcome false "blocked_pending_explicit_restore"
  else if !capacityPolicy before.design before.fcc then return outcome false "blocked_capacity_policy"
  else if before.design = nominalMah then return outcome true "already_nominal_not_learned"
  else
    let changeFcc := before.design == factoryMah && before.fcc == factoryMah
    let desired : GaugePair :=
      { design := nominalMah, fcc := if changeFcc then nominalMah else before.fcc }
    if saved.any fun j => !backupMatches j before changeFcc then
      return outcome false "blocked_existing_backup_mismatch"
    else
      let journal := saved.getD (freshJournal mac before desired changeFcc)
      applyJournalled mac { journal.intent 1 with operationBefore := operation } before desired
        changeFcc

def applyNominal (expectedOld : UInt16) (saved : Option Journal) (telemetry : Telemetry) :
    Bus Outcome := do
  if !telemetry.valid || !telemetry.capacityValid then
    return outcome false "blocked_standard_telemetry"
  else if telemetry.designMah ≠ expectedOld then return outcome false "blocked_expected_old"
  else if security telemetry.operationStatus ≠ 1 then return outcome false "blocked_not_full_access"
  else if telemetry.operationStatus &&& 0x0401 ≠ 0 then
    return outcome false "blocked_cfg_or_cal_active"
  else
    let some operation ← gaugeQuietFull | return outcome false "blocked_quiet_full_temperature"
    if !(← gaugeIdentity) then return outcome false "blocked_identity_0220"
    else
      let some before ← gaugePair | return outcome false "blocked_dm_mac_checksum_echo"
      if before.design ≠ expectedOld then return outcome false "blocked_standard_dm_mismatch"
      else if !(← gaugeStandardMatches before) then
        return outcome false "blocked_standard_dm_mismatch"
      else applyFrom mac saved before operation

end Apply

/-- The writer below the locks. -/
def setNominal (expectedOld target65 : UInt16) (restore : Bool) : Bus Outcome := do
  if target65 ≠ nominalMah then return outcome false "blocked_target_not_65"
  else if !(← gate .selftest) then return outcome false "blocked_safety_selftest"
  else if !(← gate .present) then return outcome false "blocked_standard_telemetry"
  else
    match ← gaugeLoadJournal mac with
    | .ok journal =>
      let telemetry ← sampleBattery
      if restore then restoreNominal mac expectedOld journal
      else applyNominal mac expectedOld (some journal) telemetry
    | .error .notFound =>
      if restore then return outcome false "blocked_restore_no_journal"
      else
        let telemetry ← sampleBattery
        applyNominal mac expectedOld none telemetry
    | .error _ => return outcome false "blocked_journal_crc_unit_identity"

section Reconcile

def reconcilable (j : Journal) : Bool :=
  j.state == State.committed.byte || j.state == State.pending.byte ||
    j.state == State.exitFailed.byte || j.state == State.verifiedSealedPrior3.byte

def accessEvidence (access : AccessJournal) : Bool :=
  access.priorSecurity == 3 && access.state == AccessState.restored.byte &&
    access.lastSecurity == 3 && access.unsealVerified != 0 && access.fullVerified != 0 &&
    !failedDefaultAttempt access

def targetShown (nominal : Journal) (sample : Telemetry) : Bool :=
  sample.valid && sample.capacityValid && configExitAccepted sample.operationStatus &&
    security sample.operationStatus == 3 && sample.designMah == nominal.targetDesign &&
    sample.fullMah == nominal.targetFcc && decide (sample.remainingMah ≤ sample.fullMah)

/-- The sample of the last of `n + 1` looks that showed the target. -/
def reconcileReads (nominal : Journal) : Nat → Bus (Except String Telemetry)
  | 0 => return .error "blocked_reconcile_observed_pair_or_state"
  | n + 1 => do
    if !(← gaugeIdentity) then return .error "blocked_identity_0220"
    else
      let sample ← sampleBattery
      if !targetShown nominal sample then return .error "blocked_reconcile_observed_pair_or_state"
      else if n = 0 then return .ok sample
      else reconcileReads nominal n

def reconcileStore (nominal : Journal) (sample : Telemetry) : Bus Outcome := do
  let journal := (nominal.withState .verifiedSealedPrior3).withLast
    { design := sample.designMah, fcc := sample.fullMah }
  if !(← gaugeStoreJournal mac journal) then
    return outcome false "critical_reconcile_journal_readback"
  else if !(← gaugeStoreNormalTarget nominalMah) then
    return outcome false "critical_normal_target_readback"
  else return outcome true "reconciled_std_target_observed_sec3_normal65_persisted"

def reconcileFrom (nominal : Journal) : Bus Outcome := do
  if !reconcilable nominal then return outcome false "blocked_reconcile_not_pending_forward"
  else if nominal.state = State.verifiedSealedPrior3.byte ∧
      (nominal.lastDesign ≠ nominal.targetDesign ∨ nominal.lastFcc ≠ nominal.targetFcc) then
    return outcome false "blocked_reconcile_not_target_terminal"
  else
    match ← gaugeLoadAccess mac with
    | .ok access =>
      if !accessEvidence access then
        return outcome false "blocked_reconcile_prior3_access_evidence"
      else
        match ← reconcileReads nominal 2 with
        | .ok sample => reconcileStore mac nominal sample
        | .error why => return outcome false why
    | .error _ => return outcome false "blocked_reconcile_prior3_access_evidence"

def gaugeReconcileNominal : Bus Outcome := do
  if !(← gate .storageLease) then return outcome false "blocked_ota_storage_lease"
  else if !(← gate .normalFence) then return outcome false "blocked_scale_recovery_required"
  else if !(← gaugeReady) then return outcome false "blocked_reconcile_gauge_or_model"
  else
    match ← gaugeLoadJournal mac with
    | .ok nominal =>
      if nominal.action ≠ 1 ∨ nominal.targetDesign ≠ nominalMah then
        return outcome false "blocked_reconcile_nominal_journal"
      else reconcileFrom mac nominal
    | .error _ => return outcome false "blocked_reconcile_nominal_journal"

end Reconcile

/-- What the first look shows of a gauge that may have to be opened. -/
inductive Look where
  | unreadable | «open» | sealed (alreadyNominal : Bool)

def nominalShown : Bus Bool := do
  return (← standardPair).any fun pair => keepLearnedNominal pair.design pair.fcc

def look : Bus Look := do
  if !(← gate .present) then return .unreadable
  else
    match ← gaugeWord 0x3a with
    | none => return .unreadable
    | some operation =>
      if configExitAccepted operation && security operation == 3 then
        return .sealed (← nominalShown)
      else return .open

def fencedNominal (restore : Bool) : Bus Bool := do
  let busy ← if restore then pure false else gate .otaBusy
  if busy then return true else return !(← gate .normalFence)

/-- Closed again where it was opened, or where a failed opening did so itself. -/
def closeOwner (opened : Bool) (cleanup : Cleanup) : Bus Bool := do
  if opened then
    let (closed, _) ← gaugeAccess mac .restore cleanup
    return closed.success
  else return !cleanup.attempted || cleanup.succeeded

/-- The transaction from sealed to sealed; `apply` is the same command on the opened gauge. -/
def sealedOwner (apply : Cleanup → Bus (Option Outcome)) (cleanup : Cleanup) : Bus (Option Outcome) := do
  let (opened, cleanup) ← gaugeAccess mac .open cleanup
  let applied ← if opened.success then apply cleanup else pure (some opened)
  match applied with
  | none => return none
  | some applied =>
    let closed ← closeOwner mac opened.success cleanup
    if !closed then return some (outcome false "critical_nominal_final_seal")
    else if !applied.success then return some (outcome false applied.reason)
    else return some (← gaugeReconcileNominal mac)

/-- `depth` bounds how often the command calls itself; with none of it left there is no result. -/
def gaugeSetNominalCapacity (expectedOld target65 : UInt16) (restore : Bool) :
    Nat → Cleanup → Bus (Option Outcome)
  | 0, _ => return none
  | depth + 1, cleanup => do
    if !(← gate .storageLease) then return some (outcome false "blocked_ota_storage_lease")
    else if ← fencedNominal restore then
      return some (outcome false "blocked_scale_recovery_required")
    else if restore = false ∧ expectedOld = factoryMah ∧ target65 = nominalMah then
      match ← look with
      | .unreadable => return some (outcome false "blocked_standard_telemetry")
      | .sealed true => return some (← gaugeReconcileNominal mac)
      | .sealed false =>
        sealedOwner mac (gaugeSetNominalCapacity expectedOld target65 restore depth) cleanup
      | .open => return some (← setNominal mac expectedOld target65 restore)
    else return some (← setNominal mac expectedOld target65 restore)

end Transaction

end Mosaico.Gauge.Hal
