import Mosaico.Gauge.HalBus

/-! `Hal::gaugeAccess`: the gauge is opened with the public key words and closed again, and what was
attempted is on record before any word is sent. -/
namespace Mosaico.Gauge.Hal

open ByteFields Interaction DurableCell

inductive AccessWord where
  | unsealFirst | unsealSecond | full | seal
  deriving DecidableEq, Repr

def AccessWord.value : AccessWord → UInt16
  | .unsealFirst => 0x0414 | .unsealSecond => 0x3672 | .full => 0xFFFF | .seal => 0x0030

def AccessWord.lowPacket (w : AccessWord) : List UInt8 := [0, low w.value]

def AccessWord.highPacket (w : AccessWord) : List UInt8 := [1, high w.value]

def gaugeAccessWord (w : AccessWord) : Bus Bool := do
  if !(← gate .keyWindowAllowed) then return false
  if !(← transmit w.lowPacket) then return false
  transmit w.highPacket

/-- A key of two words; the second follows only where the first went out. -/
def accessWords (first second : AccessWord) : Bus Bool := do
  if !(← gaugeAccessWord first) then return false
  gaugeAccessWord second

def waitSecurity (expected : UInt16) : Nat → Bus Bool
  | 0 => return false
  | n + 1 => do
    match ← gaugeWord 0x3a with
    | none => waitSecurity expected n
    | some operation =>
      if operation &&& 0x0401 ≠ 0 then return false
      else if security operation = expected then return true
      else waitSecurity expected n

def gaugeWaitSecurity (expected : UInt16) : Bus Bool := waitSecurity expected 20

def accessPreflight : Bus (Option (UInt16 × GaugePair)) := do
  let operation ← gaugeWord 0x3a
  let soc ← gaugeWord 0x2c
  let mv ← gaugeWord 0x08
  let temperature ← gaugeWord 0x06
  let current ← gaugeWord 0x0c
  let average ← gaugeWord 0x14
  let design ← gaugeWord 0x3c
  let fcc ← gaugeWord 0x12
  let remaining ← gaugeWord 0x10
  let reload ← gate .bootFactoryReloadScope
  match operation, soc, mv, temperature, current, average, design, fcc, remaining with
  | some operation, some soc, some mv, some temperature, some current, some average, some design,
      some fcc, some remaining =>
    if fcc = 0 ∨ fcc < remaining then return none
    let quiet :=
      if reload then design == factoryMah && fcc == factoryMah &&
        bootReloadPhysical operation mv temperature current.toInt16 average.toInt16
      else quietAccess operation soc mv temperature current.toInt16 average.toInt16
    return if quiet then some (operation, { design := design, fcc := fcc }) else none
  | _, _, _, _, _, _, _, _, _ => return none

def observedSecurity : Bus UInt8 := do
  match ← gaugeWord 0x3a with
  | some operation => return (security operation).toUInt8
  | none => return 0

def leaveConfig (operation : UInt16) : Bus Bool :=
  if operation &&& 0x0400 ≠ 0 then gaugeExitConfig else return true

/-- One attempt; what is read back decides. -/
def sealAgain : Bus Bool := do
  let some operation ← gaugeWord 0x3a | return false
  if operation &&& 0x0401 ≠ 0 then return false
  else
    let _ ← gaugeAccessWord .seal
    gaugeWaitSecurity 3

/-- Back to the security that was found; a gauge that was never sealed is not sealed. -/
def gaugeReturnAccess (journal : AccessJournal) : Bus Bool := do
  let some operation ← gaugeWord 0x3a | return false
  if operation &&& 1 ≠ 0 ∨ security operation = 0 then return false
  else if !(← leaveConfig operation) then return false
  else
    let some operation ← gaugeWord 0x3a | return false
    if operation &&& 0x0401 ≠ 0 then return false
    else if security operation = journal.priorSecurity.toUInt16 then
      gaugeWaitSecurity journal.priorSecurity.toUInt16
    else if journal.priorSecurity ≠ 3 then return false
    else sealAgain

inductive Action where
  | «open» | restore
  deriving DecidableEq, Repr

structure Outcome where
  success : Bool
  reason : String
  deriving DecidableEq, Repr

/-- What the last call did about closing the access. -/
structure Cleanup where
  attempted : Bool := false
  succeeded : Bool := false
  deriving DecidableEq, Repr

def report (success : Bool) (why : String) (cleanup : Cleanup := {}) : Bus (Outcome × Cleanup) := do
  let _ ← sampleBattery
  return ({ success := success, reason := why }, cleanup)

section Access

variable (mac : Bytes 6)

def closeAccess (journal : AccessJournal) : Bus (Bool × Bool) := do
  let restored ← gaugeReturnAccess journal
  let last ← observedSecurity
  let state := if restored then AccessState.restored else AccessState.failed
  let recorded ← gaugeStoreAccess mac { journal with lastSecurity := last, state := state.byte }
  return (restored, recorded)

def abort (journal : AccessJournal) : Bus (Outcome × Cleanup) := do
  let (restored, recorded) ← closeAccess mac journal
  report false
    (if restored && recorded then "failed_access_prior_restored" else "critical_access_prior_restore")
    { attempted := true, succeeded := restored }

def restoreAccess (journal : AccessJournal) : Bus (Outcome × Cleanup) := do
  if !(← gaugeIdentity) then report false "critical_access_restore_identity"
  else
    let (restored, recorded) ← closeAccess mac journal
    let cleanup : Cleanup := { attempted := true, succeeded := restored }
    if !restored then report false "critical_access_exit_or_prior_security" cleanup
    else if !recorded then report false "critical_access_restore_journal" cleanup
    else
      report true
        (if journal.priorSecurity = 3 then "access_restored_sealed" else "access_restored_prior_noop")
        cleanup

def steady (expected : UInt16) (profile : GaugePair) : Bus Bool := do
  match ← accessPreflight with
  | some (operation, pair) => return decide (security operation = expected ∧ pair = profile)
  | none => return false

def conclude (journal : AccessJournal) : Bus (Outcome × Cleanup) := do
  let journal := { journal with state := AccessState.opened.byte }
  if !(← gaugeStoreAccess mac journal) then abort mac journal
  else
    report true
      (if journal.priorSecurity = 3 then "access_opened_default_verified"
        else "access_already_full_prior_recorded")

def keyed (first second : AccessWord) (expected : UInt16) : Bus Bool := do
  let sent ← accessWords first second
  let observed ← gaugeWaitSecurity expected
  return sent && observed

def fullPhase (profile : GaugePair) (journal : AccessJournal) : Bus (Outcome × Cleanup) := do
  let journal := { journal with unsealVerified := 1, lastSecurity := 2, fullAttempted := 1 }
  if !(← gaugeStoreAccess mac journal) then abort mac journal
  else if !(← steady 2 profile) then abort mac journal
  else if !(← keyed .full .full 1) then abort mac journal
  else conclude mac { journal with fullVerified := 1, lastSecurity := 1 }

/-- The attempt is durable before the words, so that a crash never permits a replay. -/
def unsealPhase (profile : GaugePair) (journal : AccessJournal) : Bus (Outcome × Cleanup) := do
  let journal := { journal with unsealAttempted := 1 }
  if !(← gaugeStoreAccess mac journal) then abort mac journal
  else if !(← steady 3 profile) then abort mac journal
  else if !(← keyed .unsealFirst .unsealSecond 2) then abort mac journal
  else fullPhase mac profile journal

def freshAccess (operation : UInt16) (profile : GaugePair) : AccessJournal where
  magic := 0x47414331
  version := 1
  deviceType := deviceType
  unitMah := 1
  state := AccessState.pending.byte
  priorSecurity := (security operation).toUInt8
  lastSecurity := (security operation).toUInt8
  mac := mac
  baseDesign := profile.design
  baseFcc := profile.fcc
  operationBefore := operation

def accessCandidate (profile : GaugePair) : Bus Bool := do
  if capacityPolicy profile.design profile.fcc then return true
  match ← gaugeLoadJournal mac with
  | .ok nominal => return restorePairAllowed nominal profile.design profile.fcc
  | .error _ => return false

def alreadyOpen (journal : AccessJournal) (prior : UInt16) : Bool :=
  journal.state == AccessState.opened.byte && prior == 1 &&
    (journal.priorSecurity == 1 || (journal.unsealVerified != 0 && journal.fullVerified != 0))

def beginAccess (operation : UInt16) (profile : GaugePair) : Bus (Outcome × Cleanup) := do
  let journal := freshAccess mac operation profile
  if !(← gaugeStoreAccess mac journal) then report false "blocked_access_journal_prepare"
  else if !(← steady (security operation) profile) then
    report false "blocked_access_preflight_changed_pending"
  else if security operation = 3 then unsealPhase mac profile journal
  else conclude mac journal

def openFrom (saved : Option AccessJournal) (operation : UInt16) (profile : GaugePair) :
    Bus (Outcome × Cleanup) :=
  if saved.any fun j => j.state != AccessState.restored.byte then
    if saved.any fun j => alreadyOpen j (security operation) then
      report true "access_already_open_verified"
    else report false "blocked_access_pending_restore_first"
  else if saved.any failedDefaultAttempt then report false "blocked_default_attempt_already_failed"
  else if security operation = 2 then report false "blocked_prior2_unknown_return_path"
  else beginAccess mac operation profile

def openAccess (saved : Option AccessJournal) : Bus (Outcome × Cleanup) := do
  match ← accessPreflight with
  | none => report false "blocked_access_quiet_full_temperature"
  | some (operation, profile) =>
    if !(← gaugeIdentity) then report false "blocked_identity_0220"
    else if !(← accessCandidate mac profile) then report false "blocked_access_capacity_candidate"
    else openFrom mac saved operation profile

/-- New work waits for an update and for a recovery; closing does not. -/
def fenced (action : Action) : Bus Bool := do
  if action ≠ .open then return false
  else if ← gate .otaBusy then return true
  else return !(← gate .normalFence)

def gaugeReady : Bus Bool := do
  if !(← gate .present) then return false else gate .selftest

def gaugeAccess (action : Action) (cleanup : Cleanup) : Bus (Outcome × Cleanup) := do
  if !(← gate .storageLease) then
    return ({ success := false, reason := "blocked_ota_storage_lease" }, cleanup)
  else if ← fenced action then
    return ({ success := false, reason := "blocked_scale_recovery_required" }, cleanup)
  else if !(← gaugeReady) then report false "blocked_access_gauge_or_model"
  else
    match ← gaugeLoadAccess mac, action with
    | .ok journal, .restore => restoreAccess mac journal
    | .ok journal, .open => openAccess mac (some journal)
    | .error .notFound, .restore => report false "blocked_access_no_journal"
    | .error .notFound, .open => openAccess mac none
    | .error _, _ => report false "blocked_access_journal_crc_unit"

end Access

end Mosaico.Gauge.Hal
