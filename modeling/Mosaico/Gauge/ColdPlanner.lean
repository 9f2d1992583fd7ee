import Mosaico.Gauge.ColdReach

/-! The planners of `mosaico_gauge_cold_trial_model.h` and, in the namespace `Abort`,
those of `mosaico_gauge_cold_abort_model.h`. A planner that latches something in the
session returns the session beside its decision. -/
namespace Mosaico.Gauge.ColdTrial

def result (a : Action) (e : Error) : Decision := { action := a, error := e }

def persist (r : Record) : Decision := { action := .persistRecord, next := some r }

/-- Ask to persist `next` where it may follow `r`, else refuse with `e`. -/
def persistAfter (r next : Record) (e : Error) : Decision :=
  if transition r next then persist next else result .blockedUnknown e

def checked (r : Record) (c : Context) : Error :=
  if c.legacyFallbackRequested then .legacyFallback
  else if !shape r then .shape
  else if !(r.binding == c.expected) then .binding
  else if !validBoot c.boot then .boot
  else if !c.recordDurable then .durability
  else .none

def safe (c : Context) (full131 : Bool) (requireClosed : Bool) : Bool :=
  let s := c.safety
  s.identityVerified && s.originalGctBindingVerified && s.durableAuthenticatedSource131 &&
    s.reviewedOwned3Model && s.twoRecoverySlotsSdkValid && s.securityKnown &&
    s.operationKnownSafeForInspection && (!requireClosed || s.sealed) && s.cfg0 && s.cal0 &&
    decide (3500 ≤ s.voltageMv) && decide (s.voltageMv ≤ 4350) &&
    decide (2832 ≤ s.temperatureDK) && decide (s.temperatureDK ≤ 3131) &&
    (!full131 || (s.freshAuthenticated131 && s.calibrationUnchanged &&
      (s.image == .source131 || s.image == .targetC131 || s.image == .owned3Mixed)))

def operationWindow (r : Record) (c : Context) : Bool :=
  if sameBoot r.armedBoot c.boot then
    decide (r.armedMs ≤ c.nowMs) && decide (c.nowMs - r.armedMs < armedLimitMs)
  else decide (c.nowMs < resumedStartupLimitMs)

def forwardSourceAccess (c : Context) : Bool :=
  let s := c.safety
  if s.image ≠ .source131 ∨ s.voltageMv < 4000 then false
  else if s.sealed then
    !s.ownedGctPending && !s.ownedGctDeadlineBound && !s.knownFullAccess &&
      (s.securityLevel == 0 || s.securityLevel == 3) && safe c true true
  else
    s.ownedGctPending && s.knownFullAccess && s.securityLevel == 1 &&
      s.ownedGctDeadlineBound && decide (s.ownedGctStartedMs ≤ c.nowMs) &&
      decide (c.nowMs - s.ownedGctStartedMs < armedRestoreTriggerMs) && safe c true false

def arm (loaded : Load) (binding : Binding) (c : Context) : Decision :=
  if loaded ≠ .missing ∨ !c.nonceReservedFresh ∨ c.legacyFallbackRequested ∨
      !validBinding binding ∨ !(binding == c.expected) ∨ !validBoot c.boot ∨
      !forwardSourceAccess c then
    result .blockedUnknown .nonce
  else persist
    { binding := binding, sequence := 1, armedBoot := c.boot,
      armedMs := if c.safety.sealed then c.nowMs else c.safety.ownedGctStartedMs }

def handoffTargetReceipt (r : Record) (c : Context) : Bool :=
  let s := c.safety
  let b := r.binding
  r.phase == .armed && sameBoot r.armedBoot c.boot && s.ownedCompletedGctTargetReceipt &&
    s.targetReceiptNoSubsequentWriter && decide (b.originalGctGeneration ≤ uint32Max - 2) &&
    decide (b.originalGctEpoch ≤ uint64Max - 2) &&
    s.targetReceiptGeneration == b.originalGctGeneration + 2 &&
    s.targetReceiptEpoch == b.originalGctEpoch + 2 && s.targetReceiptStartedMs == r.armedMs &&
    decide (r.armedMs ≤ s.targetReceiptObservedMs) &&
    decide (s.targetReceiptObservedMs ≤ c.nowMs) &&
    decide (c.nowMs - s.targetReceiptObservedMs ≤ 60000) && s.securityLevel == 3 && s.sealed &&
    s.targetStandard65 && s.calibrationUnchanged &&
    (s.image == .unknown || s.image == .targetC131)

def handoff (r : Record) (c : Context) : Decision :=
  let error := checked r c
  if error ≠ .none then result .blockedUnknown error
  else if r.phase ≠ .armed ∨ !sameBoot r.armedBoot c.boot ∨ c.nowMs < r.armedMs ∨
      armedRestoreTriggerMs ≤ c.nowMs - r.armedMs ∨ !safe c false true ∨
      c.safety.voltageMv < 4000 ∨ !c.safety.targetStandard65 ∨
      !((c.safety.freshAuthenticated131 && c.safety.calibrationUnchanged &&
        c.safety.image == .targetC131) || handoffTargetReceipt r c) then
    result .reject .phase
  else persistAfter r
    { r with sequence := r.sequence + 1, phase := .handedOff, handoffMs := c.nowMs } .sequence

/-- What `startup` says of a record still armed. -/
def startupArmed (r : Record) (c : Context) : Decision :=
  if sameBoot r.armedBoot c.boot ∧ c.nowMs < r.armedMs then result .blockedUnknown .boot
  else if sameBoot r.armedBoot c.boot ∧ r.armedMs ≤ c.nowMs ∧
      c.nowMs - r.armedMs < armedRestoreTriggerMs then
    result .keepArmed720 .none
  else result .restoreRequired .none

def claimed (r : Record) (c : Context) : Record :=
  { r with sequence := r.sequence + 1, phase := .captureClaimed, claimedBoot := c.boot,
           claimMs := c.nowMs }

/-- What `startup` says of a record handed off: in another boot, the claim itself. -/
def startupHandedOff (r : Record) (c : Context) : Decision :=
  if sameBoot r.armedBoot c.boot then
    if c.nowMs < r.armedMs ∨ c.nowMs < r.handoffMs then result .blockedUnknown .boot
    else if c.nowMs - r.armedMs < armedRestoreTriggerMs ∧
        c.nowMs - r.handoffMs < handoffGraceMs then
      result .awaitPowerOffGrace .none
    else result .restoreRequired .none
  else if c.startupKind ≠ .powerOn then result .failureEvidenceRequired .boot
  else if !operationWindow r c ∨ resumedCaptureLimitMs ≤ c.nowMs then
    result .failureEvidenceRequired .expired
  else persistAfter r (claimed r c) .sequence

def startup (loaded : Load) (r : Record) (c : Context) : Decision :=
  if c.legacyFallbackRequested then result .blockedUnknown .legacyFallback
  else if loaded = .missing then result .noColdTrial .none
  else if loaded ≠ .present then result .blockedUnknown .unknown
  else if checked r c ≠ .none then result .blockedUnknown (checked r c)
  else match r.phase with
    | .blockedUnknown => result .blockedUnknown .unknown
    | .restored => result .complete .none
    | .armed => startupArmed r c
    | .handedOff => startupHandedOff r c
    | .captureClaimed => result .failureEvidenceRequired .evidence
    | _ => result .restoreRequired .none

def block (s : Session) (e : Error) : Decision × Session :=
  (result .blockedUnknown e, { s with blocked := true })

/-- What a truthful acknowledgement of `next` allows, phase by phase. -/
def acknowledged (next : Record) (c : Context) (s : Session) : Decision × Session :=
  match next.phase with
  | .armed =>
    if !sameBoot next.armedBoot c.boot ∨ !forwardSourceAccess c ∨
        (!c.safety.sealed ∧ c.safety.ownedGctStartedMs < next.armedMs) then
      block s .safety
    else (startup .present next c, s)
  | .handedOff => (startup .present next c, s)
  | .captureClaimed =>
    if s.claimReleased ∨ !sameBoot next.claimedBoot c.boot ∨ c.startupKind ≠ .powerOn ∨
        !safe c false true ∨ !operationWindow next c ∨ c.nowMs < next.claimMs ∨
        next.binding.captureBudgetMs ≤ c.nowMs - next.claimMs ∨
        resumedCaptureLimitMs ≤ c.nowMs then
      block s .replay
    else (result .readOnlyCapture .none, { s with claimReleased := true })
  | .restored =>
    if !safe c true true ∨ c.safety.image ≠ .source131 ∨ !operationWindow next c then
      block s .safety
    else (result .complete .none, s)
  | .blockedUnknown => block s .none
  | _ => (result .restoreRequired .none, s)

def afterPersist (before next : Record) (p : Proof) (c : Context) (s : Session) (first : Bool) :
    Decision × Session :=
  if s.blocked then (result .blockedUnknown .unknown, s)
  else if (if first then !initial next else !transition before next) ∨
      p.result ≠ .exactDurable ∨ !p.fullRecordReadbackIdentical ∨ !p.source131StillDurable ∨
      p.sequence ≠ next.sequence ∨ p.phase ≠ next.phase ∨ p.nonce ≠ next.binding.nonce ∨
      checked next c ≠ .none then
    block s .durability
  else acknowledged next c s

def authorizeApply (r : Record) (c : Context) (s : Session) : Decision × Session :=
  let error := checked r c
  if error ≠ .none ∨ s.blocked then (result .blockedUnknown error, s)
  else if r.phase ≠ .armed ∨ !sameBoot r.armedBoot c.boot ∨ !forwardSourceAccess c ∨
      c.safety.source131AfterArmedSequence ≠ r.sequence ∨
      (!c.safety.sealed ∧ c.safety.ownedGctStartedMs < r.armedMs) ∨ c.nowMs < r.armedMs ∨
      armedRestoreTriggerMs ≤ c.nowMs - r.armedMs ∨ s.applyReleased then
    block s .safety
  else (result .applyC65Owned3 .none, { s with applyReleased := true })

def capturePoll (r : Record) (c : Context) (s : Session) : Decision :=
  let error := checked r c
  if error ≠ .none ∨ s.blocked then result .blockedUnknown error
  else if r.phase ≠ .captureClaimed ∨ !s.claimReleased ∨ s.captureFinished ∨
      !sameBoot r.claimedBoot c.boot then
    result .blockedUnknown .phase
  else if c.nowMs < r.claimMs then result .blockedUnknown .boot
  else if r.binding.captureBudgetMs ≤ c.nowMs - r.claimMs ∨ !operationWindow r c ∨
      resumedCaptureLimitMs ≤ c.nowMs then
    result .failureEvidenceRequired .none
  else result .readOnlyCapture .none

def withEvidence (r : Record) (captured : CaptureResult) (digest : Digest) : Record :=
  { r with sequence := r.sequence + 1,
           phase := if captured = .success then .captured else .captureFailed,
           capture := captured, evidenceDigest := digest }

def captureEvidence (r : Record) (c : Context) (s : Session) (captured : CaptureResult)
    (digest : Digest) : Decision × Session :=
  let error := checked r c
  if error ≠ .none ∨ s.blocked then (result .blockedUnknown error, s)
  else if r.phase ≠ .captureClaimed ∨ !sameBoot r.claimedBoot c.boot ∨ !s.claimReleased ∨
      s.captureFinished ∨ !nonzero digest ∨ !(captured == .success || knownFailure captured) then
    (result .blockedUnknown .evidence, s)
  else if captured = .success ∧ (c.nowMs < r.claimMs ∨
      r.binding.captureBudgetMs ≤ c.nowMs - r.claimMs ∨ !operationWindow r c ∨
      resumedCaptureLimitMs ≤ c.nowMs) then
    (result .reject .expired, s)
  else if captured = .success ∧ (!safe c false true ∨ !c.safety.targetStandard65) then
    block s .safety
  else
    (persistAfter r (withEvidence r captured digest) .sequence, { s with captureFinished := true })

def interruptedEvidence (r : Record) (c : Context) (digest : Digest) : Decision :=
  let error := checked r c
  if error ≠ .none then result .blockedUnknown error
  else if r.phase ≠ .captureClaimed ∨ !nonzero digest then result .reject .phase
  else persistAfter r (withEvidence r .interrupted digest) .sequence

def startupFailure (c : Context) : CaptureResult :=
  if c.startupKind = .powerOn then .startupWindowExpired else .rejectedStartup

def rejectedStartupEvidence (r : Record) (c : Context) (digest : Digest) : Decision :=
  let error := checked r c
  if error ≠ .none then result .blockedUnknown error
  else if r.phase ≠ .handedOff ∨ sameBoot r.armedBoot c.boot ∨
      (c.startupKind = .powerOn ∧ c.nowMs < resumedCaptureLimitMs) ∨ !nonzero digest then
    result .reject .boot
  else persistAfter r (withEvidence r (startupFailure c) digest) .sequence

def restoring (r : Record) : Record :=
  { r with sequence := r.sequence + 1, phase := .restoring }

def restoreIntent (r : Record) (c : Context) : Decision :=
  let error := checked r c
  if error ≠ .none then result .blockedUnknown error
  else if !safe c false true ∨ !operationWindow r c then result .blockedUnknown .safety
  else if r.phase = .captureClaimed then result .failureEvidenceRequired .evidence
  else if r.phase = .handedOff ∧ !sameBoot r.armedBoot c.boot then
    result .failureEvidenceRequired .evidence
  else if r.phase = .restoring then result .restoreRequired .none
  else persistAfter r (restoring r) .phase

def authorizeRestoreInspection (r : Record) (c : Context) (s : Session) : Decision × Session :=
  let error := checked r c
  if error ≠ .none ∨ s.blocked then (result .blockedUnknown error, s)
  else if r.phase ≠ .restoring ∨ !safe c false true ∨ !operationWindow r c ∨
      s.inspectionReleased then
    block s .safety
  else (result .inspectForRestore .none, { s with inspectionReleased := true })

def authorizeRestore (r : Record) (c : Context) (s : Session) : Decision × Session :=
  let error := checked r c
  if error ≠ .none ∨ s.blocked then (result .blockedUnknown error, s)
  else if r.phase ≠ .restoring ∨ !s.inspectionReleased ∨ !safe c true false ∨
      !operationWindow r c ∨ s.restoreReleased then
    block s .safety
  else (result .restoreOriginalOwned3 .none, { s with restoreReleased := true })

def restored (r : Record) (c : Context) : Decision :=
  let error := checked r c
  if error ≠ .none then result .blockedUnknown error
  else if r.phase ≠ .restoring ∨ !safe c true true ∨ !operationWindow r c ∨
      c.safety.image ≠ .source131 then
    result .blockedUnknown .safety
  else persistAfter r { r with sequence := r.sequence + 1, phase := .restored } .sequence

def unknownOutcome (s : Session) : Decision × Session := block s .unknown

namespace Abort

inductive ParentPhase where
  | unknown | pending | restoring
  deriving DecidableEq, Repr

structure Witness where
  exactCurrentOwner : Bool := false
  forwardOperation : Bool := false
  allMutatorAcksKnown : Bool := false
  noSubsequentWriter : Bool := false
  parentPhase : ParentPhase := .unknown
  parentGeneration : Nat := 0
  parentEpoch : Nat := 0
  originalStartedMs : Nat := 0
  deriving DecidableEq, Repr

def owned (r : Record) (c : Context) (session : Session) (w : Witness) (restoring : Bool) : Bool :=
  let s := c.safety
  let b := r.binding
  let increment := if restoring then 2 else 1
  checked r c == .none && !session.blocked && session.applyReleased && w.exactCurrentOwner &&
    w.forwardOperation && w.allMutatorAcksKnown && w.noSubsequentWriter &&
    w.parentPhase == (if restoring then .restoring else .pending) &&
    decide (b.originalGctGeneration ≤ uint32Max - increment) &&
    decide (b.originalGctEpoch ≤ uint64Max - increment) &&
    w.parentGeneration == b.originalGctGeneration + increment &&
    w.parentEpoch == b.originalGctEpoch + increment && sameBoot r.armedBoot c.boot &&
    w.originalStartedMs == r.armedMs && decide (r.armedMs ≤ c.nowMs) &&
    decide (c.nowMs - r.armedMs < armedLimitMs) &&
    r.phase == (if restoring then .restoring else .armed) &&
    r.sequence == (if restoring then 2 else 1) && r.handoffMs == 0 && emptyBoot r.claimedBoot &&
    r.claimMs == 0 && r.capture == .none && !nonzero r.evidenceDigest && s.identityVerified &&
    s.originalGctBindingVerified && s.durableAuthenticatedSource131 && s.reviewedOwned3Model &&
    s.twoRecoverySlotsSdkValid && s.securityKnown && s.securityLevel == 1 && !s.sealed &&
    s.cal0 && decide (3500 ≤ s.voltageMv) && decide (s.voltageMv ≤ 4350) &&
    decide (2832 ≤ s.temperatureDK) && decide (s.temperatureDK ≤ 3131)

def intent (r : Record) (c : Context) (s : Session) (w : Witness) : Decision :=
  if !owned r c s w false ∨ s.inspectionReleased ∨ s.restoreReleased then
    result .blockedUnknown .safety
  else persistAfter r (restoring r) .sequence

def inspect (r : Record) (c : Context) (s : Session) (w : Witness) : Decision × Session :=
  if !owned r c s w true ∨ s.inspectionReleased ∨ s.restoreReleased then
    (result .blockedUnknown .safety, s)
  else (result .inspectForRestore .none, { s with inspectionReleased := true })

def restore (r : Record) (c : Context) (s : Session) (w : Witness) : Decision × Session :=
  let image := c.safety.image
  if !owned r c s w true ∨ !s.inspectionReleased ∨ s.restoreReleased ∨
      !c.safety.freshAuthenticated131 ∨ !c.safety.calibrationUnchanged ∨
      !(image == .source131 || image == .targetC131 || image == .owned3Mixed) then
    (result .blockedUnknown .safety, s)
  else (result .restoreOriginalOwned3 .none, { s with restoreReleased := true })

end Abort
end Mosaico.Gauge.ColdTrial
