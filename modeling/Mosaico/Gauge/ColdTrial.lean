import Mathlib.Data.Nat.Basic
import Mathlib.Algebra.Group.Nat.Defs

/-! `mosaico_gauge_cold_trial_model.h`: the one-shot cold trial. A durable record
moves through its phases; planners decide, from the record, the context of this boot
and the volatile session, what may be done or persisted next. Byte arrays are vectors,
counters and times are naturals: every difference in the source is guarded. -/
namespace Mosaico.Gauge.ColdTrial

abbrev Bytes (n : Nat) := Vector UInt8 n
abbrev Nonce := Bytes 16
abbrev Digest := Bytes 32

def zeros (n : Nat) : Bytes n := Vector.replicate n 0

def nonzero {n : Nat} (a : Bytes n) : Bool := a != zeros n

abbrev protocolVersion : Nat := 1
abbrev sourceCrc : Nat := 0x70a767be
abbrev targetCrc : Nat := 0x91336fc0
abbrev armedLimitMs : Nat := 720000
abbrev handoffGraceMs : Nat := 30000
abbrev maxCaptureMs : Nat := 60000
abbrev resumedStartupLimitMs : Nat := 120000
abbrev armedRestoreTriggerMs : Nat := 600000
abbrev resumedCaptureLimitMs : Nat := 60000
abbrev uint32Max : Nat := 2 ^ 32 - 1
abbrev uint64Max : Nat := 2 ^ 64 - 1

/-- `unlisted` is a stored value outside the enumeration. -/
inductive Phase where
  | armed | handedOff | captureClaimed | captured | captureFailed | restoring | restored
  | blockedUnknown | unlisted
  deriving DecidableEq, Repr

inductive RecoveryBinding where
  | slotHashes | contractDigest | unlisted
  deriving DecidableEq, Repr

inductive CaptureResult where
  | none | success | knownTimeout | knownOverflow | knownReadFailure | interrupted
  | rejectedStartup | startupWindowExpired | unlisted
  deriving DecidableEq, Repr

inductive StartupKind where
  | unknown | powerOn | software | watchdog | brownout
  deriving DecidableEq, Repr

inductive Image where
  | unknown | source131 | targetC131 | owned3Mixed | unexpected
  deriving DecidableEq, Repr

inductive Load where
  | missing | present | corrupt | ioUnknown
  deriving DecidableEq, Repr

inductive Commit where
  | exactDurable | notWritten | unknownOrTorn
  deriving DecidableEq, Repr

structure Identity where
  device : Nat := 0x0220
  firmware : Nat := 0x0003
  build : Nat := 4
  deriving DecidableEq, Repr

structure BootToken where
  nonce : Nonce := zeros 16
  verified : Bool := false
  deriving DecidableEq, Repr

structure Binding where
  mac : Bytes 6 := zeros 6
  identity : Identity := {}
  source : Nat := sourceCrc
  target : Nat := targetCrc
  originalGctGeneration : Nat := 0
  originalGctEpoch : Nat := 0
  nonce : Nonce := zeros 16
  recovery : RecoveryBinding := .slotHashes
  slotHashes : Digest × Digest := (zeros 32, zeros 32)
  contractDigest : Digest := zeros 32
  source131ReceiptDigest : Digest := zeros 32
  captureBudgetMs : Nat := 30000
  deriving DecidableEq, Repr

structure Record where
  schema : Nat := protocolVersion
  binding : Binding := {}
  sequence : Nat := 0
  phase : Phase := .armed
  armedBoot : BootToken := {}
  claimedBoot : BootToken := {}
  armedMs : Nat := 0
  handoffMs : Nat := 0
  claimMs : Nat := 0
  capture : CaptureResult := .none
  evidenceDigest : Digest := zeros 32
  deriving DecidableEq, Repr

structure Safety where
  identityVerified : Bool := false
  originalGctBindingVerified : Bool := false
  securityKnown : Bool := false
  operationKnownSafeForInspection : Bool := false
  durableAuthenticatedSource131 : Bool := false
  reviewedOwned3Model : Bool := false
  twoRecoverySlotsSdkValid : Bool := false
  sealed : Bool := false
  cfg0 : Bool := false
  cal0 : Bool := false
  voltageMv : Nat := 0
  temperatureDK : Nat := 0
  targetStandard65 : Bool := false
  freshAuthenticated131 : Bool := false
  calibrationUnchanged : Bool := false
  image : Image := .unknown
  ownedGctPending : Bool := false
  knownFullAccess : Bool := false
  securityLevel : Nat := 0
  ownedGctDeadlineBound : Bool := false
  ownedGctStartedMs : Nat := 0
  source131AfterArmedSequence : Nat := 0
  ownedCompletedGctTargetReceipt : Bool := false
  targetReceiptNoSubsequentWriter : Bool := false
  targetReceiptGeneration : Nat := 0
  targetReceiptEpoch : Nat := 0
  targetReceiptStartedMs : Nat := 0
  targetReceiptObservedMs : Nat := 0
  deriving DecidableEq, Repr

structure Context where
  expected : Binding := {}
  boot : BootToken := {}
  nowMs : Nat := 0
  safety : Safety := {}
  startupKind : StartupKind := .unknown
  recordDurable : Bool := false
  nonceReservedFresh : Bool := false
  legacyFallbackRequested : Bool := false
  deriving DecidableEq, Repr

/-- The latch of one boot. -/
structure Session where
  applyReleased : Bool := false
  claimReleased : Bool := false
  captureFinished : Bool := false
  inspectionReleased : Bool := false
  restoreReleased : Bool := false
  blocked : Bool := false
  deriving DecidableEq, Repr

structure Proof where
  result : Commit := .unknownOrTorn
  fullRecordReadbackIdentical : Bool := false
  source131StillDurable : Bool := false
  sequence : Nat := 0
  phase : Phase := .blockedUnknown
  nonce : Nonce := zeros 16
  deriving DecidableEq, Repr

inductive Action where
  | reject | blockedUnknown | noColdTrial | persistRecord | keepArmed720 | awaitPowerOffGrace
  | applyC65Owned3 | readOnlyCapture | failureEvidenceRequired | restoreRequired
  | inspectForRestore | restoreOriginalOwned3 | complete
  deriving DecidableEq, Repr

inductive Error where
  | none | shape | binding | boot | nonce | phase | sequence | durability | unknown
  | legacyFallback | safety | evidence | expired | replay
  deriving DecidableEq, Repr

/-- `next` is set exactly when a record is to be persisted (`hasNext`). -/
structure Decision where
  action : Action := .reject
  error : Error := .none
  next : Option Record := none
  deriving DecidableEq, Repr

def identity (a : Identity) : Bool := a == {}

def sameBoot (a b : BootToken) : Bool :=
  a.verified && b.verified && nonzero a.nonce && a.nonce == b.nonce

def validBoot (b : BootToken) : Bool := b.verified && nonzero b.nonce

def emptyBoot (b : BootToken) : Bool := !b.verified && !nonzero b.nonce

def Binding.macHead (b : Binding) : UInt8 := b.mac[0]

def validBinding (b : Binding) : Bool :=
  nonzero b.mac && b.mac[0] &&& 1 == 0 && identity b.identity && b.source == sourceCrc &&
    b.target == targetCrc && b.originalGctGeneration != 0 &&
    decide (b.originalGctGeneration ≤ uint32Max - 4) && b.originalGctEpoch != 0 &&
    decide (b.originalGctEpoch ≤ uint64Max - 4) && nonzero b.nonce &&
    nonzero b.source131ReceiptDigest && b.captureBudgetMs != 0 &&
    decide (b.captureBudgetMs ≤ maxCaptureMs) &&
    match b.recovery with
    | .slotHashes => nonzero b.slotHashes.1 && nonzero b.slotHashes.2 &&
        b.slotHashes.1 != b.slotHashes.2 && !nonzero b.contractDigest
    | .contractDigest => nonzero b.contractDigest && !nonzero b.slotHashes.1 &&
        !nonzero b.slotHashes.2
    | .unlisted => false

def unclaimedFailure : CaptureResult → Bool
  | .rejectedStartup | .startupWindowExpired => true
  | _ => false

def knownFailure : CaptureResult → Bool
  | .knownTimeout | .knownOverflow | .knownReadFailure | .interrupted => true
  | r => unclaimedFailure r

def terminal : Phase → Bool
  | .restored | .blockedUnknown => true
  | _ => false

def handed (r : Record) : Bool :=
  decide (r.armedMs ≤ r.handoffMs) && decide (r.handoffMs - r.armedMs < armedRestoreTriggerMs)

def reachableSequence (r : Record) (claimed : Bool) : Bool :=
  match r.phase with
  | .armed => r.sequence == 1
  | .handedOff => r.sequence == 2
  | .captureClaimed => r.sequence == 3
  | .captured => r.sequence == 4
  | .captureFailed => r.sequence == if unclaimedFailure r.capture then 3 else 4
  | .restoring | .restored =>
    let extra := if r.phase = .restored then 1 else 0
    if r.capture = .none then
      (r.sequence == 2 + extra && r.handoffMs == 0) || (r.sequence == 3 + extra && handed r)
    else r.sequence == (if unclaimedFailure r.capture then 4 else 5) + extra
  | .blockedUnknown =>
    if r.capture = .none then
      if claimed then r.sequence == 4
      else (r.sequence == 2 && r.handoffMs == 0) || r.sequence == 3 ||
        (r.sequence == 4 && handed r)
    else if unclaimedFailure r.capture then r.sequence == 4 || r.sequence == 5
    else r.sequence == 5 || r.sequence == 6
  | .unlisted => false

def hasClaim (r : Record) : Bool :=
  validBoot r.claimedBoot && !sameBoot r.armedBoot r.claimedBoot

def ownedOutcome (r : Record) : Bool :=
  if unclaimedFailure r.capture then !hasClaim r else hasClaim r

/-- The last part of `shape`, phase by phase. -/
def phaseShape (r : Record) : Bool :=
  match r.phase with
  | .armed => emptyBoot r.claimedBoot && r.claimMs == 0 && r.capture == .none &&
      !nonzero r.evidenceDigest && r.handoffMs == 0
  | .handedOff => emptyBoot r.claimedBoot && r.claimMs == 0 && r.capture == .none &&
      !nonzero r.evidenceDigest
  | .captureClaimed => hasClaim r && r.capture == .none && !nonzero r.evidenceDigest
  | .captured => hasClaim r && r.capture == .success && nonzero r.evidenceDigest
  | .captureFailed => knownFailure r.capture && nonzero r.evidenceDigest && ownedOutcome r
  | .restoring | .restored =>
    (r.capture == .none && !nonzero r.evidenceDigest && !hasClaim r) ||
      ((r.capture == .success || knownFailure r.capture) && nonzero r.evidenceDigest &&
        ownedOutcome r)
  | .blockedUnknown => r.capture == .none || ownedOutcome r
  | .unlisted => false

def shape (r : Record) : Bool :=
  r.schema == protocolVersion && r.sequence != 0 && validBinding r.binding &&
    validBoot r.armedBoot && r.phase != .unlisted &&
    (r.capture == .none || r.capture == .success || knownFailure r.capture) &&
    (if r.capture = .none then !nonzero r.evidenceDigest else nonzero r.evidenceDigest) &&
    (hasClaim r || emptyBoot r.claimedBoot) &&
    (r.handoffMs == 0 || handed r) &&
    (hasClaim r || r.claimMs == 0) &&
    (!hasClaim r || decide (r.claimMs < resumedCaptureLimitMs)) &&
    (!(r.phase == .handedOff || hasClaim r || unclaimedFailure r.capture) || handed r) &&
    reachableSequence r (hasClaim r) && phaseShape r

def initial (r : Record) : Bool := shape r && r.sequence == 1 && r.phase == .armed

/-- The phases that may follow each other, `blockedUnknown` aside. -/
def follows (a b : Phase) : Bool :=
  match a, b with
  | .armed, .handedOff | .armed, .restoring => true
  | .handedOff, .captureClaimed | .handedOff, .restoring | .handedOff, .captureFailed => true
  | .captureClaimed, .captured | .captureClaimed, .captureFailed => true
  | .captured, .restoring | .captureFailed, .restoring => true
  | .restoring, .restored => true
  | _, _ => false

def sameClaim (a b : Record) : Bool :=
  a.claimedBoot.nonce == b.claimedBoot.nonce && a.claimedBoot.verified == b.claimedBoot.verified &&
    a.claimMs == b.claimMs

def sameEvidence (a b : Record) : Bool :=
  a.capture == b.capture && a.evidenceDigest == b.evidenceDigest

def createsClaim (a b : Record) : Bool := a.phase == .handedOff && b.phase == .captureClaimed

def addsEvidence (a b : Record) : Bool :=
  (a.phase == .captureClaimed && (b.phase == .captured || b.phase == .captureFailed)) ||
    (a.phase == .handedOff && b.phase == .captureFailed && unclaimedFailure b.capture)

def transition (a b : Record) : Bool :=
  shape a && shape b && !terminal a.phase && a.binding == b.binding &&
    a.sequence != uint32Max && b.sequence == a.sequence + 1 &&
    sameBoot a.armedBoot b.armedBoot && a.armedMs == b.armedMs &&
    ((a.phase == .armed && b.phase == .handedOff) || b.handoffMs == a.handoffMs) &&
    (createsClaim a b || sameClaim a b) &&
    (addsEvidence a b || sameEvidence a b) &&
    (!validBoot a.claimedBoot || (sameBoot a.claimedBoot b.claimedBoot && b.claimMs == a.claimMs)) &&
    (!nonzero a.evidenceDigest || sameEvidence a b) &&
    if b.phase = .blockedUnknown then
      a.handoffMs == b.handoffMs && sameClaim a b && sameEvidence a b
    else follows a.phase b.phase

end Mosaico.Gauge.ColdTrial
