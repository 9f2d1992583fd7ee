import Mosaico.Library.ByteFields

/-! `mosaico_gauge_model.h`: the records of the normal gauge path, what makes one valid, and the
limits a reading is held against. -/
namespace Mosaico.Gauge.Hal

open ByteFields

abbrev deviceType : UInt16 := 0x0220
abbrev nominalMah : UInt16 := 65
abbrev factoryMah : UInt16 := 3000
abbrev maxReasonableFcc : UInt16 := 78

inductive Field where
  | initialFcc | design
  deriving DecidableEq, Repr

def Field.address : Field → UInt16
  | .initialFcc => 0x929D | .design => 0x929F

inductive State where
  | pending | committed | restored | rolledBack | rollbackFailed | exitFailed
  | verifiedSealedPrior3
  deriving DecidableEq, Repr

def State.byte : State → UInt8
  | .pending => 1 | .committed => 2 | .restored => 3 | .rolledBack => 4 | .rollbackFailed => 5
  | .exitFailed => 6 | .verifiedSealedPrior3 => 7

structure Journal where
  magic : UInt32 := 0
  version : UInt16 := 0
  deviceType : UInt16 := 0
  unitMah : UInt8 := 0
  state : UInt8 := 0
  changedFcc : UInt8 := 0
  action : UInt8 := 0
  mac : Bytes 6 := zero 6
  originalDesign : UInt16 := 0
  originalFcc : UInt16 := 0
  targetDesign : UInt16 := 0
  targetFcc : UInt16 := 0
  operationBefore : UInt16 := 0
  lastDesign : UInt16 := 0
  lastFcc : UInt16 := 0
  crc : UInt32 := 0
  deriving DecidableEq

inductive AccessState where
  | pending | opened | restored | failed
  deriving DecidableEq, Repr

def AccessState.byte : AccessState → UInt8
  | .pending => 1 | .opened => 2 | .restored => 3 | .failed => 4

structure AccessJournal where
  magic : UInt32 := 0
  version : UInt16 := 0
  deviceType : UInt16 := 0
  unitMah : UInt8 := 0
  state : UInt8 := 0
  priorSecurity : UInt8 := 0
  lastSecurity : UInt8 := 0
  unsealAttempted : UInt8 := 0
  unsealVerified : UInt8 := 0
  fullAttempted : UInt8 := 0
  fullVerified : UInt8 := 0
  mac : Bytes 6 := zero 6
  baseDesign : UInt16 := 0
  baseFcc : UInt16 := 0
  operationBefore : UInt16 := 0
  crc : UInt32 := 0
  deriving DecidableEq

def Journal.image (j : Journal) : Bytes 32 :=
  putAll (blit (putAll (zero 32) 0 [(4, j.magic.toNat), (2, j.version.toNat),
    (2, j.deviceType.toNat), (1, j.unitMah.toNat), (1, j.state.toNat), (1, j.changedFcc.toNat),
    (1, j.action.toNat)]) 12 j.mac 6) 18 [(2, j.originalDesign.toNat), (2, j.originalFcc.toNat),
    (2, j.targetDesign.toNat), (2, j.targetFcc.toNat), (2, j.operationBefore.toNat),
    (2, j.lastDesign.toNat), (2, j.lastFcc.toNat)]

def AccessJournal.image (j : AccessJournal) : Bytes 28 :=
  putAll (blit (putAll (zero 28) 0 [(4, j.magic.toNat), (2, j.version.toNat),
    (2, j.deviceType.toNat), (1, j.unitMah.toNat), (1, j.state.toNat), (1, j.priorSecurity.toNat),
    (1, j.lastSecurity.toNat), (1, j.unsealAttempted.toNat), (1, j.unsealVerified.toNat),
    (1, j.fullAttempted.toNat), (1, j.fullVerified.toNat)]) 16 j.mac 6) 22
    [(2, j.baseDesign.toNat), (2, j.baseFcc.toNat), (2, j.operationBefore.toNat)]

def Journal.seal (j : Journal) : Journal := { j with crc := UInt32.ofNat (ByteFields.crc j.image 32) }

def AccessJournal.seal (j : AccessJournal) : AccessJournal :=
  { j with crc := UInt32.ofNat (ByteFields.crc j.image 28) }

def security (operation : UInt16) : UInt16 := (operation >>> 1) &&& 3

def reasonableFcc (value : UInt16) : Bool := decide (0 < value) && decide (value ≤ maxReasonableFcc)

def configExitAccepted (operation : UInt16) : Bool :=
  (security operation == 1 || security operation == 3) && operation &&& 0x0401 == 0 &&
    operation &&& 0x0020 != 0

def capacityPolicy (design fcc : UInt16) : Bool :=
  (design == nominalMah || design == factoryMah) &&
    (reasonableFcc fcc || (design == factoryMah && fcc == factoryMah))

def quietFull (op soc mv temperature : UInt16) (current average : Int16) : Bool :=
  security op == 1 && op &&& 0x0401 == 0 && op &&& 0x0020 != 0 &&
    decide (95 ≤ soc) && decide (soc ≤ 100) && decide (4050 ≤ mv) && decide (mv ≤ 4350) &&
    decide (2832 ≤ temperature) && decide (temperature ≤ 3181) &&
    decide (-3 ≤ current) && decide (current ≤ 3) && decide (-3 ≤ average) && decide (average ≤ 3)

def quietAccess (op soc mv temperature : UInt16) (current average : Int16) : Bool :=
  decide (1 ≤ security op) && decide (security op ≤ 3) &&
    quietFull ((op &&& ~~~0x0006) ||| 0x0002) soc mv temperature current average

def bootReloadPhysical (op mv temperature : UInt16) (current average : Int16) : Bool :=
  decide (1 ≤ security op) && decide (security op ≤ 3) && op &&& 0x0401 == 0 &&
    op &&& 0x0020 != 0 && decide (3500 ≤ mv) && decide (mv ≤ 4350) &&
    decide (2832 ≤ temperature) && decide (temperature ≤ 3181) &&
    decide (-130 ≤ current) && decide (current ≤ 130) && decide (-130 ≤ average) &&
    decide (average ≤ 130)

def validAccessJournal (j : AccessJournal) (mac : Bytes 6) : Bool :=
  j.magic == 0x47414331 && j.version == 1 && j.deviceType == deviceType && j.unitMah == 1 &&
    decide (AccessState.pending.byte ≤ j.state) && decide (j.state ≤ AccessState.failed.byte) &&
    decide (1 ≤ j.priorSecurity) && decide (j.priorSecurity ≤ 3) && decide (j.lastSecurity ≤ 3) &&
    decide (j.unsealAttempted ≤ 1) && decide (j.unsealVerified ≤ j.unsealAttempted) &&
    decide (j.fullAttempted ≤ 1) && decide (j.fullVerified ≤ j.fullAttempted) &&
    (j.fullVerified == 0 || j.unsealVerified != 0) && j.mac == mac &&
    (j.baseDesign == nominalMah || j.baseDesign == factoryMah) &&
    (reasonableFcc j.baseFcc || j.baseFcc == factoryMah) &&
    security j.operationBefore == j.priorSecurity.toUInt16 && j.operationBefore &&& 0x0401 == 0 &&
    j.crc == j.seal.crc

def failedDefaultAttempt (j : AccessJournal) : Bool :=
  (j.unsealAttempted != 0 && j.unsealVerified == 0) || (j.fullAttempted != 0 && j.fullVerified == 0)

def keepLearnedNominal (design fcc : UInt16) : Bool := design == nominalMah && reasonableFcc fcc

def recoveryState (state : UInt8) : Bool :=
  state == State.pending.byte || state == State.exitFailed.byte || state == State.rollbackFailed.byte

def quietFullRestore (op soc mv temperature : UInt16) (current average : Int16)
    (ownedUnresolvedJournal : Bool) : Bool :=
  !(op &&& 0x0400 != 0 && !ownedUnresolvedJournal) &&
    quietFull (op &&& ~~~0x0400) soc mv temperature current average

def validJournal (j : Journal) (mac : Bytes 6) : Bool :=
  j.magic == 0x47433635 && j.version == 1 && j.deviceType == deviceType && j.unitMah == 1 &&
    decide (State.pending.byte ≤ j.state) && decide (j.state ≤ State.verifiedSealedPrior3.byte) &&
    (j.action == 1 || j.action == 2) && decide (j.changedFcc ≤ 1) && j.mac == mac &&
    j.targetDesign == nominalMah && capacityPolicy j.originalDesign j.originalFcc &&
    (if j.changedFcc != 0 then j.originalDesign == factoryMah && j.originalFcc == factoryMah &&
        j.targetFcc == nominalMah
      else j.targetFcc == j.originalFcc) &&
    security j.operationBefore == 1 && j.operationBefore &&& 0x0401 == 0 && j.crc == j.seal.crc

def allowedValue (j : Journal) (field : Field) (value : UInt16) : Bool :=
  match field with
  | .design => value == nominalMah || value == j.originalDesign
  | .initialFcc => j.changedFcc != 0 && (value == j.targetFcc || value == j.originalFcc)

def restorePairAllowed (j : Journal) (design fcc : UInt16) : Bool :=
  (design == j.originalDesign || design == j.targetDesign) &&
    if j.changedFcc != 0 then fcc == j.originalFcc || fcc == j.targetFcc else reasonableFcc fcc

end Mosaico.Gauge.Hal
