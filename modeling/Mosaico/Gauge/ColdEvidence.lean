import Mosaico.Library.ByteFields

/-! `mosaico_gauge_cold_evidence_model.h` with the snapshots it carries: one frame of raw
evidence in 256 bytes. -/
namespace Mosaico.Gauge.ColdEvidence

open ByteFields

abbrev wireSize : Nat := 256
abbrev Wire := Bytes wireSize
abbrev magic : Nat := 0x31454347
abbrev crcOffset : Nat := 252

structure Tag where
  factor : Int64 := 0
  epoch : UInt64 := 0
  generation : UInt64 := 0
  verified : Bool := false
  phase : UInt8 := 0
  deriving DecidableEq

structure StatusSnapshot where
  sampledUs : UInt64 := 0
  validMask : UInt32 := 0
  rawSoc : UInt16 := 0
  remainingMah : UInt16 := 0
  fullMah : UInt16 := 0
  designMah : UInt16 := 0
  voltageMv : UInt16 := 0
  currentMa : Int16 := 0
  averageCurrentMa : Int16 := 0
  rawCoulombMah : UInt16 := 0
  cycleCount : UInt16 := 0
  operationStatus : UInt16 := 0
  batteryStatus : UInt16 := 0
  gaugingStatus : UInt16 := 0
  rawEcho16 : UInt16 := 0
  phase : UInt8 := 0
  outcome : UInt8 := 0
  mode : UInt8 := 0
  reserved : UInt8 := 0
  units : Tag := {}
  deriving DecidableEq

structure EngineSnapshot where
  sampledUs : UInt64 := 0
  validMask : UInt16 := 0
  echo73 : UInt16 := 0
  echo76 : UInt16 := 0
  echo02 : UInt16 := 0
  phase : UInt8 := 0
  outcome : UInt8 := 0
  rawCedv : Bytes 23 := zero 23
  rawSmooth : Bytes 17 := zero 17
  rawIdentity : Bytes 11 := zero 11
  units : Tag := {}
  deriving DecidableEq

inductive Kind where
  | initial | final | failure | unlisted
  deriving DecidableEq, Repr

structure Frame where
  kind : Kind := .failure
  bootNonce : Bytes 16 := zero 16
  resetReason : UInt32 := 0
  error : UInt32 := 0
  standard : StatusSnapshot := {}
  engine : EngineSnapshot := {}
  deriving DecidableEq

def kindByte : Kind → UInt8
  | .initial => 1 | .final => 2 | .failure => 3 | .unlisted => 0

def kindOf : UInt8 → Kind
  | 1 => .initial | 2 => .final | 3 => .failure | _ => .unlisted

def unitShape (t : Tag) : Bool := t.factor == 0 && !t.verified && decide (t.phase ≤ 4)

def shape (f : Frame) : Bool :=
  anyNonzero f.bootNonce && f.kind != .unlisted && decide (f.standard.phase ≤ 4) &&
    decide (f.standard.mode ≤ 3) && f.standard.reserved == 0 && decide (f.engine.phase ≤ 4) &&
    unitShape f.standard.units && unitShape f.engine.units

def putTag (w : Wire) (at_ : Nat) (t : Tag) : Wire :=
  put (put (put w at_ t.epoch.toNat 8) (at_ + 8) t.generation.toNat 8) (at_ + 16) t.phase.toNat 1

def getTag (w : Wire) (at_ : Nat) : Tag :=
  { epoch := .ofNat (get w at_ 8), generation := .ofNat (get w (at_ + 8) 8),
    phase := byteAt w (at_ + 16) }

def signedWord (v : Nat) : Int16 :=
  if 0x8000 ≤ v then .ofInt ((v : Int) - 65536) else .ofInt v

def putWords (w : Wire) (at_ : Nat) : List UInt16 → Wire
  | [] => w
  | v :: rest => putWords (put w at_ v.toNat 2) (at_ + 2) rest

def statusWords (s : StatusSnapshot) : List UInt16 :=
  [s.rawSoc, s.remainingMah, s.fullMah, s.designMah, s.voltageMv, s.currentMa.toUInt16,
    s.averageCurrentMa.toUInt16, s.rawCoulombMah, s.cycleCount, s.operationStatus,
    s.batteryStatus, s.gaugingStatus, s.rawEcho16]

def putStatus (w : Wire) (s : StatusSnapshot) : Wire :=
  let w := put (put w 32 s.sampledUs.toNat 8) 40 s.validMask.toNat 4
  let w := putWords w 44 (statusWords s)
  let w := put (put (put w 70 s.phase.toNat 1) 71 s.outcome.toNat 1) 72 s.mode.toNat 1
  putTag w 74 s.units

def putEngine (w : Wire) (e : EngineSnapshot) : Wire :=
  let w := put (put w 96 e.sampledUs.toNat 8) 104 e.validMask.toNat 2
  let w := put (put (put w 106 e.echo73.toNat 2) 108 e.echo76.toNat 2) 110 e.echo02.toNat 2
  let w := put (put w 112 e.phase.toNat 1) 113 e.outcome.toNat 1
  let w := blit (blit (blit w 114 e.rawCedv 23) 137 e.rawSmooth 17) 154 e.rawIdentity 11
  putTag w 168 e.units

def encode (f : Frame) : Option Wire :=
  if shape f then
    let w := put (put (put (zero wireSize) 0 magic 4) 4 1 2) 6 wireSize 2
    let w := put (put w 8 f.resetReason.toNat 4) 12 (kindByte f.kind).toNat 1
    let w := putEngine (putStatus (blit w 16 f.bootNonce 16) f.standard) f.engine
    some (closeCrc (put w 188 f.error.toNat 4) crcOffset)
  else none

def word (w : Wire) (at_ : Nat) : UInt16 := .ofNat (get w at_ 2)

def getStatus (w : Wire) : StatusSnapshot where
  sampledUs := .ofNat (get w 32 8)
  validMask := .ofNat (get w 40 4)
  rawSoc := word w 44
  remainingMah := word w 46
  fullMah := word w 48
  designMah := word w 50
  voltageMv := word w 52
  currentMa := signedWord (get w 54 2)
  averageCurrentMa := signedWord (get w 56 2)
  rawCoulombMah := word w 58
  cycleCount := word w 60
  operationStatus := word w 62
  batteryStatus := word w 64
  gaugingStatus := word w 66
  rawEcho16 := word w 68
  phase := byteAt w 70
  outcome := byteAt w 71
  mode := byteAt w 72
  units := getTag w 74

def getEngine (w : Wire) : EngineSnapshot where
  sampledUs := .ofNat (get w 96 8)
  validMask := word w 104
  echo73 := word w 106
  echo76 := word w 108
  echo02 := word w 110
  phase := byteAt w 112
  outcome := byteAt w 113
  rawCedv := slice w 114 23 23
  rawSmooth := slice w 137 17 17
  rawIdentity := slice w 154 11 11
  units := getTag w 168

def frameOf (w : Wire) : Frame where
  kind := kindOf (byteAt w 12)
  bootNonce := slice w 16 16 16
  resetReason := .ofNat (get w 8 4)
  error := .ofNat (get w 188 4)
  standard := getStatus w
  engine := getEngine w

def decode (w : Wire) : Option Frame :=
  if get w 0 4 ≠ magic ∨ get w 4 2 ≠ 1 ∨ get w 6 2 ≠ wireSize ∨ !crcMatches w crcOffset then none
  else if encode (frameOf w) = some w then some (frameOf w) else none

end Mosaico.Gauge.ColdEvidence
