import Mosaico.Gauge.ColdTrial
import Mosaico.Nand.ColdStore

/-! `mosaico_gauge_cold_capsule.h`: the metadata of the cold trial as 288 bytes inside
a record of the cold store. -/
namespace Mosaico.Gauge.ColdCapsule

open ByteFields ColdTrial

abbrev StoreRecord := Nand.ColdStore.Record
abbrev wireSize : Nat := 288
abbrev bindingWireSize : Nat := 188
abbrev magic : Nat := 0x314d4347
abbrev bindingMagic : Nat := 0x31424347
abbrev codecVersion : Nat := 1

def phaseByte : Phase → UInt8
  | .armed => 1 | .handedOff => 2 | .captureClaimed => 3 | .captured => 4
  | .captureFailed => 5 | .restoring => 6 | .restored => 7 | .blockedUnknown => 8
  | .unlisted => 0

def phaseOf : UInt8 → Phase
  | 1 => .armed | 2 => .handedOff | 3 => .captureClaimed | 4 => .captured
  | 5 => .captureFailed | 6 => .restoring | 7 => .restored | 8 => .blockedUnknown
  | _ => .unlisted

def captureByte : CaptureResult → UInt8
  | .none => 0 | .success => 1 | .knownTimeout => 2 | .knownOverflow => 3
  | .knownReadFailure => 4 | .interrupted => 5 | .rejectedStartup => 6
  | .startupWindowExpired => 7 | .unlisted => 8

def captureOf : UInt8 → CaptureResult
  | 0 => .none | 1 => .success | 2 => .knownTimeout | 3 => .knownOverflow
  | 4 => .knownReadFailure | 5 => .interrupted | 6 => .rejectedStartup
  | 7 => .startupWindowExpired | _ => .unlisted

def recoveryByte : RecoveryBinding → UInt8
  | .slotHashes => 1 | .contractDigest => 2 | .unlisted => 0

def recoveryOf : UInt8 → RecoveryBinding
  | 1 => .slotHashes | 2 => .contractDigest | _ => .unlisted

variable {n : Nat}

def writeBinding (out : ByteFields.Bytes n) (at_ : Nat) (b : Binding) : ByteFields.Bytes n :=
  let out := blit out at_ b.mac 6
  let out := put (put out (at_ + 6) b.identity.device 2) (at_ + 8) b.identity.firmware 2
  let out := put (put out (at_ + 10) b.identity.build 1) (at_ + 11) (recoveryByte b.recovery).toNat 1
  let out := put (put out (at_ + 12) b.source 4) (at_ + 16) b.target 4
  let out := put (put out (at_ + 20) b.originalGctGeneration 4) (at_ + 24) b.originalGctEpoch 8
  let out := blit (blit out (at_ + 32) b.nonce 16) (at_ + 48) b.slotHashes.1 32
  let out := blit (blit out (at_ + 80) b.slotHashes.2 32) (at_ + 112) b.contractDigest 32
  put (blit out (at_ + 144) b.source131ReceiptDigest 32) (at_ + 176) b.captureBudgetMs 4

def readBinding (p : ByteFields.Bytes n) (at_ : Nat) : Binding where
  mac := slice p at_ 6 6
  identity :=
    { device := get p (at_ + 6) 2, firmware := get p (at_ + 8) 2, build := get p (at_ + 10) 1 }
  source := get p (at_ + 12) 4
  target := get p (at_ + 16) 4
  originalGctGeneration := get p (at_ + 20) 4
  originalGctEpoch := get p (at_ + 24) 8
  nonce := slice p (at_ + 32) 16 16
  recovery := recoveryOf (byteAt p (at_ + 11))
  slotHashes := (slice p (at_ + 48) 32 32, slice p (at_ + 80) 32 32)
  contractDigest := slice p (at_ + 112) 32 32
  source131ReceiptDigest := slice p (at_ + 144) 32 32
  captureBudgetMs := get p (at_ + 176) 4

def encodeBinding (b : Binding) : Option (ByteFields.Bytes bindingWireSize) :=
  if validBinding b then
    let out := put (put (zero bindingWireSize) 0 bindingMagic 4) 4 protocolVersion 2
    some (writeBinding (put out 6 bindingWireSize 2) 8 b)
  else none

def canonical (r : Record) : Bool :=
  (r.capture == .none || r.capture == .success || knownFailure r.capture) && shape r &&
    (r.capture == .none) == !nonzero r.evidenceDigest

def bootByte (b : BootToken) : Nat := if b.verified then 1 else 0

def wire (r : Record) (p : ByteFields.Bytes n) : ByteFields.Bytes n :=
  let p := put (put (put p 0 magic 4) 4 codecVersion 2) 6 wireSize 2
  let p := put (put p 8 r.schema 2) 10 (phaseByte r.phase).toNat 1
  let p := put (put p 11 (captureByte r.capture).toNat 1) 12 r.sequence 4
  let p := writeBinding p 16 r.binding
  let p := put (blit p 196 r.armedBoot.nonce 16) 212 (bootByte r.armedBoot) 1
  let p := put (blit p 213 r.claimedBoot.nonce 16) 229 (bootByte r.claimedBoot) 1
  let p := put (put (put p 232 r.armedMs 8) 240 r.handoffMs 8) 248 r.claimMs 8
  blit p 256 r.evidenceDigest 32

def encode (r : Record) (expected : Binding) (trustedBindingDigest : Digest) :
    Option StoreRecord :=
  if !canonical r ∨ !validBinding expected ∨ !(r.binding == expected) ∨
      !nonzero trustedBindingDigest then
    none
  else
    let out : StoreRecord :=
      { sequence := .ofNat r.sequence, phase := phaseByte r.phase, nonce := r.binding.nonce,
        binding := trustedBindingDigest, size := .ofNat wireSize, payload := wire r (zero _) }
    if Nand.ColdStore.shape out then some out else none

/-- The record whose wire bytes these are, if they are any. -/
def unwire (p : ByteFields.Bytes n) : Record where
  schema := get p 8 2
  binding := readBinding p 16
  sequence := get p 12 4
  phase := phaseOf (byteAt p 10)
  armedBoot := { nonce := slice p 196 16 16, verified := byteAt p 212 != 0 }
  claimedBoot := { nonce := slice p 213 16 16, verified := byteAt p 229 != 0 }
  armedMs := get p 232 8
  handoffMs := get p 240 8
  claimMs := get p 248 8
  capture := captureOf (byteAt p 11)
  evidenceDigest := slice p 256 32 32

def decode (s : StoreRecord) (expected : Binding) (trustedBindingDigest : Digest) :
    Option Record :=
  let p := s.payload
  let r := unwire p
  if !Nand.ColdStore.shape s ∨ s.size.toNat ≠ wireSize ∨ !validBinding expected ∨
      !nonzero trustedBindingDigest ∨ s.binding ≠ trustedBindingDigest then
    none
  else if get p 0 4 ≠ magic ∨ get p 4 2 ≠ codecVersion ∨ get p 6 2 ≠ wireSize ∨
      1 < byteAt p 212 ∨ 1 < byteAt p 229 ∨ byteAt p 230 ≠ 0 ∨ byteAt p 231 ≠ 0 then
    none
  else if s.sequence.toNat ≠ r.sequence ∨ s.phase ≠ phaseByte r.phase ∨
      s.nonce ≠ r.binding.nonce ∨ !(r.binding == expected) ∨ !canonical r then
    none
  else some r

theorem decode_canonical {s : StoreRecord} {expected : Binding} {d : Digest} {r : Record}
    (h : decode s expected d = some r) : canonical r = true := by
  simp only [decode] at h
  split at h
  · cases h
  · split at h
    · cases h
    · split at h
      · cases h
      · rename_i _ _ checks
        simp only [not_or, Bool.not_eq_true'] at checks
        cases h
        simpa using checks.2.2.2.2

end Mosaico.Gauge.ColdCapsule
