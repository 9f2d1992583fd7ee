import Mosaico.Gauge.ScaleJournalModel

/-! `mosaico_gauge_contrast_model.h` and `mosaico_gauge_contrast_journal_model.h`: the records of the
contrast trial. -/
namespace Mosaico.Gauge.ContrastJournal

open ByteFields Recovery

abbrev rawSize : Nat := 222

abbrev Raw := Bytes rawSize

inductive Arm where
  | c | b
  deriving DecidableEq

def Arm.byte : Arm → UInt8
  | .c => 1 | .b => 2

def Arm.ofByte (v : UInt8) : Option Arm := if v = 1 then some .c else if v = 2 then some .b else none

def canonicalSourceCrc : Nat := 0x70a767be

/-- The one original image. -/
def sourceBytes : List UInt8 :=
  [0xff, 0xf0, 0x0b, 0xd6, 0x7e, 0x73, 0xb6, 0x45, 0x93, 0x0a, 0xa5, 0x22, 0x00, 0x00, 0x00, 0x00, 0x00, 0x00,
    0x00, 0x00, 0xcb, 0xd4, 0x1a, 0x05, 0xd4, 0x86, 0x4a, 0xc6, 0xb4, 0xc2, 0x6e, 0x2b, 0x03, 0x7c, 0x01, 0x48,
    0xfd, 0xa3, 0xf6, 0x75, 0x12, 0x58, 0x2d, 0xb7, 0x1c, 0x98, 0x02, 0xd3, 0xff, 0xb9, 0x30, 0x01, 0x00, 0xef,
    0x05, 0x11, 0x00, 0x00, 0x01, 0xc2, 0x00, 0x32, 0x00, 0xc8, 0x10, 0x68, 0x00, 0x64, 0x04, 0x84, 0x18, 0x00,
    0x01, 0x09, 0x00, 0x00, 0x96, 0x00, 0xaf, 0x02, 0x20, 0x00, 0x0a, 0x05, 0x00, 0x32, 0x01, 0xc2, 0x14, 0x14,
    0x00, 0x3c, 0x00, 0x4b, 0x00, 0x28, 0x00, 0x3c, 0x3c, 0x01, 0x02, 0x26, 0x02, 0x01, 0xf4, 0x02, 0x58, 0x02,
    0x02, 0x26, 0xf6, 0x0c, 0x4e, 0x02, 0x0c, 0xb2, 0x02, 0xbc, 0x77, 0x05, 0xdc, 0x14, 0x00, 0x00, 0x00, 0xc8,
    0x00, 0x00, 0x64, 0x64, 0x08, 0x0e, 0x74, 0x00, 0x64, 0x1f, 0x40, 0x02, 0x3c, 0x5a, 0x0c, 0x8c, 0x8c, 0x0b,
    0xb8, 0x0c, 0x1c, 0x00, 0x05, 0x10, 0x68, 0x10, 0x04, 0x64, 0x5f, 0x0c, 0x80, 0x0c, 0xe4, 0x06, 0x08, 0x10,
    0x68, 0x10, 0x04, 0x64, 0x5f, 0x00, 0x10, 0x2a, 0x0b, 0xb8, 0x0b, 0xb8, 0x0e, 0x74, 0x00, 0x64, 0x0e, 0x9f,
    0x00, 0x95, 0x03, 0x63, 0x0f, 0xbe, 0x01, 0x3c, 0x09, 0x00, 0x00, 0x0b, 0xd7, 0x01, 0x0d, 0x39, 0x01, 0x0d,
    0xad, 0x01, 0x10, 0x4d, 0x0f, 0xcb, 0x0f, 0x55, 0x0e, 0xed, 0x0e, 0x8d, 0x0e, 0x48, 0x0e, 0x23, 0x0d, 0xfe,
    0x0d, 0xbb, 0x0d, 0x6f, 0x0a, 0x99]

def sourceFixture : Raw := ofFn rawSize fun i => sourceBytes.getD i 0

structure Record where
  mac : Bytes 6 := zero 6
  identity : Identity := ⟨0x0220, 0x0003, 4⟩
  generation : UInt32 := 0
  epoch : UInt64 := 0
  phase : Phase := .original
  arm : Arm := .c
  source : Raw := zero rawSize
  deriving DecidableEq

def shape (r : Record) : Bool :=
  anyNonzero r.mac && byteAt r.mac 0 &&& 1 == 0 && knownIdentity r.identity && r.generation != 0 && r.epoch != 0 &&
    r.source == sourceFixture

abbrev Blob := Bytes 320

/-- `GCT1`. -/
def magic : Nat := 0x31544347

def blobSize : Nat := 320

def fill (r : Record) : Blob :=
  let b := put (zero 320) 0 magic 4
  let b := put b 4 1 2
  let b := put b 6 blobSize 2
  let b := blit b 8 r.mac 6
  let b := put b 14 r.identity.device.toNat 2
  let b := put b 16 r.identity.firmware.toNat 2
  let b := put b 18 r.identity.build.toNat 1
  let b := put b 19 r.phase.byte.toNat 1
  let b := put b 20 r.arm.byte.toNat 1
  let b := put b 21 Layout.public131V1.byte.toNat 1
  let b := put b 24 r.generation.toNat 4
  let b := put b 28 r.epoch.toNat 8
  let b := put b 36 fieldCount 2
  let b := put b 38 rawSize 2
  let b := put b 40 canonicalSourceCrc 4
  let b := put b 44 ScaleJournal.layoutFingerprint 4
  blit b 64 r.source rawSize

def encode (r : Record) : Option Blob := if shape r then some (closeCrc (fill r) 316) else none

def decode (b : Blob) (mac : Bytes 6) : Option Record :=
  if get b 0 4 ≠ magic ∨ get b 4 2 ≠ 1 ∨ get b 6 2 ≠ blobSize ∨ crcMatches b 316 = false then none
  else if slice b 8 6 6 ≠ mac then none
  else if byteAt b 21 ≠ Layout.public131V1.byte ∨ byteAt b 22 ≠ 0 ∨ byteAt b 23 ≠ 0 ∨
      get b 36 2 ≠ fieldCount ∨ get b 38 2 ≠ rawSize ∨ get b 40 4 ≠ canonicalSourceCrc ∨
      get b 44 4 ≠ ScaleJournal.layoutFingerprint then none
  else if zeros b 48 64 = false ∨ zeros b 286 316 = false then none
  else do
    let phase ← Phase.ofByte (byteAt b 19)
    let arm ← Arm.ofByte (byteAt b 20)
    let r : Record := {
      mac
      identity := ⟨UInt16.ofNat (get b 14 2), UInt16.ofNat (get b 16 2), byteAt b 18⟩
      generation := UInt32.ofNat (get b 24 4)
      epoch := UInt64.ofNat (get b 28 8)
      phase
      arm
      source := slice b 64 rawSize rawSize }
    if shape r then some r else none

def follows : Phase → Phase → Bool
  | .original, y => y == .pending
  | .pending, y => y == .applied || y == .restoring
  | .applied, y => y == .restoring
  | .restoring, y => y == .original

def transition (a b : Record) : Bool :=
  if !shape a || !shape b || a.mac != b.mac || a.identity != b.identity || a.source != b.source ||
      a.generation == 0xffffffff || b.generation != a.generation + 1 || a.epoch == 0xffffffffffffffff ||
      b.epoch != a.epoch + 1 then false
  -- The arm is switched here only.
  else if a.phase == .original && b.phase == .original then true
  else if a.arm != b.arm then false
  else follows a.phase b.phase

end Mosaico.Gauge.ContrastJournal
