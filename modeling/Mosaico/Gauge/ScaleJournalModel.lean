import Mosaico.Gauge.RecoveryModel

/-! The records of the scale journals and of the contrast journal, `mosaico_gauge_scale_journal_model.h`,
`mosaico_factory_scale_journal_model.h` and `mosaico_gauge_contrast_journal_model.h`. -/
namespace Mosaico.Gauge

open ByteFields Recovery

namespace ScaleJournal

def headerSize : Nat := 64
def blobSize : Nat := 512

abbrev Blob := Bytes 512

structure Record where
  mac : Bytes 6 := zero 6
  snapshot : Snapshot := {}
  deriving DecidableEq

/-- `GSJ2`. -/
def magic : Nat := 0x324a5347

def crc32 (bytes : List UInt8) : Nat := (~~~ bytes.foldl crcByte 0xffffffff).toNat

def layoutFingerprint : Nat :=
  crc32 (publicLayout.flatMap fun f => [digit f.address.toNat 0, digit f.address.toNat 1, f.width])

def binding (mac : Bytes 6) : Binding := blit (zero 32) 0 mac 6

def shape (r : Record) : Bool :=
  let c : Context := {
    identity := r.snapshot.identity
    binding := binding r.mac
    layoutId := .public131V1
    sourceCrcAttested := true
    reviewedTargetAttested := true }
  byteAt r.mac 0 &&& 1 == 0 && validate r.snapshot c == .none

def digestBytes (target : Bool) (f : Field) : List UInt8 :=
  [digit f.address.toNat 0, digit f.address.toNat 1, f.width] ++ (if target then f.target else f.original).toList

def imageDigest (r : Record) (target : Bool) : Nat := crc32 (r.snapshot.fields.toList.flatMap (digestBytes target))

def putFields {k : Nat} (b : Bytes k) (n : Nat) : List Field → Bytes k
  | [] => b
  | f :: fields =>
    let w := f.width.toNat
    putFields (blit (blit b n f.original w) (n + w) f.target w) (n + w + w) fields

def fill (r : Record) : Blob :=
  let s := r.snapshot
  let b := put (zero 512) 0 magic 4
  let b := put b 4 2 2
  let b := put b 6 blobSize 2
  let b := blit b 8 r.mac 6
  let b := put b 14 s.identity.device.toNat 2
  let b := put b 16 s.identity.firmware.toNat 2
  let b := put b 18 s.identity.build.toNat 1
  let b := put b 19 s.phase.byte.toNat 1
  let b := put b 20 s.scale.byte.toNat 1
  let b := put b 22 s.layoutId.byte.toNat 2
  let b := put b 24 s.generation.toNat 4
  let b := put b 28 s.epoch.toNat 8
  let b := put b 36 s.count 2
  let b := put b 40 (imageDigest r false) 4
  let b := put b 44 (imageDigest r true) 4
  let b := put b 48 layoutFingerprint 4
  putFields b headerSize s.fields.toList

def encode (r : Record) : Option Blob := if shape r then some (closeCrc (fill r) 508) else none

def readFields {k : Nat} (b : Bytes k) (n : Nat) : List LayoutField → List Field
  | [] => []
  | l :: layout =>
    let w := l.width.toNat
    { address := l.address, width := l.width, original := slice b n w 4, target := slice b (n + w) w 4 } ::
      readFields b (n + w + w) layout

private theorem length_readFields {k : Nat} (b : Bytes k) (n : Nat) (layout : List LayoutField) :
    (readFields b n layout).length = layout.length := by
  induction layout generalizing n with
  | nil => rfl
  | cons l layout ih => exact congrArg (· + 1) (ih _)

theorem length_publicLayout : publicLayout.length = fieldCount := by decide +kernel

def fields (b : Blob) : Vector Field fieldCount :=
  ⟨(readFields b headerSize publicLayout).toArray,
    List.size_toArray.trans ((length_readFields _ _ _).trans length_publicLayout)⟩

def decode (b : Blob) (mac : Bytes 6) : Option Record :=
  if get b 0 4 ≠ magic ∨ get b 4 2 ≠ 2 ∨ get b 6 2 ≠ blobSize ∨ crcMatches b 508 = false then none
  else if slice b 8 6 6 ≠ mac then none
  else if byteAt b 21 ≠ 0 ∨ byteAt b 38 ≠ 0 ∨ byteAt b 39 ≠ 0 then none
  else if get b 48 4 ≠ layoutFingerprint then none
  else if zeros b 52 headerSize = false then none
  -- A high byte is refused, not cut off.
  else if get b 22 2 ≠ Layout.public131V1.byte.toNat then none
  else do
    let phase ← Phase.ofByte (byteAt b 19)
    let scale ← Scale.ofByte (byteAt b 20)
    let r : Record := {
      mac
      snapshot := {
        identity := ⟨UInt16.ofNat (get b 14 2), UInt16.ofNat (get b 16 2), byteAt b 18⟩
        binding := binding mac
        layoutId := .public131V1
        generation := UInt32.ofNat (get b 24 4)
        scale
        epoch := UInt64.ofNat (get b 28 8)
        phase
        count := get b 36 2
        fields := fields b } }
    if !shape r || get b 40 4 != imageDigest r false || get b 44 4 != imageDigest r true then none else some r

def sameRecoveryImage (a b : Record) : Bool :=
  a.mac == b.mac && a.snapshot.identity == b.snapshot.identity && a.snapshot.scale == b.snapshot.scale &&
    a.snapshot.fields == b.snapshot.fields

def follows : Phase → Phase → Bool
  | .original, y => y == .pending || y == .restoring
  | .pending, y => y == .applied || y == .restoring
  | .applied, y => y == .restoring
  | .restoring, y => y == .original

def transition (a b : Record) : Bool :=
  shape a && shape b && sameRecoveryImage a b && a.snapshot.generation != 0xffffffff &&
    b.snapshot.generation == a.snapshot.generation + 1 && advancing a.snapshot.epoch b.snapshot.epoch &&
    follows a.snapshot.phase b.snapshot.phase

end ScaleJournal

end Mosaico.Gauge
