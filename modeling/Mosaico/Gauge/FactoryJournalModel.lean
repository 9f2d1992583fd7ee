import Mosaico.Gauge.ScaleJournalModel

/-! `mosaico_factory_scale_model.h` and `mosaico_factory_scale_journal_model.h`: the one reviewed pair of
images of the factory profile, and its records in the scale journal's format. -/
namespace Mosaico.Gauge.FactoryJournal

open ByteFields Recovery

inductive Profile where
  | unknown | factory3000RollbackToNominal65Virtual130
  deriving DecidableEq

def Profile.byte : Profile → UInt8
  | .unknown => 0 | .factory3000RollbackToNominal65Virtual130 => 1

structure Record where
  profile : Profile := .unknown
  mac : Bytes 6 := zero 6
  snapshot : Snapshot := {}
  deriving DecidableEq

def factorySourceCrc : Nat := 0x70a767be
def candidateTargetCrc : Nat := 0xb5b0f0d6

structure Change where
  address : UInt16
  width : UInt8
  before : Nat
  after : Nat

def changes : List Change :=
  [⟨0x9184, 4, 0x7e73b645, 0x7f73b645⟩, ⟨0x9188, 4, 0x930aa522, 0x940aa522⟩, ⟨0x91de, 1, 5, 10⟩,
    ⟨0x91fb, 2, 200, 400⟩, ⟨0x9201, 2, 100, 200⟩, ⟨0x920e, 2, 150, 300⟩, ⟨0x9210, 2, 175, 350⟩,
    ⟨0x9217, 2, 10, 20⟩, ⟨0x9228, 2, 60, 120⟩,
    ⟨0x922a, 2, 75, 150⟩, ⟨0x922c, 2, 40, 80⟩, ⟨0x923c, 1, 0xf6, 0xec⟩, ⟨0x9264, 2, 1500, 3000⟩,
    ⟨0x926b, 2, 200, 400⟩,
    ⟨0x929d, 2, 3000, 130⟩, ⟨0x929f, 2, 3000, 130⟩, ⟨0x92ab, 2, 867, 434⟩]

def raw (bytes : Bytes 4) (width : UInt8) : Nat :=
  (List.range width.toNat).foldl (fun value i => value * 256 + (byteAt bytes i).toNat) 0

def digest (s : Snapshot) (target : Bool) : Nat :=
  ScaleJournal.crc32 (s.fields.toList.flatMap (ScaleJournal.digestBytes target))

def owned (address : UInt16) : Option Change := (changes.filter fun c => c.address == address).getLast?

def fieldClosed (f : Field) : Bool :=
  match owned f.address with
  | some c => f.width == c.width && raw f.original f.width == c.before && raw f.target f.width == c.after
  | none => f.original == f.target

def closedImageTemplate (s : Snapshot) : Bool :=
  let fields := s.fields.toList
  s.scale == .two && s.count == fieldCount && fieldsShaped fields publicLayout && fields.all fieldClosed &&
    (fields.filter fun f => (owned f.address).isSome).length == 17 &&
    (fields.any fun f => f.address == 0x929b && raw f.original f.width == 0x102a) &&
    (fields.any fun f => f.address == 0x9180 && raw f.original f.width == 0xfff0) &&
    digest s false == factorySourceCrc && digest s true == candidateTargetCrc

def shape (r : Record) : Bool :=
  let s := r.snapshot
  r.profile == .factory3000RollbackToNominal65Virtual130 && knownIdentity s.identity && s.generation != 0 &&
    s.epoch != 0 && s.layoutId == .public131V1 && byteAt r.mac 0 &&& 1 == 0 && closedImageTemplate s &&
    anyNonzero (ScaleJournal.binding r.mac) && s.binding == ScaleJournal.binding r.mac

def translated (r : Record) : ScaleJournal.Record := ⟨r.mac, r.snapshot⟩

def tag (b : ScaleJournal.Blob) (letter : UInt8) (version : Nat) (profile : UInt8) : ScaleJournal.Blob :=
  closeCrc (put (put (put b 3 letter.toNat 1) 4 version 2) 21 profile.toNat 1) 508

def encode (r : Record) : Option ScaleJournal.Blob :=
  if shape r then do
    let bytes ← ScaleJournal.encode (translated r)
    some (tag bytes 0x33 3 r.profile.byte)
  else none

/-- `GSJ3`. -/
def magic : Nat := 0x334a5347

def decode (b : ScaleJournal.Blob) (expectedMac : Bytes 6) : Option Record :=
  if get b 0 4 ≠ magic ∨ get b 4 2 ≠ 3 ∨ get b 6 2 ≠ ScaleJournal.blobSize ∨
      byteAt b 21 ≠ Profile.factory3000RollbackToNominal65Virtual130.byte ∨ crcMatches b 508 = false then none
  else do
    let record ← ScaleJournal.decode (tag b 0x32 2 0) expectedMac
    let r : Record := ⟨.factory3000RollbackToNominal65Virtual130, record.mac, record.snapshot⟩
    if shape r then some r else none

def sameRecoveryImage (a b : Record) : Bool :=
  let x := a.snapshot
  let y := b.snapshot
  a.profile == b.profile && a.mac == b.mac && x.identity == y.identity && x.binding == y.binding &&
    x.layoutId == y.layoutId && x.scale == y.scale && x.count == y.count && x.fields == y.fields

def transition (a b : Record) : Bool :=
  let x := a.snapshot
  let y := b.snapshot
  shape a && shape b && sameRecoveryImage a b && x.generation != 0xffffffff && y.generation == x.generation + 1 &&
    advancing x.epoch y.epoch && ScaleJournal.follows x.phase y.phase

end Mosaico.Gauge.FactoryJournal
