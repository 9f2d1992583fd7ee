import Mosaico.Library.RecordLayout
import Mathlib.Data.List.Sort

/-! `mosaico_gauge_recovery_model.h`: a snapshot of an original and a target image of the gauge's public
fields, and what makes it valid. -/
namespace Mosaico.Gauge.Recovery

open ByteFields

structure LayoutField where
  address : UInt16 := 0
  width : UInt8 := 0
  deriving DecidableEq

inductive FieldType where
  | u1 | h1 | i2 | u2 | h2
  deriving DecidableEq

structure ThresholdField where
  selector : UInt16
  type : FieldType

def thresholdFields : List ThresholdField :=
  [⟨0x929f, .i2⟩, ⟨0x929d, .i2⟩, ⟨0x929b, .h2⟩, ⟨0x929a, .u1⟩, ⟨0x9228, .i2⟩, ⟨0x922a, .i2⟩, ⟨0x922c, .i2⟩,
    ⟨0x9217, .i2⟩, ⟨0x91fd, .i2⟩, ⟨0x91fb, .i2⟩, ⟨0x9201, .i2⟩, ⟨0x92a5, .i2⟩, ⟨0x9240, .i2⟩, ⟨0x9242, .u1⟩,
    ⟨0x9243, .i2⟩, ⟨0x92b4, .i2⟩, ⟨0x92b7, .i2⟩, ⟨0x92ba, .i2⟩, ⟨0x9251, .u2⟩, ⟨0x926b, .i2⟩, ⟨0x926d, .i2⟩,
    ⟨0x927f, .h2⟩, ⟨0x9281, .h1⟩, ⟨0x922e, .u2⟩, ⟨0x9230, .u1⟩, ⟨0x9231, .u1⟩, ⟨0x92a7, .u2⟩, ⟨0x92a9, .u2⟩,
    ⟨0x92ab, .u2⟩, ⟨0x92ad, .u2⟩, ⟨0x92af, .u2⟩, ⟨0x92b1, .u1⟩, ⟨0x92b2, .u1⟩, ⟨0x92b3, .u1⟩, ⟨0x92bd, .i2⟩,
    ⟨0x92bf, .i2⟩, ⟨0x92c1, .i2⟩, ⟨0x92c3, .i2⟩, ⟨0x92c5, .i2⟩, ⟨0x92c7, .i2⟩, ⟨0x92c9, .i2⟩, ⟨0x92cb, .i2⟩,
    ⟨0x92cd, .i2⟩, ⟨0x92cf, .i2⟩, ⟨0x92d1, .i2⟩, ⟨0x9271, .h1⟩, ⟨0x9272, .i2⟩, ⟨0x9274, .i2⟩, ⟨0x926f, .u1⟩,
    ⟨0x9270, .u1⟩, ⟨0x9268, .u1⟩, ⟨0x9269, .i2⟩, ⟨0x92a3, .i2⟩, ⟨0x92b6, .u1⟩, ⟨0x92b9, .u1⟩, ⟨0x92bc, .u1⟩,
    ⟨0x9276, .i2⟩, ⟨0x927b, .u1⟩, ⟨0x927c, .u1⟩]

def calibrationFields : List LayoutField :=
  [⟨0x9180, 2⟩, ⟨0x9184, 4⟩, ⟨0x9188, 4⟩, ⟨0x91b4, 1⟩, ⟨0x91dd, 1⟩, ⟨0x91de, 1⟩, ⟨0x91df, 1⟩]

def publicExtraFields : List LayoutField :=
  [⟨0x9182, 2⟩, ⟨0x91b5, 1⟩, ⟨0x91b6, 1⟩, ⟨0x91b7, 1⟩, ⟨0x91b8, 2⟩, ⟨0x91ba, 2⟩, ⟨0x91bc, 2⟩, ⟨0x91be, 2⟩,
    ⟨0x91c0, 2⟩, ⟨0x91c2, 2⟩, ⟨0x91c4, 2⟩, ⟨0x91c6, 2⟩, ⟨0x91c8, 2⟩, ⟨0x91ca, 2⟩, ⟨0x91cc, 2⟩, ⟨0x91ce, 2⟩,
    ⟨0x91d0, 2⟩, ⟨0x91d2, 2⟩, ⟨0x91d4, 2⟩, ⟨0x91d6, 2⟩, ⟨0x91d8, 2⟩, ⟨0x91da, 1⟩, ⟨0x91db, 2⟩, ⟨0x91f5, 2⟩,
    ⟨0x91f7, 2⟩, ⟨0x91f9, 2⟩, ⟨0x9206, 2⟩, ⟨0x9208, 2⟩, ⟨0x920b, 1⟩, ⟨0x920c, 1⟩, ⟨0x920d, 1⟩, ⟨0x920e, 2⟩,
    ⟨0x9210, 2⟩, ⟨0x9212, 2⟩, ⟨0x9219, 1⟩, ⟨0x921a, 2⟩, ⟨0x921c, 2⟩, ⟨0x921e, 1⟩, ⟨0x921f, 1⟩, ⟨0x9232, 2⟩,
    ⟨0x9234, 1⟩, ⟨0x9235, 2⟩, ⟨0x9237, 2⟩, ⟨0x9239, 1⟩, ⟨0x923a, 2⟩, ⟨0x923c, 1⟩, ⟨0x925b, 1⟩, ⟨0x9264, 2⟩,
    ⟨0x927d, 1⟩, ⟨0x9282, 2⟩, ⟨0x9284, 2⟩, ⟨0x9286, 1⟩, ⟨0x9287, 1⟩, ⟨0x9288, 2⟩, ⟨0x928a, 2⟩, ⟨0x928c, 1⟩,
    ⟨0x928d, 1⟩, ⟨0x928e, 2⟩, ⟨0x9290, 2⟩, ⟨0x9292, 1⟩, ⟨0x9293, 1⟩, ⟨0x9294, 2⟩, ⟨0x9296, 2⟩, ⟨0x9298, 1⟩,
    ⟨0x9299, 1⟩]

def fieldCount : Nat := 131

def ThresholdField.layout (f : ThresholdField) : LayoutField where
  address := f.selector
  width := if f.type = .u1 ∨ f.type = .h1 then 1 else 2

def publicLayout : List LayoutField :=
  (thresholdFields.map ThresholdField.layout ++ calibrationFields ++ publicExtraFields).insertionSort
    fun a b => a.address ≤ b.address

inductive Layout where
  | unknown | public131V1
  deriving DecidableEq

inductive Phase where
  | original | pending | applied | restoring
  deriving DecidableEq

inductive Scale where
  | one | two | four
  deriving DecidableEq

def Layout.byte : Layout → UInt8
  | .unknown => 0 | .public131V1 => 1

def Phase.byte : Phase → UInt8
  | .original => 0 | .pending => 1 | .applied => 2 | .restoring => 3

/-- A byte outside the enumeration is a phase that `validPhase` refuses. -/
def Phase.ofByte (v : UInt8) : Option Phase :=
  if v = 0 then some .original else if v = 1 then some .pending else if v = 2 then some .applied
  else if v = 3 then some .restoring else none

def Scale.byte : Scale → UInt8
  | .one => 1 | .two => 2 | .four => 4

def Scale.ofByte (v : UInt8) : Option Scale :=
  if v = 1 then some .one else if v = 2 then some .two else if v = 4 then some .four else none

structure Identity where
  device : UInt16 := 0
  firmware : UInt16 := 0
  build : UInt8 := 0
  deriving DecidableEq

abbrev Binding := Bytes 32

structure Field where
  address : UInt16 := 0
  width : UInt8 := 0
  original : Bytes 4 := zero 4
  target : Bytes 4 := zero 4
  deriving DecidableEq

structure Snapshot where
  identity : Identity := {}
  binding : Binding := zero 32
  layoutId : Layout := .unknown
  generation : UInt32 := 0
  scale : Scale := .one
  epoch : UInt64 := 0
  phase : Phase := .original
  count : Nat := 0
  fields : Vector Field fieldCount := Vector.replicate fieldCount {}
  deriving DecidableEq

structure Context where
  identity : Identity := {}
  binding : Binding := zero 32
  layoutId : Layout := .unknown
  sourceCrcAttested : Bool := false
  reviewedTargetAttested : Bool := false

inductive Error where
  | none | identity | binding | layout | shape | attestation | unexpected | phase | epoch | durability | notOriginal
  | notTarget | notSealed
  deriving DecidableEq

def knownIdentity (id : Identity) : Bool := id == ⟨0x0220, 0x0003, 4⟩

def Field.canonical (f : Field) : Bool := zeros f.original f.width.toNat 4 && zeros f.target f.width.toNat 4

def Field.placed (f : Field) (l : LayoutField) : Bool := f.address == l.address && f.width == l.width

def fieldsShaped (fields : List Field) (layout : List LayoutField) : Bool :=
  match fields, layout with
  | f :: fields, l :: layout => f.placed l && f.canonical && fieldsShaped fields layout
  | _, _ => true

def validate (s : Snapshot) (c : Context) : Error :=
  if !knownIdentity s.identity || !knownIdentity c.identity || s.identity != c.identity then .identity
  else if !anyNonzero s.binding || !anyNonzero c.binding || s.binding != c.binding then .binding
  else if s.layoutId ≠ .public131V1 ∨ c.layoutId ≠ s.layoutId then .layout
  else if s.generation = 0 ∨ s.count ≠ fieldCount then .shape
  else if !fieldsShaped s.fields.toList publicLayout then .shape
  else if !c.sourceCrcAttested || !c.reviewedTargetAttested then .attestation
  else .none

def advancing (before after : UInt64) : Bool := before != 0xffffffffffffffff && decide (before < after)

end Mosaico.Gauge.Recovery
