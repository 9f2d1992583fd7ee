import Mosaico.Host.SystemLogGroups

/-! `mosaico_system_logs.py`: pages of the journal are decoded on another machine, and what the
firmware enqueued together is put together again over the concatenated pages. -/
namespace Mosaico.Host.SystemLogExport

open ByteFields PackedWords Nand.StoreModel Nand.LogModel SystemLog

def typeName : Nat → String
  | 1 => "boot" | 2 => "gauge" | 3 => "gauge_boot" | 4 => "network" | 5 => "power" | 6 => "ota"
  | 7 => "heap" | 8 => "warning_fingerprint" | 9 => "loss" | 10 => "gauge_boot_outcome"
  | 11 => "panic" | 12 => "tcp" | 13 => "gauge_engine" | 14 => "gauge_unit_context"
  | 15 => "engine_diagnostic_event" | 16 => "derp_candidate" | 17 => "derp_candidate_name"
  | 18 => "derp_candidate_loss" | _ => "unknown"

/-- `address` and `candidate` are the bytes that the export prints. -/
structure Derp where
  seq : Nat
  attemptId : Nat
  region : Nat
  port : Nat
  nodeIndex : Nat
  family : Nat
  source : Nat
  stage : Nat
  result : Int
  error : Int
  errnoValid : Bool
  elapsedMs : Nat
  address : List UInt8
  candidateTruncated : Bool
  candidate : Option (List UInt8) := none
  candidateComplete : Bool := false
  deriving DecidableEq

structure UnitContext where
  factor : Int
  unitEpoch : Nat
  generation : Nat
  verified : Bool
  phase : Nat
  nextRecordOnly : Bool
  deriving DecidableEq

structure Row where
  pageSeq : Nat
  pageBoot : Nat
  index : Nat
  type : String
  typeId : Nat
  flags : Nat
  monotonicMs : Nat
  epoch : Nat
  args : List Nat
  derpCandidate : Option Derp := none
  unitContext : Option UnitContext := none
  physicalUnitsVerified : Option Bool := none
  deriving DecidableEq

def arg (args : List Nat) (i : Nat) : Nat := args.getD i 0

def signed (bits v : Nat) : Int := if v.testBit (bits - 1) then (v : Int) - 2 ^ bits else v

def derpOf (a : List Nat) : Derp :=
  let place := arg a 3
  { seq := arg a 0
    attemptId := arg a 1
    region := arg a 2 &&& 65535
    port := arg a 2 >>> 16
    nodeIndex := place &&& 65535
    family := (place >>> 16) &&& 15
    source := (place >>> 20) &&& 15
    stage := (place >>> 24) &&& 15
    result := signed 32 (arg a 4)
    error := signed 32 (arg a 5)
    errnoValid := place.testBit 28
    elapsedMs := arg a 6
    address := unpackAll ((a.drop 7).take 4)
    candidateTruncated := place.testBit 29 }

def unitContextOf (a : List Nat) : UnitContext where
  factor := signed 64 (arg a 0 ||| arg a 1 <<< 32)
  unitEpoch := arg a 2 ||| arg a 3 <<< 32
  generation := arg a 4 ||| arg a 5 <<< 32
  verified := arg a 6 != 0
  phase := arg a 7
  nextRecordOnly := arg a 8 == 1

def versionOne (flags : Nat) : Bool := (flags >>> 8) &&& 255 == 1

def decodeRow (data : Page) (seq boot i : Nat) : Row :=
  let base := headerSize + i * recordSize
  let typ := get data base 2
  let flags := get data (base + 2) 2
  let a := getAll data (base + 20) (List.replicate 11 4)
  { pageSeq := seq
    pageBoot := boot
    index := i
    type := typeName typ
    typeId := typ
    flags := flags
    monotonicMs := get data (base + 4) 8
    epoch := get data (base + 12) 8
    args := a
    derpCandidate := if typ = 16 ∧ versionOne flags then some (derpOf a) else none
    unitContext := if typ = 14 then some (unitContextOf a) else none }

def decodePage (data : Page) (expected : Nat) : Except String (List Row) :=
  let seq := get data 8 8
  let count := get data 20 2
  if get data 0 4 ≠ pageMagic ∨ get data 4 2 ≠ 1 ∨ get data 6 2 ≠ headerSize ∨ seq ≠ expected ∨
      ¬ (1 ≤ count ∧ count ≤ recordsPerPage) then
    .error "page_header"
  else if get data 24 4 ≠ crc data 24 ∨ ¬ zeros data 22 24 ∨ ¬ zeros data 28 headerSize then
    .error "header_crc_or_reserved"
  else if get data crcOffset 4 ≠ crc data crcOffset ∨
      ¬ zeros data (headerSize + count * recordSize) crcOffset then
    .error "page_crc_or_padding"
  else .ok ((List.range count).map (decodeRow data seq (get data 16 4)))

def takesUnits (typeId : Nat) : Bool := typeId == 2 || typeId == 3 || typeId == 13

def unitsVerified (c : UnitContext) : Bool :=
  c.verified && ((c.factor == 1 && c.phase == 1) ||
    ((c.factor == 2 || c.factor == 4) && c.phase == 3))

def contextFrom (previous : Option Row) (row : Row) : Option UnitContext := do
  let p ← previous
  if p.typeId ≠ 14 then none
  let context ← p.unitContext
  if context.nextRecordOnly ∧ p.pageBoot = row.pageBoot ∧ p.monotonicMs = row.monotonicMs then
    some context
  else none

def attachUnits (previous : Option Row) (row : Row) : Row :=
  if takesUnits row.typeId then
    { row with
      unitContext := contextFrom previous row
      physicalUnitsVerified := (contextFrom previous row).map unitsVerified }
  else row

def attachUnitContexts : Option Row → List Row → List Row
  | _, [] => []
  | previous, row :: rest =>
    let row := attachUnits previous row
    row :: attachUnitContexts (some row) rest

def nameParts (row : Row) (seq word : Nat) : Nat → Nat → List Row → List (List UInt8)
  | 0, _, _ => []
  | _, _, [] => []
  | n + 1, j, next :: rest =>
    if next.typeId ≠ 17 ∨ ¬ versionOne next.flags ∨ next.pageBoot ≠ row.pageBoot ∨
        next.monotonicMs ≠ row.monotonicMs ∨ arg next.args 0 ≠ seq ∨ arg next.args 1 ≠ j ∨
        arg next.args 2 ≠ word then []
    else unpackAll ((next.args.drop 3).take 8) :: nameParts row seq word n (j + 1) rest

def nameOf (row : Row) (d : Derp) (rest : List Row) : Option (List UInt8) := do
  let first ← rest.head?
  let word := arg first.args 2
  if first.typeId ≠ 17 ∨ arg first.args 0 ≠ d.seq ∨ arg first.args 1 ≠ 0 then none
  let length := word &&& 65535
  if length > 127 ∨ word.testBit 16 ≠ d.candidateTruncated then none
  let chunks := max 1 ((length + 31) / 32)
  let parts := nameParts row d.seq word chunks 0 rest
  if parts.length ≠ chunks then none
  let raw := parts.flatten
  if (raw.drop length).any fun b => b != 0 then none
  return raw.take length

def attachDerp (row : Row) (rest : List Row) : Row :=
  { row with
    derpCandidate := row.derpCandidate.map fun d =>
      { d with candidate := nameOf row d rest, candidateComplete := (nameOf row d rest).isSome } }

def attachDerpCandidates : List Row → List Row
  | [] => []
  | row :: rest => attachDerp row rest :: attachDerpCandidates rest

def decodePages : List (Nat × Page) → Except String (List Row)
  | [] => .ok []
  | (seq, data) :: rest => do
    let rows ← decodePage data seq
    let more ← decodePages rest
    return rows ++ more

def exportRows (pages : List (Nat × Page)) : Except String (List Row) := do
  let rows ← decodePages pages
  return attachDerpCandidates (attachUnitContexts none rows)

section Expected

/-- A record as numbers. -/
structure Raw where
  typeId : Nat
  flags : Nat
  monotonicMs : Nat
  epoch : Nat
  args : List Nat
  deriving DecidableEq

def rawOf (r : Record) : Raw where
  typeId := r.type.code
  flags := r.flags.toNat
  monotonicMs := r.monotonicMs.toNat
  epoch := r.epoch.toNat
  args := r.args.toList.map UInt32.toNat

def Row.raw (row : Row) : Raw where
  typeId := row.typeId
  flags := row.flags
  monotonicMs := row.monotonicMs
  epoch := row.epoch
  args := row.args

/-- What the export says of a candidate's name. -/
structure Name where
  bytes : Option (List UInt8)
  truncated : Bool
  complete : Bool

structure Exported where
  raw : Raw
  units : Option UnitContext := none
  name : Option Name := none

def Row.exported (row : Row) : Exported where
  raw := row.raw
  units := if takesUnits row.typeId then row.unitContext else none
  name := row.derpCandidate.map fun d => ⟨d.candidate, d.candidateTruncated, d.candidateComplete⟩

def unitsOf (t : Tag) : UnitContext where
  factor := t.factor.toInt
  unitEpoch := t.epoch.toNat
  generation := t.generation.toNat
  verified := t.verified
  phase := t.phase.toNat
  nextRecordOnly := true

def nameBytes (e : DerpCandidate) : List UInt8 :=
  (List.range e.candidateLen.toNat).map (byteAt e.candidate)

def fullName (e : DerpCandidate) : Name := ⟨some (nameBytes e), e.candidateTruncated, true⟩

def exportedPair (m : Moment) (units : Tag) (r : Record) : List Exported :=
  (withUnits m units r).map fun r' =>
    { raw := rawOf r', units := if r'.type = .unitContext then none else some (unitsOf units) }

def exportedGroup (e : DerpCandidate) (group : List Record) : List Exported :=
  group.map fun r =>
    { raw := rawOf r, name := if r.type = .derpCandidate then some (fullName e) else none }

def exportedOf : Item → List Exported
  | .plain r _ => [{ raw := rawOf r }]
  | .gauge m m' s => exportedPair m s.units (gaugeRecord m' s)
  | .engine m m' s => exportedPair m s.units (engineRecord m' s)
  | .candidate m e => ((candidateGroup m e).map (exportedGroup e)).getD []

end Expected

end Mosaico.Host.SystemLogExport
