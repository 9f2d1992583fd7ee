import Mosaico.Host.SystemLogModel
import Mosaico.Library.PackedWords

/-! The records that `mosaico_system_log.cpp` puts in its queue together: a gauge reading behind
the context of its units, and a DERP candidate in front of the chunks of its name. -/
namespace Mosaico.Host.SystemLog

open ByteFields PackedWords

/-- What `record` takes from its surroundings; `clock` is the epoch where it is valid. -/
structure Moment where
  nowMs : UInt64
  clock : Option UInt64

/-- The largest `sampled` stands for none. -/
def record (m : Moment) (type : Kind) (sampled : UInt64 := UInt64.ofNat (2 ^ 64 - 1)) : Record where
  type := type
  flags := if m.clock.isSome then 1 else 0
  monotonicMs := if sampled = UInt64.ofNat (2 ^ 64 - 1) then m.nowMs else sampled
  epoch := m.clock.getD 0

structure GaugeSnapshot where
  sampledUs : UInt64
  validMask : UInt32
  rawSoc : UInt16
  remainingMah : UInt16
  fullMah : UInt16
  designMah : UInt16
  voltageMv : UInt16
  currentMa : Int16
  averageCurrentMa : Int16
  rawCoulombMah : UInt16
  cycleCount : UInt16
  operationStatus : UInt16
  batteryStatus : UInt16
  gaugingStatus : UInt16
  rawEcho16 : UInt16
  phase : UInt8
  outcome : UInt8
  mode : UInt8
  units : Tag

structure EngineSnapshot where
  sampledUs : UInt64
  validMask : UInt16
  phase : UInt8
  outcome : UInt8
  rawCedv : Bytes 23
  rawSmooth : Bytes 17
  units : Tag

abbrev explicitPhase : UInt8 := 3

def Record.withoutEpoch (r : Record) : Record := { r with epoch := 0, flags := r.flags &&& ~~~ 1 }

def halves (low high : UInt16) : UInt32 := low.toUInt32 ||| high.toUInt32 <<< 16

def gaugeRecord (m : Moment) (s : GaugeSnapshot) : Record :=
  let r := record m (if s.phase = explicitPhase then .gauge else .gaugeBoot) (s.sampledUs / 1000)
  let r := { r with
    args := #v[s.validMask,
      s.phase.toUInt32 ||| s.outcome.toUInt32 <<< 8 ||| s.mode.toUInt32 <<< 16,
      s.rawSoc.toUInt32, s.remainingMah.toUInt32, s.fullMah.toUInt32, s.designMah.toUInt32,
      s.voltageMv.toUInt32, halves s.currentMa.toUInt16 s.averageCurrentMa.toUInt16,
      halves s.rawCoulombMah s.cycleCount, halves s.operationStatus s.batteryStatus,
      halves s.gaugingStatus s.rawEcho16] }
  if s.phase = explicitPhase then r else r.withoutEpoch

def engineByte (s : EngineSnapshot) (i : Nat) : UInt8 :=
  if i < 23 then byteAt s.rawCedv i else byteAt s.rawSmooth (i - 23)

def engineRecord (m : Moment) (s : EngineSnapshot) : Record :=
  let r := record m .gaugeEngine (s.sampledUs / 1000)
  let first := s.validMask.toUInt32 ||| s.phase.toUInt32 <<< 16 ||| s.outcome.toUInt32 <<< 24
  let r := { r with args := ⟨(first :: packAll (engineByte s) 0 10).toArray, rfl⟩ }
  if s.phase = explicitPhase then r else r.withoutEpoch

/-- What `enqueueWithUnits` pushes: the context has the time of the record it goes before. -/
def withUnits (m : Moment) (units : Tag) (r : Record) : List Record :=
  let context := record m .unitContext r.monotonicMs
  [{ context with args := (unitContext units context.monotonicMs m.clock).args }, r]

/-- An entry of the producer's ring. -/
structure DerpCandidate where
  version : UInt32
  seq : UInt32
  attemptId : UInt32
  monotonicMs : UInt64
  elapsedMs : UInt32
  result : Int32
  error : Int32
  region : UInt16
  port : UInt16
  nodeIndex : UInt16
  family : UInt8
  source : UInt8
  stage : UInt8
  errnoValid : Bool
  address : Bytes 16
  candidateLen : UInt16
  candidateTruncated : Bool
  candidate : Bytes 128

def DerpCandidate.flags (e : DerpCandidate) : UInt32 :=
  (if e.errnoValid then 1 else 0) ||| (if e.candidateTruncated then 2 else 0)

def DerpCandidate.head (e : DerpCandidate) : Record where
  type := .derpCandidate
  monotonicMs := e.monotonicMs
  flags := 0x100
  args := ⟨([e.seq, e.attemptId, halves e.region e.port,
    e.nodeIndex.toUInt32 ||| e.family.toUInt32 <<< 16 ||| e.source.toUInt32 <<< 20 |||
      e.stage.toUInt32 <<< 24 ||| e.flags <<< 28,
    e.result.toUInt32, e.error.toUInt32, e.elapsedMs] ++ packAll (byteAt e.address) 0 4).toArray, rfl⟩

def DerpCandidate.chunks (e : DerpCandidate) : Nat :=
  if e.candidateLen ≠ 0 then (e.candidateLen.toNat + 31) / 32 else 1

def DerpCandidate.nameByte (e : DerpCandidate) (i : Nat) : UInt8 :=
  if i < e.candidateLen.toNat then byteAt e.candidate i else 0

def DerpCandidate.chunk (e : DerpCandidate) (c : Nat) : Record where
  type := .derpCandidateName
  flags := 0x100
  monotonicMs := e.monotonicMs
  args := ⟨([e.seq, UInt32.ofNat c,
    e.candidateLen.toUInt32 ||| (if e.candidateTruncated then 0x10000 else 0)] ++
      packAll e.nameByte (c * 32) 8).toArray, rfl⟩

def derpCandidateRecords (e : DerpCandidate) : Option (List Record) :=
  if e.version ≠ 1 ∨ e.candidateLen > 127 ∨ e.stage < 1 ∨ e.stage > 4 ∨ e.source < 1 ∨
      e.source > 3 ∨ (e.family ≠ 0 ∧ e.family ≠ 4 ∧ e.family ≠ 6) then none
  else some (e.head :: (List.range e.chunks).map e.chunk)

/-- What `collectDerpCandidates` enqueues of an entry. -/
def candidateGroup (m : Moment) (e : DerpCandidate) : Option (List Record) :=
  let current := record m .derpCandidate e.monotonicMs
  (derpCandidateRecords e).map fun group =>
    group.map fun r => { r with epoch := current.epoch, flags := r.flags ||| current.flags }

/-- The kinds that `enqueue` is called with. -/
def Kind.plain : Kind → Bool
  | .gauge | .gaugeBoot | .gaugeEngine | .unitContext | .derpCandidate | .derpCandidateName => false
  | _ => true

/-- What one call puts in the queue. -/
inductive Item where
  | plain (r : Record) (kind : r.type.plain = true)
  | gauge (at_context at_reading : Moment) (s : GaugeSnapshot)
  | engine (at_context at_reading : Moment) (s : EngineSnapshot)
  | candidate (m : Moment) (e : DerpCandidate)

def Item.records : Item → List Record
  | .plain r _ => [r]
  | .gauge m m' s => withUnits m s.units (gaugeRecord m' s)
  | .engine m m' s => withUnits m s.units (engineRecord m' s)
  | .candidate m e => (candidateGroup m e).getD []

end Mosaico.Host.SystemLog
