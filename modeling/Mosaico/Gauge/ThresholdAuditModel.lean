import Mosaico.Library.Interaction
import Mosaico.Library.ByteFields

/-! `mosaico_threshold_audit_model.h`: the journal of the threshold audit with its codec, and the
coordinator that reads the profile under full access. Each callback of the backend is a call. -/
namespace Mosaico.Gauge.ThresholdAudit

open Interaction ByteFields

def fieldCount : UInt8 := 59
def legacyFieldCount : UInt8 := 26

inductive State where
  | pending | completed | failed
  deriving DecidableEq, Repr

def State.code : State → UInt8
  | .pending => 1 | .completed => 2 | .failed => 3

def State.ofCode (v : UInt8) : Option State :=
  if v = 1 then some .pending else if v = 2 then some .completed else if v = 3 then some .failed else none

inductive Flag where
  | unsealIntent | fullIntent | sealIntent | unsealVerified | fullVerified | readVerified | closeVerified
  deriving DecidableEq, Repr

def Flag.bit : Flag → UInt16
  | .unsealIntent => 1 | .fullIntent => 2 | .sealIntent => 4 | .unsealVerified => 8 | .fullVerified => 16
  | .readVerified => 32 | .closeVerified => 64

structure Journal where
  schema : UInt8 := 2
  state : State := .pending
  flags : UInt16 := 0
  generation : UInt32 := 0
  mac : Bytes 6 := zero 6
  readCount : UInt8 := 0
  snapshotCrc : UInt32 := 0
  deriving DecidableEq

abbrev Record := Bytes 48

/-- `THA1`. -/
def magic : Nat := 0x31414854

def journalFieldCount (j : Journal) : UInt8 := if j.schema = 1 then legacyFieldCount else fieldCount

def shape (j : Journal) : Bool :=
  (j.schema == 1 || j.schema == 2) && j.flags &&& ~~~127 == 0 && j.generation != 0 &&
    j.readCount ≤ journalFieldCount j &&
    (j.state != .completed || (j.flags == 127 && j.readCount == journalFieldCount j))

def fill (j : Journal) (r : Record) : Record :=
  let r := put r 0 magic 4
  let r := put r 4 j.schema.toNat 1
  let r := put r 5 j.state.code.toNat 1
  let r := put r 6 j.flags.toNat 2
  let r := put r 8 j.generation.toNat 4
  let r := blit r 12 j.mac 6
  let r := put r 18 0x0220 2
  let r := put r 20 1 1
  let r := put r 21 j.readCount.toNat 1
  put r 24 j.snapshotCrc.toNat 4

def encode (j : Journal) : Option Record :=
  if shape j = false then none else some (closeCrc (fill j (zero 48)) 44)

def decode (r : Record) (mac : Bytes 6) : Option Journal :=
  if get r 0 4 ≠ magic ∨ (byteAt r 4 ≠ 1 ∧ byteAt r 4 ≠ 2) ∨ get r 18 2 ≠ 0x0220 ∨ byteAt r 20 ≠ 1 ∨
      zeros r 22 24 = false ∨ crcMatches r 44 = false ∨ zeros r 28 44 = false then none
  else match State.ofCode (byteAt r 5) with
    | none => none
    | some state =>
      let v : Journal := {
        schema := byteAt r 4
        state := state
        flags := UInt16.ofNat (get r 6 2)
        generation := UInt32.ofNat (get r 8 4)
        mac := slice r 12 6 6
        readCount := byteAt r 21
        snapshotCrc := UInt32.ofNat (get r 24 4) }
      if mac ≠ v.mac ∨ shape v = false then none else some v

/-- A load that is not invalid is a decoded record or the absence of one. -/
inductive Load where
  | absent | present (j : Journal) | invalid
  deriving DecidableEq

inductive Call where
  | load | wasAttempted | preflight | claimAttempt | saveReadback (j : Journal) | unseal | full | readThresholds
  | snapshotCrc | close
  deriving DecidableEq

/-- A preflight that refuses leaves no use for the identity it was to fill in. -/
abbrev Answer : Call → Type
  | .load => Load
  | .preflight => Option (Bytes 6)
  | .snapshotCrc => UInt32
  | _ => Bool

abbrev Backend (α : Type) := Prog Call Answer α

structure Result where
  success : Bool := false
  attempted : Bool := false
  readable : Bool := false
  closed : Bool := false
  journal : Journal := {}

def Journal.flag (j : Journal) (flags : List Flag) : Journal :=
  { j with flags := flags.foldl (fun flags flag => flags ||| flag.bit) j.flags }

def nextGeneration : Load → Option UInt32
  | .invalid => none
  | .absent => some 1
  | .present old => if old.state ≠ .completed ∨ old.generation = 0xffffffff then none else some (old.generation + 1)

/-- The attempt under full access, with the journal it leaves and whether all went well. -/
def access (j : Journal) : Backend (Journal × Bool × Bool) := do
  let ok ← Prog.perform Call.unseal
  if ok = false then return (j, false, false)
  let j := j.flag [.unsealVerified, .fullIntent]
  let saved ← Prog.perform (Call.saveReadback j)
  if saved = false then return (j, false, false)
  let ok ← Prog.perform Call.full
  if ok = false then return (j, false, false)
  let j := j.flag [.fullVerified]
  let saved ← Prog.perform (Call.saveReadback j)
  if saved = false then return (j, false, false)
  let ok ← Prog.perform Call.readThresholds
  if ok = false then return (j, false, false)
  let crc ← Prog.perform Call.snapshotCrc
  return ({ j.flag [.readVerified] with readCount := fieldCount, snapshotCrc := crc }, true, true)

def cleanup (j : Journal) (ok readable : Bool) : Backend Result := do
  let j := j.flag [.sealIntent]
  let closingIntent ← Prog.perform (Call.saveReadback j)
  let closed ← Prog.perform Call.close
  let j := if closed then j.flag [.closeVerified] else j
  let j := { j with state := if ok ∧ closingIntent ∧ closed then .completed else .failed }
  let recorded ← Prog.perform (Call.saveReadback j)
  return { success := j.state == .completed && recorded, attempted := true, readable := readable,
           closed := closed, journal := j }

def attempt (mac : Bytes 6) (generation : UInt32) : Backend Result := do
  let j : Journal := { mac := mac, generation := generation, flags := Flag.unsealIntent.bit }
  let saved ← Prog.perform (Call.saveReadback j)
  if saved = false then return { attempted := true, journal := j }
  let (j, ok, readable) ← access j
  cleanup j ok readable

def run : Backend Result := do
  let loaded ← Prog.perform Call.load
  let attempted ← Prog.perform Call.wasAttempted
  if attempted then return {}
  match nextGeneration loaded with
  | none => return {}
  | some generation =>
    match ← Prog.perform Call.preflight with
    | none => return {}
    | some mac =>
      let claimed ← Prog.perform Call.claimAttempt
      if claimed = false then return {}
      attempt mac generation

end Mosaico.Gauge.ThresholdAudit
