import Mosaico.Gauge.HalModel
import Mosaico.Library.DurableCell
import Mosaico.Library.Interaction

/-! The gauge primitives of `hal_mosaico.cpp`: reads, control commands and the stored records. Each
transfer on the bus and each call to the storage is a call of the program. -/
namespace Mosaico.Gauge.Hal

open ByteFields Interaction DurableCell

/-- What other subsystems answer. -/
inductive Gate where
  | storageLease | otaBusy | normalFence | present | selftest | keyWindowAllowed
  | bootFactoryReloadScope | factoryMac
  deriving DecidableEq

/-- Routines whose start a run keeps. -/
inductive Routine where
  | exitConfig | bootDiagnostic | nearBootApply
  deriving DecidableEq

inductive Namespace where
  | gaugeacc | gaugecal
  deriving DecidableEq

/-- `access_v1`, `tx_v1` and `normal_mah`. -/
inductive Key where
  | access | nominal | normalTarget
  deriving DecidableEq

abbrev Key.namespace : Key → Namespace
  | .access => .gaugeacc
  | .nominal | .normalTarget => .gaugecal

abbrev Blob : Key → Type
  | .access => AccessJournal
  | .nominal => Journal
  | .normalTarget => UInt16

inductive Call where
  | gate (g : Gate)
  | enters (f : Routine)
  | read (reg : UInt8)
  | transmit (packet : List UInt8)
  | nvsOpen (ns : Namespace) (write : Bool)
  | nvsGet (k : Key)
  | nvsSet (k : Key) (v : Blob k)
  | nvsCommit (k : Key)

/-- A read of two bytes; a failed one has none. -/
abbrev Answer : Call → Type
  | .gate _ => Bool
  | .enters _ => Unit
  | .read _ => Option (UInt8 × UInt8)
  | .transmit _ => Bool
  | .nvsOpen _ _ => Status
  | .nvsGet k => Except Status (Blob k)
  | .nvsSet _ _ => Bool
  | .nvsCommit _ => Bool

abbrev Bus (α : Type) := Prog Call Answer α

def gate (g : Gate) : Bus Bool := Prog.perform (Call.gate g)

def enters (f : Routine) : Bus Unit := Prog.perform (Call.enters f)

def gaugeRead (reg : UInt8) : Bus (Option (UInt8 × UInt8)) := Prog.perform (Call.read reg)

def transmit (packet : List UInt8) : Bus Bool := Prog.perform (Call.transmit packet)

section Words

def word (bytes : UInt8 × UInt8) : UInt16 := bytes.1.toUInt16 ||| (bytes.2.toUInt16 <<< (8 : UInt16))

def gaugeWord (reg : UInt8) : Bus (Option UInt16) := do
  return (← gaugeRead reg).map word

/-- The fields of the telemetry that a transaction looks at. -/
structure Telemetry where
  designMah : UInt16 := 0
  fullMah : UInt16 := 0
  remainingMah : UInt16 := 0
  operationStatus : UInt16 := 0
  valid : Bool := false
  capacityValid : Bool := false

def sampleBattery : Bus Telemetry := do
  if !(← gate .present) then return {}
  let soc ← gaugeWord 0x2c
  let voltage ← gaugeWord 0x08
  let current ← gaugeWord 0x0c
  let average ← gaugeWord 0x14
  let remaining ← gaugeWord 0x10
  let full ← gaugeWord 0x12
  let design ← gaugeWord 0x3c
  let operation ← gaugeWord 0x3a
  let battery ← gaugeWord 0x0a
  let health ← gaugeWord 0x2e
  let cycles ← gaugeWord 0x2a
  let _ ← gaugeWord 0x06
  let _ ← gaugeWord 0x22
  let core := soc.isSome && voltage.isSome && current.isSome && average.isSome
  let capacities := remaining.isSome && full.isSome && design.isSome
  let status := operation.isSome && battery.isSome && health.isSome && cycles.isSome
  let mv := voltage.getD 0
  return {
    designMah := design.getD 0
    fullMah := full.getD 0
    remainingMah := remaining.getD 0
    operationStatus := operation.getD 0
    valid := core && status && decide (soc.getD 0 ≤ 100) && decide (2000 ≤ mv) && decide (mv ≤ 5000)
    capacityValid := capacities && decide (0 < design.getD 0) && decide (0 < full.getD 0) &&
      decide (remaining.getD 0 ≤ full.getD 0) }

inductive GaugeCommand where
  | identity | enterConfig | exitReinit
  deriving DecidableEq

def GaugeCommand.value : GaugeCommand → UInt16
  | .identity => 0x0001 | .enterConfig => 0x0090 | .exitReinit => 0x0091

def low (value : UInt16) : UInt8 := value.toUInt8

def high (value : UInt16) : UInt8 := (value >>> 8).toUInt8

def gaugeControl (command : GaugeCommand) : Bus Bool := do
  if command ≠ .identity then
    if !(← gate .keyWindowAllowed) then return false
  transmit [0, low command.value, high command.value]

/-- Two reads of the device number, `n` of them left. -/
def identityReads : Nat → Bus Bool
  | 0 => return true
  | n + 1 => do
    let identity ← gaugeWord 0x40
    if identity = some deviceType then identityReads n else return false

def gaugeIdentity : Bus Bool := do
  if !(← gaugeControl .identity) then return false
  identityReads 2

structure GaugePair where
  design : UInt16 := 0
  fcc : UInt16 := 0
  deriving DecidableEq

/-- CFGUPDATE entered or left, `n` reads left. -/
def waitConfig (enter : Bool) : Nat → Bus Bool
  | 0 => return false
  | n + 1 => do
    match ← gaugeWord 0x3a with
    | none => waitConfig enter n
    | some operation =>
      if operation &&& 1 ≠ 0 then return false
      else if enter then
        if security operation ≠ 1 then return false
        else if operation &&& 0x0400 ≠ 0 then return true
        else waitConfig enter n
      else if operation &&& 0x0400 ≠ 0 ∧ security operation ≠ 1 then return false
      else if configExitAccepted operation then return true
      else waitConfig enter n

def gaugeWaitConfig (enter : Bool) : Bus Bool := waitConfig enter 10

def exitSent (officialCleanup : Bool) : Bus Bool :=
  if officialCleanup then transmit [0, 0x91, 0] else gaugeControl .exitReinit

def gaugeExitConfig (officialCleanup : Bool := false) : Bus Bool := do
  enters .exitConfig
  let some operation ← gaugeWord 0x3a | return false
  if operation &&& 1 ≠ 0 then return false
  else if operation &&& 0x0400 = 0 then
    if configExitAccepted operation then return true else gaugeWaitConfig false
  else if security operation ≠ 1 then return false
  else
    let sent ← exitSent officialCleanup
    let exited ← gaugeWaitConfig false
    return sent && exited

end Words

section Records

def load (k : Key) (valid : Blob k → Bool) : Bus (Except Status (Blob k)) := do
  match ← Prog.perform (Call.nvsOpen k.namespace false) with
  | .ok =>
    match ← Prog.perform (Call.nvsGet k) with
    | .ok v => return if valid v then .ok v else .error .failed
    | .error e => return .error e
  | e => return .error e

def store (k : Key) (same : Blob k → Blob k → Bool) (valid : Blob k → Bool) (v : Blob k) :
    Bus Bool := do
  if !valid v then return false
  if (← Prog.perform (Call.nvsOpen k.namespace true)) ≠ .ok then return false
  if !(← Prog.perform (Call.nvsSet k v)) then return false
  if !(← Prog.perform (Call.nvsCommit k)) then return false
  match ← load k valid with
  | .ok readback => return same v readback
  | .error _ => return false

variable (mac : Bytes 6)

def gaugeLoadAccess : Bus (Except Status AccessJournal) :=
  load .access fun j => validAccessJournal j mac

def gaugeStoreAccess (journal : AccessJournal) : Bus Bool :=
  store .access (fun a b => decide (a = b)) (fun j => validAccessJournal j mac) journal.seal

def gaugeLoadJournal : Bus (Except Status Journal) := load .nominal fun j => validJournal j mac

def gaugeStoreJournal (journal : Journal) : Bus Bool :=
  store .nominal (fun a b => decide (a = b)) (fun j => validJournal j mac) journal.seal

def validNormalTarget (target : UInt16) : Bool := target == 0 || target == nominalMah

def gaugeStoreNormalTarget (target : UInt16) : Bus Bool :=
  store .normalTarget (fun a b => decide (a = b)) validNormalTarget target

end Records

end Mosaico.Gauge.Hal
