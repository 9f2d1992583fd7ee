import Mosaico.Nand.ColdStore
import Mosaico.Nand.LogModel

/-! `mosaico_nand_store.cpp`: every operation is one transaction that acquires
the bus, opens the device, runs one model operation, reopens the device to check
what it wrote, and gives everything back. Only the format operation is left out. -/
namespace Mosaico.Nand.Store

open ByteFields PageDevice
open StoreModel (Page Payload pageSize payloadSize)

/-- `esp_err_t`; `device` is whatever code the driver or a peripheral returned. -/
inductive EspErr where
  | ok | invalidArg | invalidState | notSupported | noMem | notFound | invalidCrc | device
  deriving DecidableEq, Repr

inductive Stage where
  | admission | allocation | bus | pins | device | identity | init | geometry | erase | record
  | reopen | complete
  deriving DecidableEq, Repr

inductive ColdArea where
  | journal | proof
  deriving DecidableEq, Repr

inductive Request where
  | load
  | save (input : Payload)
  | logLoad
  | logAppend (page : Page)
  | logRead (sequence : Nat)
  | coldLoad (area : ColdArea) (policy : ColdStore.Policy) (inheritLease : Bool)
  | coldSave (area : ColdArea) (input : ColdStore.Record) (policy : ColdStore.Policy)
      (inheritLease : Bool)

/-- The calls that reach no page: the lease, the locks, memory, SPI and GPIO. -/
inductive Host where
  | currentTaskOwnsStorageLease
  | tryStorageLease
  | compatVersion
  | tryLock
  | dmaReady
  | allocate
  | busInitialize
  | getIoConfig (pin : Nat)
  | sleepSelDis (pin : Nat)
  | releaseControl (pin : Nat)
  | addDevice
  | identity
  | initDevice
  | getPageSize
  | getBlockNum
  | getPageCount
  | removeDevice
  | busFree
  | resetPin (pin : Nat)
  | sleepSelRestore (pin : Nat) (selected : Bool)
  deriving DecidableEq, Repr

abbrev HostAnswer : Host → Type
  | .currentTaskOwnsStorageLease | .tryStorageLease | .tryLock | .dmaReady | .allocate => Bool
  | .compatVersion => Nat
  | .getIoConfig _ => EspErr × Bool
  | .getPageSize | .getBlockNum | .getPageCount => EspErr × Nat
  | _ => EspErr

abbrev Session (α : Type) := PageProg Page Host HostAnswer α

def ask (h : Host) : Session (HostAnswer h) := host h

/-- `Result` of the header. -/
structure Report where
  error : EspErr := .ok
  cleanupError : EspErr := .ok
  stage : Stage := .admission
  record : StoreModel.Result := {}
  logicalPages : Nat := 0
  formatted : Bool := false
  logCode : LogModel.Code := .empty
  coldCode : ColdStore.Code := .empty

/-- What the workspaces hold for the caller; `coldRecord` is set once `publish` is. -/
structure Workspace where
  snapshot : Payload := zero payloadSize
  logPage : Page := zero pageSize
  logState : LogModel.State := {}
  coldRecord : Option ColdStore.Record := none

/-- The outputs a finished transaction assigned. -/
structure Published where
  payload : Option Payload := none
  logPage : Option Page := none
  logState : Option LogModel.State := none
  coldRecord : Option ColdStore.Record := none

/-- What `finish` has to give back. -/
structure Owned where
  nand : Bool := false
  device : Bool := false
  bus : Bool := false
  touched : List Nat := []
  sleepBefore : List Nat := []
  sleepChanged : List Nat := []

/-- The end of a record phase; `nand` is the handle finish still has to close. -/
structure Recorded where
  report : Report
  work : Workspace := {}
  nand : Bool := true

structure Reply where
  report : Report
  published : Published := {}
  quarantined : Bool

def Report.reach (result : Report) (stage : Stage) : Report := { result with stage := stage }

def Report.fail (result : Report) (error : EspErr) : Report := { result with error := error }

@[simp] theorem Report.fail_error (result : Report) (error : EspErr) :
    (result.fail error).error = error := rfl

@[simp] theorem Report.reach_error (result : Report) (stage : Stage) :
    (result.reach stage).error = result.error := rfl

@[simp] theorem Report.fail_record (result : Report) (error : EspErr) :
    (result.fail error).record = result.record := rfl

@[simp] theorem Report.reach_record (result : Report) (stage : Stage) :
    (result.reach stage).record = result.record := rfl

def recordError : StoreModel.Code → EspErr
  | .ok => .ok
  | .notFormatted | .empty => .notFound
  | .io => .device
  | .generationExhausted => .invalidState
  | .corrupt | .verify => .invalidCrc

def logError : LogModel.Code → EspErr
  | .ok | .empty => .ok
  | .notFormatted => .notFound
  | .io => .device
  | .overflow => .invalidState
  | .corrupt | .verify => .invalidCrc

def coldError : ColdStore.Code → EspErr
  | .ready | .empty => .ok
  | .notFormatted => .notFound
  | .io => .device
  | .rejected => .invalidState
  | .corrupt | .ambiguous | .verify => .invalidCrc

def coldPageBase : ColdArea → Nat
  | .journal => 8
  | .proof => 12

/-- `ColdIO`: the canonical pair is mapped to the area's; anything else is denied. -/
def coldIo (base : Nat) : ColdStore.Driver Host HostAnswer where
  read page :=
    if page < 2 then readPage page
    else if ColdStore.pageBase ≤ page ∧ page < ColdStore.pageBase + 2 then
      readPage (base + page - ColdStore.pageBase)
    else return none
  write page data :=
    if ColdStore.pageBase ≤ page ∧ page < ColdStore.pageBase + 2 then
      writePage (base + page - ColdStore.pageBase) data
    else return false
  sync := sync

/-- The checksums of whole pages, read in order; `none` when a read fails. -/
def digest : List Nat → Session (Option (List Nat))
  | [] => return some []
  | page :: rest => do
    let some data ← readPage page | return none
    let some more ← digest rest | return none
    return some (crc data pageSize :: more)

def checkDigest : List Nat → List Nat → Session EspErr
  | page :: rest, expected :: more => do
    let some data ← readPage page | return .device
    if crc data pageSize ≠ expected then return .invalidCrc
    checkDigest rest more
  | _, _ => return .ok

def tracePages : List Nat := List.range 8

def protectedPages (base : Nat) : List Nat := (List.range 18).filter fun i => i < base ∨ base + 2 ≤ i

/-- Close and resume the device; the flag tells whether a handle is open. -/
def reopen (result : Report) : Session (Report × Bool) := do
  let result := result.reach .reopen
  if (← deinit) = false then return (result.fail .device, false)
  let error ← ask .initDevice
  if error ≠ .ok then return (result.fail error, false)
  return (result, true)

def checkRecord (result : Report) (record : StoreModel.Result) : Report :=
  { result with
    record := record
    formatted := decide (record.markerCopies > 0)
    error := recordError record.code }

@[simp] theorem checkRecord_record (result : Report) (record : StoreModel.Result) :
    (checkRecord result record).record = record := rfl

@[simp] theorem checkRecord_error (result : Report) (record : StoreModel.Result) :
    (checkRecord result record).error = recordError record.code := rfl

def recordLoad (result : Report) : Session Recorded := do
  let (record, found) ← StoreModel.load
  let result := checkRecord (result.reach .record) record
  if result.error ≠ .ok then return { report := result }
  return { report := result.reach .complete
           work := { snapshot := found.getD (zero payloadSize) } }

/-- What was saved is loaded again after a fresh resume. -/
def verifySave (input : Payload) (result : Report) : Session Recorded := do
  let (result, opened) ← reopen result
  if opened = false then return { report := result, nand := false }
  let expectedGeneration := result.record.generation
  let (record, found) ← StoreModel.load
  let result := { result with record := record, error := recordError record.code }
  if result.error ≠ .ok then return { report := result }
  if record.generation ≠ expectedGeneration ∨ found ≠ some input then
    return { report := result.fail .invalidCrc }
  return { report := { result with formatted := true, stage := .complete }
           work := { snapshot := input } }

def recordSave (input : Payload) (result : Report) : Session Recorded := do
  let record ← StoreModel.save input
  let result := checkRecord (result.reach .record) record
  if result.error ≠ .ok then return { report := result }
  verifySave input result

def checkLog (result : Report) (code : LogModel.Code) : Report :=
  { result with logCode := code, error := logError code }

/-- What the three log operations share; an `error` ends the record phase. -/
def openLog (result : Report) : Session (Except Report (Report × List Nat × LogModel.State)) := do
  if result.logicalPages < LogModel.requiredPages then
    return .error (result.fail .notSupported)
  let result := result.reach .record
  let some traceCrc ← digest tracePages | return .error (result.fail .device)
  let (code, state) ← LogModel.load
  let result := checkLog result code
  if result.error ≠ .ok then return .error result
  return .ok ({ result with formatted := true }, traceCrc, state.getD {})

def recordLogLoad (result : Report) : Session Recorded := do
  match ← openLog result with
  | .error result => return { report := result }
  | .ok (result, _, state) =>
    return { report := result.reach .complete, work := { logState := state } }

def recordLogRead (sequence : Nat) (result : Report) : Session Recorded := do
  match ← openLog result with
  | .error result => return { report := result }
  | .ok (result, _, state) =>
    if sequence = 0 ∨ sequence < state.oldestSeq ∨ sequence > state.latestSeq then
      return { report := result.fail .notFound }
    let (code, page) ← LogModel.read sequence
    let result := checkLog result code
    if result.error ≠ .ok then return { report := result }
    return { report := result.reach .complete
             work := { logState := state, logPage := page.getD (zero pageSize) } }

/-- The appended page and the trace pages are checked after a fresh resume. -/
def verifyAppend (page : Page) (expected : LogModel.State) (traceCrc : List Nat)
    (result : Report) : Session Recorded := do
  let (result, opened) ← reopen result
  if opened = false then return { report := result, nand := false }
  let (code, loaded) ← LogModel.load
  let result := checkLog result code
  if result.error ≠ .ok then return { report := result }
  let state := loaded.getD {}
  if expected.latestSeq ≠ state.latestSeq ∨ expected.oldestSeq ≠ state.oldestSeq then
    return { report := result.fail .invalidCrc }
  let (code, verify) ← LogModel.read expected.latestSeq
  let result := checkLog result code
  if result.error ≠ .ok then return { report := result }
  if verify ≠ some page then return { report := result.fail .invalidCrc }
  let error ← checkDigest tracePages traceCrc
  if error ≠ .ok then return { report := result.fail error }
  return { report := result.reach .complete
           work := { logPage := page, logState := { state with adopted := expected.adopted } } }

def recordLogAppend (input : Page) (result : Report) : Session Recorded := do
  match ← openLog result with
  | .error result => return { report := result }
  | .ok (result, traceCrc, state) =>
    let (code, page, state) ← LogModel.append input state
    let result := checkLog result code
    if result.error ≠ .ok then return { report := result }
    verifyAppend page state traceCrc result

def checkCold (result : Report) (code : ColdStore.Code) : Report :=
  { result with coldCode := code, error := coldError code }

@[simp] theorem checkCold_coldCode (result : Report) (code : ColdStore.Code) :
    (checkCold result code).coldCode = code := rfl

@[simp] theorem checkCold_error (result : Report) (code : ColdStore.Code) :
    (checkCold result code).error = coldError code := rfl

def recordColdLoad (base : Nat) (policy : ColdStore.Policy) (result : Report) :
    Session Recorded := do
  if result.logicalPages < base + 2 then
    return { report := result.fail .notSupported }
  let result := result.reach .record
  let loaded ← ColdStore.load (coldIo base) policy
  let result := checkCold result loaded.code
  if result.error ≠ .ok then return { report := result }
  return { report := { result with formatted := true, stage := .complete }
           work := { coldRecord := loaded.selected.map Prod.snd } }

/-- A deinit that fails here is an unknown teardown: the layer is quarantined. -/
def verifyCold (base : Nat) (policy : ColdStore.Policy) (input : ColdStore.Record)
    (protectedCrc : List Nat) (result : Report) : Session Recorded := do
  let result := result.reach .reopen
  if (← deinit) = false then
    return { report := { result with error := .device, cleanupError := .device }, nand := false }
  let error ← ask .initDevice
  if error ≠ .ok then return { report := result.fail error, nand := false }
  let loaded ← ColdStore.load (coldIo base) policy
  let result := checkCold result loaded.code
  if result.error ≠ .ok then return { report := result }
  if loaded.code ≠ .ready ∨ loaded.selected.map Prod.snd ≠ some input then
    return { report := { result with coldCode := .verify, error := .invalidCrc } }
  match ← checkDigest (protectedPages base) protectedCrc with
  | .ok => return { report := { result with formatted := true, stage := .complete } }
  | .invalidCrc => return { report := { result with coldCode := .verify, error := .invalidCrc } }
  | error => return { report := result.fail error }

def recordColdSave (base : Nat) (input : ColdStore.Record) (policy : ColdStore.Policy)
    (result : Report) : Session Recorded := do
  if result.logicalPages < base + 2 then
    return { report := result.fail .notSupported }
  let result := result.reach .record
  if result.logicalPages < 18 then
    return { report := result.fail .notSupported }
  let some protectedCrc ← digest (protectedPages base)
    | return { report := result.fail .device }
  let code ← ColdStore.save (coldIo base) policy input true
  let result := checkCold result code
  if result.error ≠ .ok then return { report := result }
  verifyCold base policy input protectedCrc result

def Request.record : Request → Report → Session Recorded
  | .load => recordLoad
  | .save input => recordSave input
  | .logLoad => recordLogLoad
  | .logAppend page => recordLogAppend page
  | .logRead sequence => recordLogRead sequence
  | .coldLoad area policy _ => recordColdLoad (coldPageBase area) policy
  | .coldSave area input policy _ => recordColdSave (coldPageBase area) input policy

def Request.publish (work : Workspace) : Request → Published
  | .load => { payload := some work.snapshot }
  | .save _ => {}
  | .logLoad => { logState := some work.logState }
  | .logAppend _ => { logPage := some work.logPage, logState := some work.logState }
  | .logRead _ => { logPage := some work.logPage }
  | .coldLoad _ _ _ => { coldRecord := work.coldRecord }
  | .coldSave _ _ _ _ => {}

def Request.inheritLease : Request → Bool
  | .coldLoad _ _ inheritLease => inheritLease
  | .coldSave _ _ _ inheritLease => inheritLease
  | _ => false

def pins : List Nat := [20, 21, 22, 23, 24, 25]

def snapshotSelectors (owned : Owned) : List Nat → Session (EspErr × Owned)
  | [] => return (.ok, owned)
  | pin :: rest => do
    let io ← ask (.getIoConfig pin)
    if io.1 ≠ .ok then return (io.1, owned)
    snapshotSelectors
      (if io.2 then { owned with sleepBefore := owned.sleepBefore ++ [pin] } else owned) rest

def disableSelectors (owned : Owned) : List Nat → Session (EspErr × Owned)
  | [] => return (.ok, owned)
  | pin :: rest => do
    let owned := { owned with sleepChanged := owned.sleepChanged ++ [pin] }
    let error ← ask (.sleepSelDis pin)
    if error ≠ .ok then return (error, owned)
    let io ← ask (.getIoConfig pin)
    if io.1 ≠ .ok then return (io.1, owned)
    if io.2 then return (.invalidState, owned)
    disableSelectors owned rest

def touch (owned : Owned) (pin : Nat) : Owned := { owned with touched := owned.touched ++ [pin] }

/-- Where the acquisition stands, and what it owns so far. -/
structure Acquired where
  error : EspErr := .ok
  stage : Stage
  logicalPages : Nat := 0
  owned : Owned := {}

def Acquired.report (a : Acquired) : Report :=
  { error := a.error, stage := a.stage, logicalPages := a.logicalPages }

/-- The SPI device, its identity and the flash translation layer. -/
def openDevice (owned : Owned) : Session Acquired := do
  let owned := touch owned 23
  let error ← ask .addDevice
  if error ≠ .ok then return { error := error, stage := .device, owned := owned }
  let owned := { owned with device := true }
  let error ← ask .identity
  if error ≠ .ok then return { error := error, stage := .identity, owned := owned }
  let error ← ask .initDevice
  if error ≠ .ok then return { error := error, stage := .init, owned := owned }
  let owned := { owned with nand := true }
  let page ← ask .getPageSize
  if page.1 ≠ .ok then return { error := page.1, stage := .geometry, owned := owned }
  let blocks ← ask .getBlockNum
  if blocks.1 ≠ .ok then return { error := blocks.1, stage := .geometry, owned := owned }
  let pages ← ask .getPageCount
  let found : Acquired :=
    { error := pages.1, stage := .geometry, logicalPages := pages.2, owned := owned }
  if pages.1 ≠ .ok then return found
  if page.2 ≠ pageSize ∨ blocks.2 ≠ 1024 ∨ pages.2 < StoreModel.requiredPages then
    return { found with error := .notSupported }
  return found

/-- From the bus to the geometry check. -/
def acquire : Session Acquired := do
  let error ← ask .busInitialize
  if error ≠ .ok then return { error := error, stage := .bus }
  let owned : Owned := { bus := true, touched := [20, 21, 22] }
  let (error, owned) ← snapshotSelectors owned pins
  if error ≠ .ok then return { error := error, stage := .pins, owned := owned }
  let (error, owned) ← disableSelectors owned pins
  if error ≠ .ok then return { error := error, stage := .pins, owned := owned }
  let owned := touch owned 24
  let error ← ask (.releaseControl 24)
  if error ≠ .ok then return { error := error, stage := .pins, owned := owned }
  let owned := touch owned 25
  let error ← ask (.releaseControl 25)
  if error ≠ .ok then return { error := error, stage := .pins, owned := owned }
  openDevice owned

/-- `keep`: the first cleanup error stays. -/
def keep (cleanup error : EspErr) : EspErr :=
  if cleanup = .ok ∧ error ≠ .ok then error else cleanup

def resetPins (touched : List Nat) (cleanup : EspErr) : List Nat → Session EspErr
  | [] => return cleanup
  | pin :: rest => do
    if touched.contains pin then
      let error ← ask (.resetPin pin)
      resetPins touched (keep cleanup error) rest
    else resetPins touched cleanup rest

def restoreSelectors (owned : Owned) (cleanup : EspErr) : List Nat → Session EspErr
  | [] => return cleanup
  | pin :: rest => do
    if owned.sleepChanged.contains pin then
      let selected := owned.sleepBefore.contains pin
      let error ← ask (.sleepSelRestore pin selected)
      let cleanup := keep cleanup error
      let io ← ask (.getIoConfig pin)
      let cleanup := keep cleanup io.1
      let cleanup :=
        if io.1 = .ok ∧ io.2 ≠ selected then keep cleanup .invalidState else cleanup
      restoreSelectors owned cleanup rest
    else restoreSelectors owned cleanup rest

/-- Closing the handle is the only part of the cleanup that reaches the device. -/
def closeNand (nand : Bool) (cleanup : EspErr) : Session EspErr := do
  if nand then
    let closed ← deinit
    return keep cleanup (if closed then .ok else .device)
  else return cleanup

def removeDevice (owned : Owned) (cleanup : EspErr) : Session EspErr := do
  if owned.device ∧ cleanup = .ok then
    let error ← ask .removeDevice
    return keep cleanup error
  else return cleanup

def releaseBus (owned : Owned) (cleanup : EspErr) : Session EspErr := do
  let cleanup ← removeDevice owned cleanup
  if owned.bus ∧ cleanup = .ok then
    let error ← ask .busFree
    if error ≠ .ok then return keep cleanup error
    let cleanup ← resetPins owned.touched cleanup pins
    restoreSelectors owned cleanup pins
  else return cleanup

def finish (request : Request) (recorded : Recorded) (owned : Owned) : Session Reply := do
  let cleanup ← closeNand recorded.nand recorded.report.cleanupError
  let cleanup ← releaseBus owned cleanup
  let result := { recorded.report with cleanupError := cleanup }
  return { report := result
           published := if result.error = .ok ∧ cleanup = .ok then request.publish recorded.work
             else {}
           quarantined := decide (cleanup ≠ .ok) }

def storageLease (inheritLease : Bool) : Session Bool :=
  if inheritLease then ask .currentTaskOwnsStorageLease else ask .tryStorageLease

/-- The checks before anything is acquired: why and where the call is refused. -/
def enter (request : Request) (authorized quarantined : Bool) : Session (Option (EspErr × Stage)) := do
  if authorized = false then return some (.invalidState, .admission)
  let held ← storageLease request.inheritLease
  if held = false then return some (.invalidState, .admission)
  let version ← ask .compatVersion
  if version ≠ 0x01040104 then return some (.notSupported, .admission)
  let locked ← ask .tryLock
  if locked = false ∨ quarantined then return some (.invalidState, .admission)
  let ready ← ask .dmaReady
  if ready = false then return some (.noMem, .allocation)
  let allocated ← ask .allocate
  if allocated = false then return some (.noMem, .allocation)
  return none

/-- `quarantined` is `cleanupFailed`, the latch of this boot. -/
def transaction (request : Request) (authorized quarantined : Bool) : Session Reply := do
  match ← enter request authorized quarantined with
  | some (error, stage) =>
    return { report := { error := error, stage := stage }, quarantined := quarantined }
  | none =>
    let acquired ← acquire
    if acquired.error ≠ .ok then
      finish request { report := acquired.report, nand := acquired.owned.nand } acquired.owned
    else
      let recorded ← request.record acquired.report
      finish request recorded acquired.owned

end Mosaico.Nand.Store
