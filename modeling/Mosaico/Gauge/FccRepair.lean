import Mosaico.Library.Interaction
import Mosaico.Library.ByteFields

/-! `mosaico_fcc_limit_repair_model.h`: the coordinator that repairs the full-charge limit
through a backend it does not trust. Each callback of the backend is a call; what the
coordinator remembers is passed along as a `Repair`. A condition of the source with side
effects is a `Cond`, and `both` is its `&&`. -/
namespace Mosaico.Gauge.FccRepair

open Interaction

inductive Mode where
  | runtime | coldFactory
  deriving DecidableEq, Repr

abbrev limitBit : UInt16 := 0x0100

inductive State where
  | pending | failed | verified
  deriving DecidableEq, Repr

inductive Load where
  | absent | present | invalid
  deriving DecidableEq, Repr

inductive Result where
  | rejected | failed | verified
  deriving DecidableEq, Repr

inductive Intent where
  | unseal | full | enter | config | fcc | restoreConfig | restoreFcc | exit | seal
  | targetVerified | dc | restoreDc
  deriving DecidableEq, Repr

def Intent.bit : Intent → UInt16
  | .unseal => 1 | .full => 2 | .enter => 4 | .config => 8 | .fcc => 16
  | .restoreConfig => 32 | .restoreFcc => 64 | .exit => 128 | .seal => 256
  | .targetVerified => 512 | .dc => 1024 | .restoreDc => 2048

structure Identity where
  mac : ByteFields.Bytes 6
  device : UInt16
  historicalNominalProof : Bool
  historicalAccessProof : Bool
  authorizedColdProfile : Bool
  coldOriginalConfig : UInt16
  deriving DecidableEq

structure Quiet where
  operation : UInt16
  soc : UInt16
  mv : UInt16
  standardDc : UInt16
  standardFcc : UInt16
  temperatureDeciK : Int16
  current : Int16
  average : Int16
  deriving DecidableEq, Repr

structure Security where
  sec : UInt8
  cfg : Bool
  cal : Bool
  initialized : Bool
  deriving DecidableEq, Repr

structure Dm where
  config : UInt16 := 0
  dc : UInt16 := 0
  fcc : UInt16 := 0
  deriving DecidableEq, Repr

structure Journal where
  schema : UInt16 := 1
  state : State := .pending
  mac : ByteFields.Bytes 6
  intents : UInt16 := 0
  backupValid : Bool := false
  fullAccessVerified : Bool := false
  before : Dm := {}
  target : Dm := {}
  deriving DecidableEq

def safeOperation (q : Quiet) : Bool := q.operation &&& 0x0401 == 0 && q.operation &&& 0x0020 != 0

def quiet (q : Quiet) : Bool :=
  decide (1 ≤ q.soc) && decide (q.soc ≤ 100) && decide (4150 ≤ q.mv) && decide (q.mv ≤ 4350) &&
    decide (2832 ≤ q.temperatureDeciK) && decide (q.temperatureDeciK ≤ 3181) &&
    decide (-3 ≤ q.current) && decide (q.current ≤ 3) && decide (-3 ≤ q.average) &&
    decide (q.average ≤ 3) && safeOperation q && q.standardDc == 65 && q.standardFcc == 100

def coldQuiet (q : Quiet) : Bool :=
  decide (3500 ≤ q.mv) && decide (q.mv ≤ 4350) && decide (2832 ≤ q.temperatureDeciK) &&
    decide (q.temperatureDeciK ≤ 3181) && decide (-130 ≤ q.current) && decide (q.current ≤ 130) &&
    decide (-130 ≤ q.average) && decide (q.average ≤ 130) && safeOperation q &&
    q.standardDc == 3000 && q.standardFcc == 3000

def normal (s : Security) : Bool := s.initialized && !s.cal && !s.cfg

/-- The callbacks that answer yes or no. -/
inductive Command where
  | journalSaveReadback (mode : Mode) (j : Journal)
  | qualifyRuntimeQuiet
  | sendUnsealPair
  | sendFullPair
  | enterCfg
  | waitCfg
  | writeConfigOnly (value : UInt16)
  | writeDcOnly (value : UInt16)
  | writeFccOnly (value : UInt16)
  | verifyTarget (target : Dm) (closed : Bool)
  | exitCfg
  | reseal
  deriving DecidableEq

/-- The callbacks of the backend. The journal key is the mode's. -/
inductive Call where
  | journalLoad (mode : Mode)
  | identity
  | quietSnapshot
  | observedSecurity
  | dmSnapshot
  | command (c : Command)
  deriving DecidableEq

/-- A read that fails answers `none`: what it was to fill is then not used. -/
abbrev Answer : Call → Type
  | .journalLoad _ => Load × State
  | .identity => Option Identity
  | .quietSnapshot => Option Quiet
  | .observedSecurity => Option Security
  | .dmSnapshot => Option Dm
  | .command _ => Bool

abbrev Backend (α : Type) := Prog Call Answer α

def journalLoad (mode : Mode) : Backend (Load × State) := Prog.perform (Call.journalLoad mode)

def identity : Backend (Option Identity) := Prog.perform Call.identity

def quietSnapshot : Backend (Option Quiet) := Prog.perform Call.quietSnapshot

def observedSecurity : Backend (Option Security) := Prog.perform Call.observedSecurity

def dmSnapshot : Backend (Option Dm) := Prog.perform Call.dmSnapshot

def answered (c : Command) : Backend Bool := Prog.perform (Call.command c)

/-- The fields of the coordinator. -/
structure Repair where
  j : Journal
  accessed : Bool := false
  exited : Bool := false

abbrev Cond := Backend (Bool × Repair)

def both (first : Cond) (next : Repair → Cond) : Cond := do
  let (ok, r) ← first
  if ok then next r else return (false, r)

def command (c : Command) (r : Repair) : Cond := do
  let ok ← answered c
  return (ok, r)

def save (mode : Mode) (r : Repair) : Cond := command (.journalSaveReadback mode r.j) r

def has (intents : UInt16) (flag : Intent) : Bool := intents &&& flag.bit != 0

def Repair.claim (r : Repair) (flag : Intent) : Repair :=
  { r with j := { r.j with intents := r.j.intents ||| flag.bit } }

def intent (mode : Mode) (flag : Intent) (r : Repair) : Cond :=
  if has r.j.intents flag then return (false, r) else save mode (r.claim flag)

def observed (p : Security → Bool) (r : Repair) : Cond := do
  let s ← observedSecurity
  return (s.any p, r)

def fullCfgStatus (s : Security) : Bool := s.sec == 1 && s.cfg && !s.cal && s.initialized

def fullCfg (r : Repair) : Cond := observed fullCfgStatus r

def known (j : Journal) (value : Dm) : Bool :=
  (value.config == j.before.config || value.config == j.target.config) &&
    (value.dc == j.before.dc || value.dc == j.target.dc) &&
    (value.fcc == j.before.fcc || value.fcc == j.target.fcc)

def knownDm (p : Dm → Bool) (r : Repair) (next : Dm → Cond) : Cond :=
  both (fullCfg r) fun r => do
    match ← dmSnapshot with
    | none => return (false, r)
    | some now => if known r.j now && p now then next now else return (false, r)

/-- An announced write to the data memory, in full access and configuration update. -/
def announced (mode : Mode) (flag : Intent) (c : Command) (r : Repair) : Cond :=
  both (intent mode flag r) fun r => both (fullCfg r) (command c)

def restoreConfig (mode : Mode) (r : Repair) : Cond :=
  knownDm (fun _ => true) r fun now =>
    if now.config = r.j.before.config then return (true, r)
    else announced mode .restoreConfig (.writeConfigOnly r.j.before.config) r

def restoreDc (mode : Mode) (r : Repair) : Cond :=
  knownDm (fun now => now.config == r.j.before.config) r fun now =>
    if now.dc = r.j.before.dc then return (true, r)
    else if mode ≠ .coldFactory then return (false, r)
    else announced mode .restoreDc (.writeDcOnly r.j.before.dc) r

def restoreFcc (mode : Mode) (r : Repair) : Cond :=
  knownDm (fun now => now.config == r.j.before.config && now.dc == r.j.before.dc) r fun now =>
    if now.fcc = r.j.before.fcc then return (true, r)
    else announced mode .restoreFcc (.writeFccOnly r.j.before.fcc) r

def rollback (mode : Mode) (r : Repair) : Cond :=
  if r.j.backupValid = false then return (false, r)
  else both (restoreConfig mode r) fun r => both (restoreDc mode r) (restoreFcc mode)

def leave (mode : Mode) (r : Repair) : Cond :=
  if r.exited then return (true, r)
  else do
    let (announced, r) ← intent mode .exit { r with exited := true }
    let (left, r) ← command .exitCfg r
    return (announced && left, r)

def cleanup (mode : Mode) (r : Repair) : Cond :=
  if r.accessed = false then return (false, r)
  else do
    let (left, r) ← leave mode r
    let (announced, r) ← intent mode .seal r
    let (closed, r) ← command .reseal r
    let (normal, r) ← observed (fun s => s.sec == 3 && normal s) r
    return (normal && left && announced && closed, r)

def Repair.finish (r : Repair) (state : State) : Repair := { r with j := { r.j with state := state } }

/-- What `fail` does about the access it may have opened. -/
def abandon (mode : Mode) (r : Repair) : Cond :=
  if r.accessed then do
    let (_, r) ← rollback mode r
    cleanup mode r
  else return (false, r)

def fail (mode : Mode) (r : Repair) : Backend Result := do
  let (_, r) ← abandon mode r
  let _ ← save mode (r.finish .failed)
  return .failed

def quietGate (mode : Mode) (q : Quiet) : Bool :=
  match mode with
  | .runtime => quiet q
  | .coldFactory => coldQuiet q

def mayStart (mode : Mode) (loaded : Load × State) : Bool :=
  loaded.1 == .absent ||
    (mode == .coldFactory && loaded.1 == .present && loaded.2 == .verified)

def trusted (mode : Mode) (id : Identity) : Bool :=
  (mode != .coldFactory || id.authorizedColdProfile) && id.device == 0x0220 &&
    id.historicalNominalProof && id.historicalAccessProof

/-- Everything that is looked at before the first intent; `none` is a rejection. -/
def qualify (mode : Mode) : Backend (Option Identity) := do
  if !mayStart mode (← journalLoad mode) then return none
  let some id ← identity | return none
  if !trusted mode id then return none
  let some q ← quietSnapshot | return none
  if !(quietGate mode q && (q.operation >>> 1) &&& 3 == 3) then return none
  let some s ← observedSecurity | return none
  if !(s.sec == 3 && normal s) then return none
  if mode = .runtime then
    if !(← answered .qualifyRuntimeQuiet) then return none
  return some id

def unsealed (r : Repair) : Cond :=
  both (command .sendUnsealPair r) (observed fun s => s.sec == 2 && normal s)

def stillQuiet (mode : Mode) (r : Repair) : Cond := do
  let q ← quietSnapshot
  return (q.any (quietGate mode), r)

def opened (mode : Mode) (r : Repair) : Cond :=
  both (stillQuiet mode r) fun r => both (intent mode .full r) fun r =>
    both (command .sendFullPair r) (observed fun s => s.sec == 1 && normal s)

def original (mode : Mode) (id : Identity) (d : Dm) : Bool :=
  decide (d.config ≤ 0x1fff) && d.config &&& limitBit == 0 &&
    match mode with
    | .runtime => d.dc == 65 && (d.fcc == 65 || d.fcc == 100)
    | .coldFactory =>
      d.dc == 3000 && d.fcc == 3000 && d.config == id.coldOriginalConfig &&& ~~~limitBit

def targetOf (d : Dm) : Dm := { config := d.config ||| limitBit, dc := 65, fcc := 65 }

def Repair.backUp (r : Repair) (d : Dm) : Repair :=
  { r with j := { r.j with before := d, target := targetOf d, backupValid := true } }

def backup (mode : Mode) (id : Identity) (r : Repair) : Cond := do
  let r := { r with j := { r.j with fullAccessVerified := true } }
  let some first ← dmSnapshot | return (false, r)
  let some second ← dmSnapshot | return (false, r)
  if first = second ∧ original mode id first = true then return (true, r.backUp first)
  else return (false, r)

def entered (mode : Mode) (r : Repair) : Cond :=
  both (intent mode .enter r) fun r => both (command .enterCfg r) fun r =>
    both (command .waitCfg r) fullCfg

def applyConfig (mode : Mode) (r : Repair) : Cond :=
  announced mode .config (.writeConfigOnly r.j.target.config) r

def applyDc (mode : Mode) (r : Repair) : Cond :=
  if mode = .coldFactory then announced mode .dc (.writeDcOnly 65) r else return (true, r)

def applyFcc (mode : Mode) (r : Repair) : Cond :=
  if r.j.before.fcc = 65 then return (true, r) else announced mode .fcc (.writeFccOnly 65) r

def confirmed (mode : Mode) (r : Repair) : Cond :=
  both (command (.verifyTarget r.j.target false) r) (intent mode .targetVerified)

def repair (mode : Mode) (id : Identity) (r : Repair) : Cond :=
  both (unsealed r) fun r => both (opened mode r) fun r => both (backup mode id r) fun r =>
    both (entered mode r) fun r => both (applyConfig mode r) fun r => both (applyDc mode r) fun r =>
      both (applyFcc mode r) (confirmed mode)

def close (mode : Mode) (r : Repair) : Backend Result := do
  let (verified, r) ←
    both (cleanup mode r) fun r => command (.verifyTarget r.j.target true) r
  let (committed, _) ← save mode (r.finish (if verified then .verified else .failed))
  return if verified && committed then .verified else .failed

def run (mode : Mode) : Backend Result := do
  let some id ← qualify mode | return .rejected
  let (ok, r) ← intent mode .unseal { j := { mac := id.mac } }
  if ok = false then return .failed
  let (ok, r) ← repair mode id { r with accessed := true }
  if ok then close mode r else fail mode r

end Mosaico.Gauge.FccRepair
