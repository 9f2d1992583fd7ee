import Mosaico.Library.WrapClock
import Mathlib.Data.Fintype.Basic

/-! `mosaico_session_model.h` with the calls of `codex_micro_ble.cpp` that mark receipts and the part of
`mosaico_session_monitor.cpp` that owns the locked window. Clock readings are the milliseconds since the
boot cut to 32 bits; a bit mask is the set of its slots. -/
namespace Mosaico.Host.SessionWindow

open WrapClock

abbrev Word := BitVec 32
abbrev Slot := Fin 6
abbrev Mask := Slot → Bool

def Mask.none : Mask := fun _ => false
def Mask.nonzero (m : Mask) : Bool := decide (∃ slot, m slot = true)
def Mask.full (m : Mask) : Bool := decide (∀ slot, m slot = true)

/-- What the window reads of `CodexMicroState`. -/
structure State where
  connected : Bool := false
  protocolReady : Bool := false
  knownMask : Mask := Mask.none
  lastThreadStatusMs : Slot → Word := fun _ => 0
  connectionGeneration : Word := 0
  threadStatusReceiptSequence : Word := 0
  threadStatusCompleteReceiptSequence : Slot → Word := fun _ => 0
  threadStatusCompleteReceiptMs : Slot → Word := fun _ => 0
  lastThreadStatusReceiptMs : Word := 0

def State.clearKnown (s : State) (generation : Word) : State :=
  { s with knownMask := Mask.none, lastThreadStatusMs := fun _ => 0, connectionGeneration := generation,
           threadStatusReceiptSequence := 0, threadStatusCompleteReceiptSequence := fun _ => 0,
           threadStatusCompleteReceiptMs := fun _ => 0, lastThreadStatusReceiptMs := 0 }

/-- `markKnown` for each slot of the receipt. -/
def State.markKnown (s : State) (mask semanticChanged : Mask) (now : Word) : State :=
  { s with
    lastThreadStatusMs := fun slot =>
      if mask slot ∧ (s.knownMask slot = false ∨ semanticChanged slot) then now else s.lastThreadStatusMs slot
    knownMask := fun slot => s.knownMask slot || mask slot }

def State.markReceipt (s : State) (mask completeMask : Mask) (now : Word) : State :=
  if mask.nonzero = false then s
  else
    { s with
      threadStatusReceiptSequence := s.threadStatusReceiptSequence + 1
      lastThreadStatusReceiptMs := now
      threadStatusCompleteReceiptSequence := fun slot =>
        if completeMask slot then s.threadStatusReceiptSequence + 1 else s.threadStatusCompleteReceiptSequence slot
      threadStatusCompleteReceiptMs := fun slot =>
        if completeMask slot then now else s.threadStatusCompleteReceiptMs slot }

/-- `updateThreadLighting` once the frame is admitted. A partial status counts for a known slot only. -/
def State.receive (s : State) (completeMask statusMask semanticChanged : Mask) (now : Word) : State :=
  let receiptMask : Mask := fun slot => completeMask slot || (s.knownMask slot && statusMask slot)
  (s.markKnown receiptMask semanticChanged now).markReceipt receiptMask completeMask now

def durationMs : Word := 8000

structure LockedWindow where
  active : Bool := false
  attempted : Bool := false
  timedOut : Bool := false
  intervalMs : Word := 60000
  startedMs : Word := 0
  endedMs : Word := 0
  count : Word := 0
  revision : Word := 0
  generation : Word := 0
  freshMask : Mask := Mask.none
  error : Int := 0
  baseline : Slot → Word := fun _ => 0

def LockedWindow.start (w : LockedWindow) (now gen : Word) (receipts : Slot → Word) : LockedWindow × Bool :=
  if w.active ∨ (w.attempted ∧ now - w.startedMs < w.intervalMs) then (w, false)
  else
    ({ w with active := true, attempted := true, timedOut := false, error := 0, startedMs := now, endedMs := 0,
              generation := gen, baseline := receipts, freshMask := Mask.none, count := w.count + 1,
              revision := w.revision + 1 }, true)

def LockedWindow.expired (w : LockedWindow) (now : Word) : Bool := w.active && durationMs ≤ now - w.startedMs

def LockedWindow.renewed (w : LockedWindow) (gen : Word) : LockedWindow :=
  if gen ≠ w.generation then { w with generation := gen, baseline := fun _ => 0, freshMask := Mask.none } else w

def LockedWindow.observe (w : LockedWindow) (gen : Word) (known : Mask) (receipts receivedMs : Slot → Word)
    (connected protocolReady : Bool) : LockedWindow :=
  if w.active = false ∨ connected = false then w
  else
    let w := w.renewed gen
    if protocolReady = false then w
    else
      { w with freshMask := fun slot => w.freshMask slot ||
          (known slot && receipts slot != w.baseline slot && receivedMs slot - w.startedMs < durationMs) }

def LockedWindow.finish (w : LockedWindow) (now : Word) (timeout : Bool) (failure : Int) : LockedWindow :=
  if w.active = false then w
  else { w with active := false, endedMs := now, timedOut := timeout, error := failure, revision := w.revision + 1 }

def espFail : Int := -1
def espErrTimeout : Int := 0x107

/-- What `service` passes to the window of a snapshot; the cache it also keeps is left out. -/
def LockedWindow.collect (w : LockedWindow) (s : State) : LockedWindow :=
  w.observe s.connectionGeneration s.knownMask s.threadStatusCompleteReceiptSequence s.threadStatusCompleteReceiptMs
    s.connected (s.protocolReady && s.lastThreadStatusReceiptMs - w.startedMs < durationMs)

def LockedWindow.close (w : LockedWindow) (now : Word) : LockedWindow :=
  if w.freshMask.full then w.finish now false 0
  else if w.expired now then w.finish now true espErrTimeout
  else w

/-- What a service call finds. -/
structure Conditions where
  locked : Bool
  otaBusy : Bool
  hidReady : Bool
  failed : Bool
  failedLater : Bool
  intervalMs : Option Word

/-- Where the main task stands in `service`: with the clock read, with the first snapshot worked through,
with the second. The time of each reading is kept. -/
inductive Point where
  | outside
  | clock (now : Int)
  | polled (now : Int) (c : Conditions)
  | closing (now : Int) (c : Conditions)

/-- A complete status of a slot, with the generation and the time of its receipt. -/
structure Receipt where
  slot : Slot
  generation : Word
  time : Int
  deriving DecidableEq

/-- The state of the link and of the monitor. `received` is the complete statuses so far, `startedAt` the
time of the last start, `checkedAt` the time of the clock reading that last decided on the deadline. -/
structure System where
  ble : State := {}
  window : LockedWindow := {}
  requested : Bool := false
  wasLocked : Bool := false
  point : Point := .outside
  received : List Receipt := []
  startedAt : Int := 0
  checkedAt : Int := 0

/-- The window of `service` before a start: finished where it must be, and seeded at the lock. -/
def System.prepared (s : System) (now : Int) (c : Conditions) : LockedWindow :=
  let window : LockedWindow := { s.window with intervalMs := c.intervalMs.getD s.window.intervalMs }
  let window := if c.locked = false ∨ c.otaBusy ∨ c.failed then
      window.finish (stamp 32 now) false (if c.failed then espFail else 0)
    else window
  if c.locked ∧ s.wasLocked = false ∧ c.failed = false ∧ s.ble.connected ∧ s.ble.protocolReady ∧
    s.ble.knownMask.nonzero
  then { window with freshMask := Mask.none }
  else window

def System.due (s : System) (now : Int) (c : Conditions) : Bool :=
  let window := s.prepared now c
  (s.requested || !window.attempted || !s.wasLocked ||
    (window.attempted && window.intervalMs ≤ stamp 32 now - window.startedMs)) &&
    c.locked && !c.otaBusy && !c.failed && c.hidReady

/-- The part of `service` before the first snapshot is collected. -/
def System.begin (s : System) (now : Int) (c : Conditions) : System :=
  let window := s.prepared now c
  let due := s.due now c
  let (next, started) :=
    if due then window.start (stamp 32 now) s.ble.connectionGeneration s.ble.threadStatusCompleteReceiptSequence
    else (window, false)
  { s with
    window := next
    requested := (s.requested && c.locked && !c.failed && (c.otaBusy || !c.hidReady)) ||
      (due && !started && !window.active)
    wasLocked := c.locked
    startedAt := if started then now else s.startedAt
    checkedAt := if started then now else s.checkedAt }

def System.first (s : System) (now : Int) (c : Conditions) : System :=
  let s := s.begin now c
  if c.locked ∧ s.window.active ∧ c.failed = false then
    { s with window := (s.window.collect s.ble).close (stamp 32 now), checkedAt := now }
  else s

def System.second (s : System) (c : Conditions) : System :=
  if c.locked ∧ s.window.active ∧ c.failedLater = false then { s with window := s.window.collect s.ble } else s

def System.last (s : System) (t now : Int) (c : Conditions) : System :=
  let s : System :=
    if c.locked ∧ s.window.active ∧ c.failedLater = false then
      { s with window := s.window.close (stamp 32 t), checkedAt := t }
    else s
  { s with window := if c.failedLater then s.window.finish (stamp 32 now) false espFail else s.window }

inductive Input where
  | receive (completeMask statusMask semanticChanged : Mask)
  | link (connected : Bool) (generation : Word)
  | ready (protocolReady : Bool)
  | requestLockedRefresh
  | readClock
  | firstSnapshot (c : Conditions)
  | secondSnapshot
  | finishService

/-- One step at the time `t`. The steps of `service` come in their order only; those of the link fall
anywhere between them. -/
def System.step (s : System) (t : Int) : Input → System
  | .receive completeMask statusMask semanticChanged =>
    { s with
      ble := s.ble.receive completeMask statusMask semanticChanged (stamp 32 t)
      received := ((List.finRange 6).filter fun slot => completeMask slot).map
        (fun slot => ⟨slot, s.ble.connectionGeneration, t⟩) ++ s.received }
  | .link connected generation =>
    { s with ble := State.clearKnown { s.ble with connected := connected, protocolReady := false } generation }
  | .ready protocolReady => { s with ble := { s.ble with protocolReady := protocolReady } }
  | .requestLockedRefresh => { s with requested := true }
  | .readClock => match s.point with
    | .outside => { s with point := .clock t }
    | _ => s
  | .firstSnapshot c => match s.point with
    | .clock now => { s.first now c with point := .polled now c }
    | _ => s
  | .secondSnapshot => match s.point with
    | .polled now c => { s.second c with point := .closing now c }
    | _ => s
  | .finishService => match s.point with
    | .closing now c => { s.last t now c with point := .outside }
    | _ => s

/-- A step of the service comes at most `gap` after the clock reading that last decided on the deadline of
the window. -/
def System.punctual (s : System) (gap t : Int) : Input → Bool
  | .firstSnapshot c => match s.point with
    | .clock now => !(s.begin now c).window.active || t ≤ (s.begin now c).checkedAt + gap
    | _ => true
  | .secondSnapshot | .finishService => !s.window.active || t ≤ s.checkedAt + gap
  | _ => true

def System.admits (s : System) (gap t : Int) : List (Int × Input) → Bool
  | [] => true
  | (t', input) :: rest => t ≤ t' && s.punctual gap t' input && (s.step t' input).admits gap t' rest

def System.run (s : System) : List (Int × Input) → System
  | [] => s
  | (t, input) :: rest => (s.step t input).run rest

end Mosaico.Host.SessionWindow
