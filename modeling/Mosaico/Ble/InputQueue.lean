import Mathlib.Data.List.Pairwise
import Mathlib.Data.List.Sublists

/-! The input queues of `codex_micro_ble.cpp` within one connection generation: one
producer calls `queueInput`, the input task takes from the queues and sends, and each
queue operation, check and send is a step of its own. -/
namespace Mosaico.Ble.InputQueue

abbrev normalInputQueueDepth : Nat := 5
abbrev criticalInputQueueDepth : Nat := 16
abbrev encoderControlReserve : Nat := 3
abbrev criticalAttempts : Nat := 3

inductive InputEventKind where
  | key | joystick
  deriving DecidableEq, Repr

inductive Control where
  | agent1 | agent2 | agent3 | agent4 | agent5 | agent6 | fast | approve | decline | newChat
  | mic | newTask | send | encoderPress | encoderClockwise | encoderCounterClockwise
  deriving DecidableEq, Repr

inductive KeyAction where
  | release | press | rotate
  deriving DecidableEq, Repr

structure InputEvent where
  kind : InputEventKind := .key
  control : Control := .agent1
  action : KeyAction := .release
  agent : Int8 := -1
  repeats : UInt16 := 1
  angle : Float32 := 0
  distance : Float32 := 0
  ordered : Bool := false

/-- An event with its place in the order of acceptance. -/
structure Queued where
  seq : Nat
  event : InputEvent

def joystickNeutral (e : InputEvent) : Bool :=
  e.kind == .joystick && decide (e.distance ≤ 0.001)

def encoderOrdered (e : InputEvent) : Bool :=
  e.kind == .key && (e.action == .rotate || e.control == .encoderPress)

def critical (e : InputEvent) : Bool :=
  e.ordered || joystickNeutral e || (e.kind == .key && !encoderOrdered e)

def mustPreserve (e : InputEvent) : Bool :=
  critical e || (encoderOrdered e && e.action != .rotate)

/-- Where the producer's call of `queueInput` stands. -/
inductive Producer where
  | idle
  /-- about to reset the joystick queue for a neutral event -/
  | resetting (e : InputEvent)
  | enqueuing (e : InputEvent)

/-- Where the loop of the input task stands. -/
inductive Task where
  | sleeping | polling | pollRpc | pollLink | pollJoystick | pollEncoder
  | sendingCritical (q : Queued) (attempt : Nat)
  | sendingJoystick (q : Queued)
  | sendingEncoder (q : Queued) (attempt : Nat)

/-- `accepted` and `sent` list the events in the order that happened to them;
`interrupted` notes that the link failed or was lost or that radio idle was requested. -/
structure Input where
  connected : Bool := true
  ready : Bool := true
  radioIdle : Bool := false
  criticalQueue : List Queued := []
  inputQueue : List Queued := []
  joystick : Option Queued := none
  encoder : Option Queued := none
  producer : Producer := .idle
  task : Task := .sleeping
  accepted : List Queued := []
  sent : List Queued := []
  interrupted : Bool := false

inductive Event where
  | offer (e : InputEvent)
  /-- the producer's next step; `gaveUp` ends a wait for space -/
  | produce (gaveUp : Bool)
  /-- the task's next step; `ok` answers a send, `rpc` tells of a queued request -/
  | task (ok rpc : Bool)
  | requestRadioIdle (value : Bool)
  | linkLost

def Input.current (s : Input) : Bool := s.connected && s.ready && !s.radioIdle

/-- `failMonitorLink`; the other build restarts instead. -/
def Input.fail (s : Input) : Input :=
  { s with ready := false, radioIdle := true, interrupted := true }

def Input.next (s : Input) (e : InputEvent) : Queued := ⟨s.accepted.length, e⟩

def Input.accept (s : Input) (e : InputEvent) : Input :=
  { s with producer := .idle, accepted := s.accepted ++ [s.next e] }

def Input.refuse (s : Input) (e : InputEvent) : Input :=
  let s := { s with producer := .idle }
  if mustPreserve e && s.current then s.fail else s

def offer (s : Input) (e : InputEvent) : Input :=
  match s.producer with
  | .idle =>
    if s.current then
      { s with producer := if joystickNeutral e then .resetting e else .enqueuing e }
    else s
  | _ => s

def enqueueCritical (s : Input) (e : InputEvent) (gaveUp : Bool) : Input :=
  if s.criticalQueue.length < criticalInputQueueDepth then
    { s.accept e with criticalQueue := s.criticalQueue ++ [s.next e] }
  else if gaveUp then s.refuse e else s

def enqueueNormal (s : Input) (e : InputEvent) (gaveUp : Bool) : Input :=
  let room := normalInputQueueDepth - s.inputQueue.length
  if e.action = .rotate ∧ room ≤ encoderControlReserve then s.refuse e
  else if 0 < room then { s.accept e with inputQueue := s.inputQueue ++ [s.next e] }
  else if gaveUp ∨ !mustPreserve e then s.refuse e
  else s

def produce (s : Input) (gaveUp : Bool) : Input :=
  match s.producer with
  | .idle => s
  | .resetting e => { s with joystick := none, producer := .enqueuing e }
  | .enqueuing e =>
    if critical e then enqueueCritical s e gaveUp
    else if e.kind = .joystick then { s.accept e with joystick := some (s.next e) }
    else enqueueNormal s e gaveUp

def poll (s : Input) : Input :=
  if s.connected = false then { s with task := .sleeping, encoder := none }
  else match s.criticalQueue with
    | [] => { s with task := .pollRpc }
    | q :: rest =>
      { s with criticalQueue := rest,
               task := if s.current then .sendingCritical q 0 else .polling }

def pollLink (s : Input) : Input :=
  if s.ready then { s with task := .pollJoystick }
  else { s with task := .sleeping, encoder := if s.connected then s.encoder else none }

def pollJoystick (s : Input) : Input :=
  match s.joystick with
  | none => { s with task := .pollEncoder }
  | some q =>
    { s with joystick := none, task := if s.current then .sendingJoystick q else .polling }

def nextBatch (s : Input) : Option Queued × List Queued :=
  match s.encoder with
  | some q => (some q, s.inputQueue)
  | none => (s.inputQueue.head?, s.inputQueue.tail)

def pollEncoder (s : Input) : Input :=
  let batch := nextBatch s
  let s := { s with inputQueue := batch.2 }
  match batch.1 with
  | none => { s with task := .sleeping }
  | some q =>
    if s.current then { s with encoder := some q, task := .sendingEncoder q 0 }
    else { s with encoder := none, task := .polling }

def sendCritical (s : Input) (q : Queued) (attempt : Nat) (ok : Bool) : Input :=
  if s.current then
    if attempt < criticalAttempts then
      if ok then { s with sent := s.sent ++ [q], task := .polling }
      else { s with task := .sendingCritical q (attempt + 1) }
    else { s.fail with task := .polling }
  else { s with task := .polling }

def sendJoystick (s : Input) (q : Queued) (ok : Bool) : Input :=
  if ok && s.connected && s.ready then { s with sent := s.sent ++ [q], task := .polling }
  else { s with task := .polling }

def remaining (q : Queued) : Option Queued :=
  let repeats := if 0 < q.event.repeats then q.event.repeats - 1 else 0
  if 0 < repeats then some { q with event := { q.event with repeats := repeats } } else none

def finishEncoder (s : Input) (q : Queued) : Input :=
  { s with encoder := remaining q, task := .polling }

def encoderAttempts (e : InputEvent) : Nat := if e.action = .rotate then 1 else criticalAttempts

def sendEncoder (s : Input) (q : Queued) (attempt : Nat) (ok : Bool) : Input :=
  if s.current then
    if attempt < encoderAttempts q.event then
      if ok then finishEncoder { s with sent := s.sent ++ [q] } q
      else { s with task := .sendingEncoder q (attempt + 1) }
    else if q.event.action = .rotate then finishEncoder s q
    else finishEncoder s.fail q
  else finishEncoder s q

def runTask (s : Input) (ok rpc : Bool) : Input :=
  match s.task with
  | .sleeping => { s with task := .polling }
  | .polling => poll s
  | .pollRpc => { s with task := if rpc then .polling else .pollLink }
  | .pollLink => pollLink s
  | .pollJoystick => pollJoystick s
  | .pollEncoder => pollEncoder s
  | .sendingCritical q attempt => sendCritical s q attempt ok
  | .sendingJoystick q => sendJoystick s q ok
  | .sendingEncoder q attempt => sendEncoder s q attempt ok

def step (s : Input) : Event → Input
  | .offer e => offer s e
  | .produce gaveUp => produce s gaveUp
  | .task ok rpc => runTask s ok rpc
  | .requestRadioIdle value =>
    { s with radioIdle := value, interrupted := s.interrupted || value }
  | .linkLost => { s with connected := false, ready := false, interrupted := true }

def run (events : List Event) : Input := events.foldl step {}

end Mosaico.Ble.InputQueue
