import Mathlib.Data.List.Basic

/-! `mosaico_ocv_diagnostic_model.h` with the command of its backend in `hal_mosaico.cpp`: one run of the
OCV diagnostic against a backend whose every answer may depend on all that happened before. -/
namespace Mosaico.Gauge.OcvDiagnostic

structure Sample where
  temperatureDeciK : UInt16 := 0
  voltageMv : UInt16 := 0
  batteryStatus : UInt16 := 0
  remainingMah : UInt16 := 0
  fcc : UInt16 := 0
  dc : UInt16 := 0
  soc : UInt16 := 0
  operation : UInt16 := 0
  currentMa : Int16 := 0
  averageMa : Int16 := 0
  deriving DecidableEq, Repr

def eligible (s : Sample) : Bool :=
  4150 ≤ s.voltageMv && s.voltageMv ≤ 4350 && 2832 ≤ s.temperatureDeciK && s.temperatureDeciK ≤ 3181 &&
    -3 ≤ s.currentMa && s.currentMa ≤ 3 && -3 ≤ s.averageMa && s.averageMa ≤ 3 && s.dc == 65 && s.fcc == 65 &&
    s.soc ≤ 100 && s.remainingMah ≤ s.fcc && (s.operation >>> 1) &&& 3 == 3 &&
    s.operation &&& 0x0020 != 0 && s.operation &&& 0x0401 == 0 && s.batteryStatus &&& 0x0008 != 0 &&
    s.batteryStatus &&& 0x2D02 == 0

def durationUs : Int := 120000000
def maxGapUs : Int := 2500000

structure Qualification where
  started : Bool := false
  failed : Bool := false
  firstUs : Int := 0
  lastUs : Int := 0
  minMv : UInt16 := 0
  maxMv : UInt16 := 0
  minTemp : UInt16 := 0
  maxTemp : UInt16 := 0
  minCurrent : Int16 := 0
  maxCurrent : Int16 := 0
  minAverage : Int16 := 0
  maxAverage : Int16 := 0
  deriving DecidableEq, Repr

def Qualification.range (q : Qualification) (s : Sample) (now : Int) : Qualification :=
  if q.started = false then
    { q with started := true, firstUs := now, minMv := s.voltageMv, maxMv := s.voltageMv,
             minTemp := s.temperatureDeciK, maxTemp := s.temperatureDeciK, minCurrent := s.currentMa,
             maxCurrent := s.currentMa, minAverage := s.averageMa, maxAverage := s.averageMa }
  else
    { q with minMv := if s.voltageMv < q.minMv then s.voltageMv else q.minMv
             maxMv := if q.maxMv < s.voltageMv then s.voltageMv else q.maxMv
             minTemp := if s.temperatureDeciK < q.minTemp then s.temperatureDeciK else q.minTemp
             maxTemp := if q.maxTemp < s.temperatureDeciK then s.temperatureDeciK else q.maxTemp
             minCurrent := if s.currentMa < q.minCurrent then s.currentMa else q.minCurrent
             maxCurrent := if q.maxCurrent < s.currentMa then s.currentMa else q.maxCurrent
             minAverage := if s.averageMa < q.minAverage then s.averageMa else q.minAverage
             maxAverage := if q.maxAverage < s.averageMa then s.averageMa else q.maxAverage }

/-- The subtractions are those of `int`. -/
def Qualification.wide (q : Qualification) : Bool :=
  (q.maxMv.toNat : Int) - q.minMv.toNat > 10 || (q.maxTemp.toNat : Int) - q.minTemp.toNat > 5 ||
    q.maxCurrent.toInt - q.minCurrent.toInt > 2 || q.maxAverage.toInt - q.minAverage.toInt > 2

def Qualification.sample (q : Qualification) (s : Sample) (now : Int) : Qualification × Bool :=
  if q.failed then (q, false)
  else if now < 0 ∨ eligible s = false ∨ (q.started = true ∧ (now < q.lastUs ∨ maxGapUs < now - q.lastUs)) then
    ({ q with failed := true }, false)
  else
    let q : Qualification := { q.range s now with lastUs := now }
    if q.wide then ({ q with failed := true }, false) else (q, true)

def Qualification.ready (q : Qualification) (now : Int) : Bool :=
  q.started && !q.failed && q.lastUs ≤ now && now - q.lastUs ≤ maxGapUs && durationUs ≤ now - q.firstUs

inductive SendResult where
  | guardRefused | ackFailed | acked
  deriving DecidableEq, Repr

structure SendReport where
  result : SendResult := .guardRefused
  sample : Option Sample := none

inductive Result where
  | rejected | alreadyAttempted | guardRefused | sentAckFailed | sentUnconfirmed | postDisturbed | confirmed
  deriving DecidableEq, Repr

structure Report where
  result : Result := .rejected
  attempted : Bool := false
  sent : Bool := false
  ack : Bool := false
  edge : Bool := false
  conditions : Bool := false
  beforeValid : Bool := false
  afterValid : Bool := false
  before : Sample := {}
  after : Sample := {}
  range : Qualification := {}

/-- A call of the backend with its answer; a packet on the wire is an event of its own. -/
inductive Event where
  | wasAttempted (answer : Bool)
  | identity (answer : Bool)
  | snapshot (sample : Option Sample)
  | nowUs (now : Int)
  | waitMs (ms : UInt32)
  | latchAttempt (answer : Bool)
  | sendOcv (q : Qualification)
  | runtimeGate (answer : Bool)
  | transmit (ack : Bool)
  deriving DecidableEq, Repr

/-- The answers, each as a function of the calls so far, the newest first. -/
structure Backend where
  wasAttempted : List Event → Bool
  identity : List Event → Bool
  snapshot : List Event → Option Sample
  nowUs : List Event → Int
  latchAttempt : List Event → Bool
  runtimeGate : List Event → Bool
  transmit : List Event → Bool

def Backend.reading (b : Backend) (trace : List Event) : Option Sample × Int × List Event :=
  let sample := b.snapshot trace
  let now := b.nowUs (.snapshot sample :: trace)
  (sample, now, .nowUs now :: .snapshot sample :: trace)

structure Coordinator where
  r : Report := {}
  q : Qualification := {}
  trace : List Event := []

/-- How a part of `run` is left: with the loop's budget spent, by `finish`, or for the next part. -/
inductive Exit where
  | spent (c : Coordinator)
  | finished (c : Coordinator)
  | on (c : Coordinator)

def Coordinator.finish (c : Coordinator) (value : Result) : Exit :=
  .finished { c with r := { c.r with result := value, range := c.q } }

def Coordinator.called (c : Coordinator) (e : Event) : Coordinator := { c with trace := e :: c.trace }

def waitFor (left : Int) : UInt32 :=
  if 1000000 < left then 1000 else UInt32.ofInt ((left + 999).tdiv 1000)

/-- One reading into `r.before` and the qualification, `false` when the run is rejected. -/
def Coordinator.observe (b : Backend) (c : Coordinator) : Coordinator × Int × Bool :=
  match b.reading c.trace with
  | (none, now, trace) => ({ c with trace := trace }, now, false)
  | (some s, now, trace) =>
    let (q, held) := c.q.sample s now
    ({ r := { c.r with before := s, beforeValid := true }, q := q, trace := trace }, now, held)

def qualify (b : Backend) : Nat → Coordinator → Exit
  | 0, c => .spent c
  | fuel + 1, c =>
    match c.observe b with
    | (c, _, false) => c.finish .rejected
    | (c, now, true) =>
      if c.q.ready now then .on c
      else qualify b fuel (c.called (.waitMs (waitFor (durationUs - (now - c.q.firstUs)))))

def reconfirm (b : Backend) (c : Coordinator) : Exit :=
  let again := b.identity c.trace
  let c := c.called (.identity again)
  if again = false then c.finish .rejected
  else match c.observe b with
    | (c, _, false) => c.finish .rejected
    | (c, now, true) => if c.q.ready now then .on c else c.finish .rejected

/-- The command of the backend: a sample of its own under the lock that protects the wire, which it
adds to the caller's qualification. -/
def sendOcv (b : Backend) (c : Coordinator) : Coordinator × SendReport :=
  let c := c.called (.sendOcv c.q)
  match b.reading c.trace with
  | (none, _, trace) => ({ c with trace := trace }, {})
  | (some s, now, trace) =>
    let (q, held) := c.q.sample s now
    let c : Coordinator := { c with q := q, trace := trace }
    if held = false ∨ q.ready now = false then (c, { sample := some s })
    else
      let gate := b.runtimeGate c.trace
      let c := c.called (.runtimeGate gate)
      if gate = false then (c, { sample := some s })
      else
        let ack := b.transmit c.trace
        (c.called (.transmit ack), { result := if ack then .acked else .ackFailed, sample := some s })

/-- What `run` makes of the report of the command. -/
def Coordinator.commanded (c : Coordinator) (command : SendReport) : Exit :=
  let r := match command.sample with
    | some s => { c.r with before := s, beforeValid := true }
    | none => c.r
  let c : Coordinator := { c with
    r := { r with sent := command.result != .guardRefused, ack := command.result == .acked } }
  if c.r.sent = false then c.finish .guardRefused else .on c

def attempt (b : Backend) (c : Coordinator) : Exit :=
  let c : Coordinator := { c with r := { c.r with attempted := true } }
  let latched := b.latchAttempt c.trace
  let c := c.called (.latchAttempt latched)
  if latched = false then c.finish .alreadyAttempted
  else
    let (c, command) := sendOcv b c
    c.commanded command

/-- The completion bit of `BatteryStatus`. -/
def Sample.comp (s : Sample) : Bool := s.batteryStatus &&& 0x4000 != 0

/-- The part of a sample after the command that concerns the completion bit: stale completion and a
clear bit before the command establish nothing. -/
def Report.post (r : Report) (postClear : Bool) (post : Sample) : Report × Bool :=
  let r : Report := { r with after := post, afterValid := true }
  if post.comp = false then (r, true)
  else if postClear then ({ r with edge := true }, postClear)
  else (r, postClear)

/-- The second loop. -/
def settle (b : Backend) (postStart : Int) : Nat → Bool → Coordinator → Exit
  | 0, _, c => .spent c
  | fuel + 1, postClear, c =>
    match b.reading c.trace with
    | (none, _, trace) => Coordinator.finish { c with trace := trace } .postDisturbed
    | (some post, now, trace) =>
      let (r, postClear) := c.r.post postClear post
      let (q, held) := c.q.sample post now
      let c : Coordinator := { r := r, q := q, trace := trace }
      if held = false then c.finish .postDisturbed
      else if 5000000 ≤ now - postStart then .on c
      else settle b postStart fuel postClear (c.called (.waitMs (waitFor (5000000 - (now - postStart)))))

def conclude (c : Coordinator) : Exit :=
  let c : Coordinator := { c with r := { c.r with conditions := true } }
  c.finish (if c.r.ack = false then .sentAckFailed
    else if c.r.edge ∧ c.r.after.batteryStatus &&& 0x0020 ≠ 0 then .confirmed else .sentUnconfirmed)

def Exit.andThen : Exit → (Coordinator → Exit) → Exit
  | .on c, next => next c
  | exit, _ => exit

def begin (b : Backend) : Exit :=
  let c : Coordinator := {}
  let attempted := b.wasAttempted c.trace
  let c := c.called (.wasAttempted attempted)
  if attempted then Coordinator.finish { c with r := { c.r with attempted := true } } .alreadyAttempted
  else
    let same := b.identity c.trace
    let c := c.called (.identity same)
    if same = false then c.finish .rejected else .on c

/-- `m` and `n` bound the iterations of the two loops. -/
def run (b : Backend) (m n : Nat) : Exit :=
  (begin b).andThen fun c => (qualify b m c).andThen fun c => (reconfirm b c).andThen fun c =>
    (attempt b c).andThen fun c =>
      let postStart := b.nowUs c.trace
      (settle b postStart n false (c.called (.nowUs postStart))).andThen conclude

end Mosaico.Gauge.OcvDiagnostic
