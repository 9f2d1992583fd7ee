import Mosaico.Ble.HidOutput

/-! The input side of `codex_micro_ble.cpp`: `sendJson` hands a message to the HID stack
report by report, while the connection callback and the monitor change the link under it.
Every load, store and call of the stack is a step of its own. -/
namespace Mosaico.Ble.HidTransmit

open HidOutput (reportSize payloadSize)

inductive LinkState where
  | disconnected | awaiting | ready | recovering
  deriving DecidableEq, Repr

structure Link where
  connected : Bool := false
  generation : UInt32 := 0
  linkState : LinkState := .disconnected
  deriving DecidableEq, Repr

/-- The stores to the link that callbacks are made of. -/
inductive LinkOp where
  | setConnected (value : Bool)
  | bump
  | setState (value : LinkState)
  deriving DecidableEq, Repr

def LinkOp.apply (link : Link) : LinkOp → Link
  | .setConnected value => { link with connected := value }
  | .bump => { link with generation := link.generation + 1 }
  | .setState value => { link with linkState := value }

/-- The admission gate closes before a new generation is published, and opens after. -/
def onConnected (value : Bool) : List LinkOp :=
  if value then [.bump, .setState .awaiting, .setConnected true]
  else [.setConnected false, .bump, .setState .disconnected]

def failMonitorLink : List LinkOp := [.setState .recovering, .bump]

structure Message where
  json : List UInt8
  /-- `none` is the `UINT32_MAX` that asks for no check -/
  expectedGeneration : Option UInt32 := none
  allowAwaiting : Bool := false
  deriving DecidableEq, Repr

def framedLength (json : List UInt8) : Nat := json.length + 1

/-- The report for the part of the message at `offset`. -/
def reportAt (json : List UInt8) (offset : Nat) : List UInt8 :=
  let chunk := min payloadSize (framedLength json - offset)
  let jsonChunk := min chunk (json.length - min offset json.length)
  let payload := (json.drop offset).take jsonChunk ++ if jsonChunk < chunk then [10] else []
  (2 :: UInt8.ofNat chunk :: payload) ++ List.replicate (reportSize - 2 - payload.length) 0

def linkAllowsSend (state : LinkState) (allowAwaiting : Bool) : Bool :=
  state == .ready || (allowAwaiting && state == .awaiting)

/-- Where one call of `sendJson` stands. -/
inductive Call where
  | idle
  /-- past the check before the mutex -/
  | entered (m : Message)
  /-- holding the mutex, before the link state is loaded -/
  | locked (m : Message)
  /-- the link state is loaded -/
  | judged (m : Message) (allows : Bool)
  /-- found connected; the generation is still to be compared -/
  | linked (m : Message) (expected : UInt32) (allows : Bool)
  /-- in the report loop, with reports left; accepted under this generation -/
  | sending (accepted : UInt32) (json : List UInt8) (offset : Nat)
  | giving
  deriving DecidableEq, Repr

/-- A report handed to the transmit call, and the generation it was handed over in. -/
structure Handed where
  task : Nat
  accepted : UInt32
  generation : UInt32
  report : List UInt8
  deriving DecidableEq, Repr

structure Radio where
  link : Link := {}
  /-- what is left of the running connection callback -/
  callback : List LinkOp := []
  /-- what is left of `failMonitorLink` -/
  failing : List LinkOp := []
  linkFailed : Bool := false
  txMutex : Option Nat := none
  calls : Nat → Call := fun _ => .idle
  log : List Handed := []

inductive Event where
  | sendJson (task : Nat) (m : Message)
  /-- the next step of the task's call; `ok` is the stack's answer to a transmit -/
  | advance (task : Nat) (ok : Bool)
  | connection (value : Bool)
  | callback
  | monitorFails
  | failing
  | protocolReady
  | recover

def Radio.setCall (r : Radio) (task : Nat) (c : Call) : Radio :=
  { r with calls := Function.update r.calls task c }

def afterReport (accepted : UInt32) (json : List UInt8) (offset : Nat) (ok : Bool) : Call :=
  let next := offset + min payloadSize (framedLength json - offset)
  if ok && decide (next < framedLength json) then .sending accepted json next else .giving

def advance (r : Radio) (task : Nat) (ok : Bool) : Radio :=
  match r.calls task with
  | .idle => r
  | .entered m =>
    if r.txMutex = none then { r.setCall task (.locked m) with txMutex := some task } else r
  | .locked m => r.setCall task (.judged m (linkAllowsSend r.link.linkState m.allowAwaiting))
  | .judged m allows =>
    if r.link.connected = false then r.setCall task .giving
    else match m.expectedGeneration with
      | none => r.setCall task (.sending r.link.generation m.json 0)
      | some expected => r.setCall task (.linked m expected allows)
  | .linked m expected allows =>
    if expected ≠ r.link.generation ∨ allows = false then r.setCall task .giving
    else r.setCall task (.sending r.link.generation m.json 0)
  | .sending accepted json offset =>
    let handed := ⟨task, accepted, r.link.generation, reportAt json offset⟩
    { r.setCall task (afterReport accepted json offset ok) with log := handed :: r.log }
  | .giving => { r.setCall task .idle with txMutex := none }

def step (r : Radio) : Event → Radio
  | .sendJson task m =>
    if r.calls task = .idle ∧ r.link.connected then r.setCall task (.entered m) else r
  | .advance task ok => advance r task ok
  | .connection value =>
    if r.callback = [] then { r with callback := onConnected value } else r
  | .callback =>
    match r.callback with
    | [] => r
    | op :: rest => { r with link := op.apply r.link, callback := rest }
  | .monitorFails =>
    if r.linkFailed then r else { r with linkFailed := true, failing := failMonitorLink }
  | .failing =>
    match r.failing with
    | [] => r
    | op :: rest => { r with link := op.apply r.link, failing := rest }
  | .protocolReady =>
    if r.link.connected ∧ r.link.linkState = .awaiting then
      { r with link := { r.link with linkState := .ready } }
    else r
  | .recover =>
    if r.link.connected ∧ r.link.linkState = .awaiting then
      { r with link := { r.link with linkState := .recovering } }
    else r

def run (r : Radio) (events : List Event) : Radio := events.foldl step r

/-- Every report was handed over in the generation its message was accepted under. -/
def Isolated (log : List Handed) : Prop := ∀ h ∈ log, h.accepted = h.generation

/-! ## When isolation holds -/

def bumps : List LinkOp → Bool
  | .bump :: _ => true
  | _ => false

def changesGeneration (r : Radio) : Event → Bool
  | .callback => bumps r.callback
  | .failing => bumps r.failing
  | _ => false

def InFlight (r : Radio) : Prop := ∃ task accepted json offset,
  r.calls task = .sending accepted json offset

/-- No new generation is published while a message is in flight. -/
def Undisturbed : Radio → List Event → Prop
  | _, [] => True
  | r, e :: rest =>
    (changesGeneration r e = true → ¬ InFlight r) ∧ Undisturbed (step r e) rest

structure Inv (r : Radio) : Prop where
  isolated : Isolated r.log
  current : ∀ task accepted json offset,
    r.calls task = .sending accepted json offset → accepted = r.link.generation

variable {r : Radio}

@[simp] theorem setCall_link (task : Nat) (c : Call) : (r.setCall task c).link = r.link := rfl

@[simp] theorem setCall_log (task : Nat) (c : Call) : (r.setCall task c).log = r.log := rfl

/-- A call moves on; what it newly sends under is the current generation. -/
theorem inv_setCall (h : Inv r) (task : Nat) (c : Call)
    (hc : ∀ accepted json offset, c = .sending accepted json offset →
      accepted = r.link.generation) : Inv (r.setCall task c) where
  isolated := h.isolated
  current other accepted json offset held := by
    by_cases same : other = task
    · subst same
      simp only [Radio.setCall, Function.update_self] at held
      exact hc accepted json offset held
    · simp only [Radio.setCall, Function.update_of_ne same] at held
      exact h.current other accepted json offset held

theorem inv_advance (h : Inv r) (task : Nat) (ok : Bool) : Inv (advance r task ok) := by
  unfold advance
  cases call : r.calls task with
  | idle => exact h
  | entered m =>
    dsimp only
    split
    · have moved := inv_setCall h task (.locked m) (by simp)
      exact ⟨moved.isolated, moved.current⟩
    · exact h
  | locked m => exact inv_setCall h task _ (by simp)
  | judged m allows =>
    dsimp only
    split
    · exact inv_setCall h task _ (by simp)
    · split
      · exact inv_setCall h task _ (by simp)
      · exact inv_setCall h task _ (by simp)
  | linked m expected allows =>
    dsimp only
    split
    · exact inv_setCall h task _ (by simp)
    · exact inv_setCall h task _ (by simp)
  | sending accepted json offset =>
    have mine := h.current task accepted json offset call
    have moved := inv_setCall h task (afterReport accepted json offset ok) (by
      intro a j o next
      unfold afterReport at next
      grind)
    constructor
    · intro handed hin
      cases List.mem_cons.mp hin with
      | inl new => rw [new]; exact mine
      | inr older => exact h.isolated handed older
    · exact moved.current
  | giving =>
    have moved := inv_setCall h task .idle (by simp)
    exact ⟨moved.isolated, moved.current⟩

/-- A store to the link that does not publish a generation keeps it. -/
private theorem apply_generation {op : LinkOp} (h : op ≠ .bump) (link : Link) :
    (op.apply link).generation = link.generation := by
  cases op with
  | bump => exact absurd rfl h
  | setConnected value => rfl
  | setState value => rfl

theorem inv_link (h : Inv r) (op : LinkOp) (quiet : op = .bump → ¬ InFlight r)
    (callback failing : List LinkOp) :
    Inv { r with link := op.apply r.link, callback := callback, failing := failing } where
  isolated := h.isolated
  current task accepted json offset held := by
    by_cases new : op = .bump
    · exact absurd ⟨task, accepted, json, offset, held⟩ (quiet new)
    · rw [apply_generation new]
      exact h.current task accepted json offset held

theorem inv_step (h : Inv r) (e : Event) (quiet : changesGeneration r e = true → ¬ InFlight r) :
    Inv (step r e) := by
  cases e with
  | sendJson task m =>
    simp only [step]
    split
    · exact inv_setCall h task _ (by simp)
    · exact h
  | advance task ok => exact inv_advance h task ok
  | connection value =>
    simp only [step]
    split
    · exact ⟨h.isolated, h.current⟩
    · exact h
  | callback =>
    simp only [step]
    cases left : r.callback with
    | nil => exact h
    | cons op rest =>
      apply inv_link h op _ rest r.failing
      intro new
      exact quiet (by simp [changesGeneration, left, new, bumps])
  | monitorFails =>
    simp only [step]
    split
    · exact h
    · exact ⟨h.isolated, h.current⟩
  | failing =>
    simp only [step]
    cases left : r.failing with
    | nil => exact h
    | cons op rest =>
      apply inv_link h op _ r.callback rest
      intro new
      exact quiet (by simp [changesGeneration, left, new, bumps])
  | protocolReady | recover =>
    simp only [step]
    split
    · exact ⟨h.isolated, h.current⟩
    · exact h

theorem inv_start : Inv {} where
  isolated := by simp [Isolated]
  current := by simp

theorem inv_run (events : List Event) (h : Inv r) (quiet : Undisturbed r events) :
    Inv (run r events) := by
  induction events generalizing r with
  | nil => exact h
  | cons e rest ih => exact ih (inv_step h e quiet.1) quiet.2

/-- A run in which no generation is published while a message is in flight is isolated. -/
theorem isolated_of_undisturbed (events : List Event) (undisturbed : Undisturbed {} events) :
    Isolated (run {} events).log :=
  (inv_run events inv_start undisturbed).isolated

/-- The condition is exact: once a generation is published under a message in flight, its
next report goes out in another generation than it was accepted under. -/
theorem leak_of_bump {e : Event} {task : Nat} {accepted : UInt32} {json : List UInt8}
    {offset : Nat} (h : Inv r) (held : r.calls task = .sending accepted json offset)
    (new : changesGeneration r e = true) (ok : Bool) :
    ¬ Isolated (run r [e, .advance task ok]).log := by
  have mine := h.current task accepted json offset held
  have bumped : (step r e).link.generation = r.link.generation + 1 ∧
      (step r e).calls = r.calls := by
    cases e with
    | callback =>
      simp only [changesGeneration] at new
      cases left : r.callback with
      | nil => simp [left, bumps] at new
      | cons op rest =>
        cases op <;> simp [left, bumps] at new
        simp [step, left, LinkOp.apply]
    | failing =>
      simp only [changesGeneration] at new
      cases left : r.failing with
      | nil => simp [left, bumps] at new
      | cons op rest =>
        cases op <;> simp [left, bumps] at new
        simp [step, left, LinkOp.apply]
    | _ => simp [changesGeneration] at new
  intro isolated
  have last := isolated ⟨task, accepted, (step r e).link.generation, reportAt json offset⟩ (by
    change _ ∈ (advance (step r e) task ok).log
    simp only [advance, bumped.2, held]
    exact List.mem_cons_self)
  simp only [bumped.1, mine] at last
  have apart : r.link.generation ≠ r.link.generation + 1 := by
    intro same
    have := congrArg UInt32.toBitVec same
    simp at this
  exact apart last

/-- Two reports' worth of text, with a disconnect and a reconnect between them. -/
def disturbed : List Event :=
  [.connection true, .callback, .callback, .callback,
    .sendJson 0 { json := List.replicate 61 120, expectedGeneration := some 1,
                  allowAwaiting := true },
    .advance 0 true, .advance 0 true, .advance 0 true, .advance 0 true, .advance 0 true,
    .connection false, .callback, .callback, .callback,
    .connection true, .callback, .callback, .callback,
    .advance 0 true]

theorem not_isolated : ¬ Isolated (run {} disturbed).log := by
  intro isolated
  have second := isolated ⟨0, 1, 3, reportAt (List.replicate 61 120) 61⟩ (by decide)
  exact absurd second (by decide)

theorem undisturbed_append {events rest : List Event} (h : Undisturbed r events)
    (after : Undisturbed (run r events) rest) : Undisturbed r (events ++ rest) := by
  induction events generalizing r with
  | nil => exact after
  | cons e events ih => exact ⟨h.1, ih h.2 after⟩

def Event.stores : Event → Bool
  | .callback | .failing => true
  | _ => false

theorem undisturbed_of_still {events : List Event} (still : ∀ e ∈ events, e.stores = false) :
    Undisturbed r events := by
  induction events generalizing r with
  | nil => trivial
  | cons e events ih =>
    refine ⟨fun new => ?_, ih fun f hf => still f (List.mem_cons_of_mem _ hf)⟩
    have here := still e List.mem_cons_self
    cases e with
    | callback | failing => cases here
    | _ => cases new

def Event.task : Event → Option Nat
  | .sendJson task _ | .advance task _ => some task
  | _ => none

/-- A call moves by the events of its own task only. -/
theorem step_calls {e : Event} {task : Nat} (others : e.task ≠ some task) :
    (step r e).calls task = r.calls task := by
  cases e with
  | sendJson mover m =>
    have apart : task ≠ mover := fun same => others (same ▸ rfl)
    simp only [step]
    split
    · exact Function.update_of_ne apart _ _
    · rfl
  | advance mover ok =>
    have apart : task ≠ mover := fun same => others (same ▸ rfl)
    simp only [step, advance]
    cases r.calls mover with
    | idle => rfl
    | entered m =>
      dsimp only
      split
      · exact Function.update_of_ne apart _ _
      · rfl
    | judged m allows =>
      dsimp only
      split
      · exact Function.update_of_ne apart _ _
      · split <;> exact Function.update_of_ne apart _ _
    | linked m expected allows =>
      dsimp only
      split <;> exact Function.update_of_ne apart _ _
    | _ => exact Function.update_of_ne apart _ _
  | connection | callback | monitorFails | failing | protocolReady | recover =>
    simp only [step]
    split <;> rfl

theorem run_calls {events : List Event} {task : Nat} (others : ∀ e ∈ events, e.task ≠ some task) :
    (run r events).calls task = r.calls task := by
  induction events generalizing r with
  | nil => rfl
  | cons e events ih =>
    exact (ih fun f hf => others f (List.mem_cons_of_mem _ hf)).trans (step_calls (others e List.mem_cons_self))

/-- Without a call at work everything may be published. -/
theorem undisturbed_of_idle {events : List Event} (idle : ∀ task, r.calls task = .idle)
    (linkOnly : ∀ e ∈ events, e.task = none) : Undisturbed r events := by
  induction events generalizing r with
  | nil => trivial
  | cons e events ih =>
    have here := linkOnly e List.mem_cons_self
    have still : ¬ InFlight r := by
      rintro ⟨task, accepted, json, offset, held⟩
      rw [idle task] at held
      cases held
    refine ⟨fun _ => still, ih (fun task => ?_) fun f hf => linkOnly f (List.mem_cons_of_mem _ hf)⟩
    exact (step_calls (by simp [here])).trans (idle task)

def connects : List Event := [.connection true, .callback, .callback, .callback]

def sendsWhole : List Event :=
  [.sendJson 0 { json := List.replicate 61 120, expectedGeneration := some 1, allowAwaiting := true },
    .advance 0 true, .advance 0 true, .advance 0 true, .advance 0 true, .advance 0 true,
    .advance 0 true, .advance 0 true]

def disconnects : List Event := [.connection false, .callback, .callback, .callback]

/-- The disconnect comes after both reports. -/
theorem isolated_of_undisturbed_whole :
    Isolated (run {} (connects ++ sendsWhole ++ disconnects)).log ∧
      (run {} (connects ++ sendsWhole ++ disconnects)).log.length = 2 ∧
      (run {} (connects ++ sendsWhole ++ disconnects)).link.generation = 2 := by
  have connected : Undisturbed {} connects := undisturbed_of_idle (fun _ => rfl) (by decide)
  have sent : Undisturbed (run {} connects) sendsWhole := undisturbed_of_still (by decide)
  have tasks : ∀ e ∈ connects ++ sendsWhole, e.task = none ∨ e.task = some 0 := by decide
  have idle : ∀ task, (run {} (connects ++ sendsWhole)).calls task = .idle := by
    intro task
    by_cases first : task = 0
    · rw [first]
      decide
    · apply run_calls
      intro e he same
      rcases tasks e he with none | zero
      · rw [same] at none
        cases none
      · rw [same] at zero
        exact first (Option.some.inj zero)
  have before : Undisturbed {} (connects ++ sendsWhole) := undisturbed_append connected sent
  refine ⟨?_, by decide, by decide⟩
  apply isolated_of_undisturbed
  apply undisturbed_append before
  exact undisturbed_of_idle idle (by decide)

end Mosaico.Ble.HidTransmit
