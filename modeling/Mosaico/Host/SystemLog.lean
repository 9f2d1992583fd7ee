import Mosaico.Library.Interleaving
import Mosaico.Host.SystemLogModel

/-! `mosaico_system_log.cpp`: producers put records in the RAM queue under a lock they only try,
and the worker's `flush` moves them to the NAND journal, a page at a time. What the lock protects
is called through it; the journal may fail after a page became durable. -/
namespace Mosaico.Host.SystemLog

open Interaction Nand.StoreModel Nand.LogModel

inductive Task where
  | worker
  | producer (n : Nat)
  deriving DecidableEq

/-- What is settled outside the queue: that the storage is allocated, that a flush is due, that
the journal could be loaded, and that the append is admitted. -/
inductive Gate where
  | storage | due | loaded | admitted
  deriving DecidableEq

/-- `offer` is what the caller is about to push; it only labels the locked section. -/
inductive Call where
  | testAndSet (offer : List Encoded)
  | clear
  | count
  | push (r : Record)
  | pushGroup (records : List Record) (n : Nat)
  | copy (maximum : Nat)
  | consume (n : Nat)
  | pendingConsume
  | setPending (n : Nat)
  | drop
  | ask (g : Gate)
  | logAppend (page : Page)

abbrev Answer : Call → Type
  | .testAndSet _ | .push _ | .pushGroup _ _ | .consume _ | .ask _ | .logAppend _ => Bool
  | .count | .pendingConsume => Nat
  | .copy _ => List Encoded
  | .clear | .setPending _ | .drop => Unit

abbrev LogProg (α : Type) := Prog Call Answer α

def testAndSet (offer : List Encoded) : LogProg Bool := Prog.perform (Call.testAndSet offer)

def clear : LogProg Unit := Prog.perform Call.clear

def count : LogProg Nat := Prog.perform Call.count

def push (r : Record) : LogProg Bool := Prog.perform (Call.push r)

def pushGroup (records : List Record) (n : Nat) : LogProg Bool :=
  Prog.perform (Call.pushGroup records n)

def copy (maximum : Nat) : LogProg (List Encoded) := Prog.perform (Call.copy maximum)

def consume (n : Nat) : LogProg Bool := Prog.perform (Call.consume n)

def pendingConsume : LogProg Nat := Prog.perform Call.pendingConsume

def setPending (n : Nat) : LogProg Unit := Prog.perform (Call.setPending n)

def drop : LogProg Unit := Prog.perform Call.drop

def ask (g : Gate) : LogProg Bool := Prog.perform (Call.ask g)

def logAppend (page : Page) : LogProg Bool := Prog.perform (Call.logAppend page)

def dropped : LogProg Bool := do
  drop
  return false

def pushed (r : Record) : LogProg Bool := do
  let ok ← push r
  if !ok then drop
  clear
  return ok

def enqueue (r : Record) : LogProg Bool := do
  if !(← ask .storage) then dropped
  else if ← testAndSet [encode r] then dropped
  else pushed r

def pushPair (context r : Record) : LogProg Bool := do
  if ← push context then push r else return false

def pushedBoth (context r : Record) : LogProg Bool := do
  if (← count) > capacity - 2 then
    drop
    clear
    return false
  else
    let ok ← pushPair context r
    clear
    return ok

def enqueueWithUnits (units : Tag) (clock : Option UInt64) (r : Record) : LogProg Bool := do
  let context := unitContext units r.monotonicMs clock
  if !(← ask .storage) then dropped
  else if ← testAndSet [encode context, encode r] then dropped
  else pushedBoth context r

def pushedGroup (group : List Record) (n : Nat) : LogProg Bool := do
  if !(← pushGroup group n) then
    clear
    return false
  else
    clear
    return true

def enqueueDerpGroup (group : List Record) (n : Nat) : LogProg Bool := do
  if !(← ask .storage) then return false
  else if n = 0 ∨ n > group.length then return false
  else if ← testAndSet ((group.take n).map encode) then return false
  else pushedGroup group n

def consumeLocked (pending : Nat) : LogProg Bool := do
  let _ ← consume pending
  setPending 0
  clear
  return true

def consumeDurable : LogProg Bool := do
  let pending ← pendingConsume
  if pending = 0 then return true
  else if ← testAndSet [] then return false
  else consumeLocked pending

/-- The batch goes to the journal; what was acknowledged is removed, now or later. -/
def flushBatch (bootId : UInt32) (batch : List Encoded) : LogProg Unit := do
  if batch = [] then return ()
  else if !(← ask .admitted) then return ()
  else if !(← logAppend (compose bootId batch)) then return ()
  else
    setPending batch.length
    let _ ← consumeDurable

def flushLocked (bootId : UInt32) : LogProg Unit := do
  let batch ← copy recordsPerPage
  clear
  flushBatch bootId batch

def flush (bootId : UInt32) : LogProg Unit := do
  if !(← consumeDurable) then return ()
  else if !(← ask .due) then return ()
  else if !(← ask .loaded) then return ()
  else if ← testAndSet [] then return ()
  else flushLocked bootId

/-- A call that got the lock: what it offered and what it pushed. -/
structure Section where
  offered : List Encoded
  pushed : List Encoded

/-- A page that became durable, and whether its append said so. -/
structure Appended where
  page : Page
  acknowledged : Bool

/-- The shared state; from `offered` on it is a record of what happened. -/
structure Log where
  queue : Queue
  lock : Option Task := none
  pendingConsume : Nat := 0
  drops : Nat := 0
  offered : List Encoded := []
  current : List Encoded := []
  sections : List Section := []
  consumed : Nat := 0
  journal : List Appended := []

def respond (t : Task) : Behaviour Call Answer Log
  | .testAndSet offer, s, taken, s' =>
    taken = s.lock.isSome ∧
      s' = if s.lock.isSome then s else { s with lock := some t, offered := offer, current := [] }
  | .clear, s, _, s' =>
    s' = { s with
      lock := none, offered := [], current := []
      sections := s.sections ++ [⟨s.offered, s.current⟩] }
  | .count, s, n, s' => n = s.queue.ring.count ∧ s' = s
  | .push r, s, ok, s' =>
    ok = (s.queue.push r).1 ∧
      s' = { s with
        queue := (s.queue.push r).2
        current := if ok then s.current ++ [encode r] else s.current }
  | .pushGroup records n, s, ok, s' =>
    ok = (s.queue.pushGroup records n).1 ∧
      s' = { s with
        queue := (s.queue.pushGroup records n).2
        current := if ok then s.current ++ (records.take n).map encode else s.current }
  | .copy maximum, s, batch, s' => batch = s.queue.ring.peek maximum ∧ s' = s
  | .consume n, s, ok, s' =>
    ok = (s.queue.consume n).1 ∧
      s' = { s with
        queue := (s.queue.consume n).2
        consumed := if ok then s.consumed + n else s.consumed }
  | .pendingConsume, s, n, s' => n = s.pendingConsume ∧ s' = s
  | .setPending n, s, _, s' => s' = { s with pendingConsume := n }
  | .drop, s, _, s' => s' = { s with drops := s.drops + 1 }
  | .ask _, s, _, s' => s' = s
  | .logAppend page, s, ok, s' =>
    s' = { s with journal := s.journal ++ [⟨page, ok⟩] } ∨ (ok = false ∧ s' = s)

/-- Any task may log; only the worker flushes. -/
inductive Entry (bootId : UInt32) : Task → LogProg Unit → Prop
  | enqueue (t : Task) (r : Record) : Entry bootId t (do let _ ← enqueue r)
  | enqueueWithUnits (t : Task) (units : Tag) (clock : Option UInt64) (r : Record) :
      Entry bootId t (do let _ ← enqueueWithUnits units clock r)
  | enqueueDerpGroup (t : Task) (group : List Record) (n : Nat) :
      Entry bootId t (do let _ ← enqueueDerpGroup group n)
  | consumeDurable : Entry bootId .worker (do let _ ← consumeDurable)
  | flush : Entry bootId .worker (flush bootId)

def system (bootId : UInt32) : Interleaving.System Call Answer Log Task where
  answers := respond
  starts := Entry bootId

def emptyQueue : Queue := { ring := ⟨Vector.replicate capacity (ByteFields.zero recordSize), 0, 0⟩ }

def initial : Log := { queue := emptyQueue }

def Log.accepted (s : Log) : List Encoded := s.sections.flatMap Section.pushed ++ s.current

def Appended.records (a : Appended) : List Encoded := recordsOf a.page

def acknowledgedIn (journal : List Appended) : List Encoded :=
  (journal.filter Appended.acknowledged).flatMap Appended.records

end Mosaico.Host.SystemLog
