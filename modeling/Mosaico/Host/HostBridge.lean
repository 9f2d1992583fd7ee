import Mosaico.Library.WrapClock

/-! `host_bridge.cpp`: the usage sample that two sources deliver, BLE frames with a
sequence of their own and network results without one. Each call is one critical
section. The numbers the sender puts on its frames are `stopwatch_bridge.py`'s. -/
namespace Mosaico.Host.HostBridge

abbrev bridgeStaleMs : BitVec 32 := 130000
abbrev usageUnavailableMs : BitVec 32 := 600000

/-- What one call delivers. -/
structure Sample where
  remainingBasisPoints : BitVec 16
  resetEpoch : BitVec 32
  capturedEpoch : BitVec 32
  resetCredits : BitVec 8
  receivedAtMs : BitVec 32
  deriving DecidableEq, Repr

structure Bridge where
  lastUsageSequence : BitVec 32 := 0
  usageReceivedAtMs : BitVec 32 := 0
  resetEpoch : BitVec 32 := 0
  capturedEpoch : BitVec 32 := 0
  revision : BitVec 32 := 0
  remainingBasisPoints : BitVec 16 := 0
  resetCredits : BitVec 8 := 0
  hasUsage : Bool := false
  deriving DecidableEq, Repr

structure Snapshot where
  online : Bool := false
  usageAvailable : Bool := false
  usageStale : Bool := false
  resetAvailable : Bool := false
  remainingBasisPoints : BitVec 16 := 0
  resetSeconds : BitVec 32 := 0
  resetCredits : BitVec 8 := 0
  revision : BitVec 32 := 0
  deriving DecidableEq, Repr

def sequenceNewer (candidate current : BitVec 32) : Bool :=
  current == 0 || WrapClock.newer candidate current

def malformed (network : Bool) (sequence : BitVec 32) (sample : Sample) : Bool :=
  (!network && sequence == 0) || decide (sample.remainingBasisPoints > 10000) ||
    sample.capturedEpoch == 0 || decide (sample.resetCredits > 99)

/-- An older sample is acknowledged without replacing the current one. -/
def store (bridge : Bridge) (sample : Sample) : Bridge :=
  if sample.capturedEpoch < bridge.capturedEpoch then bridge
  else
    { bridge with
      remainingBasisPoints := sample.remainingBasisPoints
      resetEpoch := sample.resetEpoch
      capturedEpoch := sample.capturedEpoch
      resetCredits := sample.resetCredits
      usageReceivedAtMs := sample.receivedAtMs
      hasUsage := true
      revision := bridge.revision + 1 }

def apply (bridge : Bridge) (network : Bool) (sequence : BitVec 32) (sample : Sample) :
    Bool × Bridge :=
  if malformed network sequence sample then (false, bridge)
  else if network then (true, store bridge sample)
  else if sequenceNewer sequence bridge.lastUsageSequence = false then (false, bridge)
  else (true, store { bridge with lastUsageSequence := sequence } sample)

def usageAge (bridge : Bridge) (nowMs : BitVec 32) : BitVec 32 :=
  if bridge.hasUsage then nowMs - bridge.usageReceivedAtMs else BitVec.allOnes 32

def snapshot (bridge : Bridge) (nowMs : BitVec 32) : Snapshot :=
  let age := usageAge bridge nowMs
  let copy : Snapshot :=
    { online := bridge.hasUsage && decide (age ≤ bridgeStaleMs)
      usageAvailable := bridge.hasUsage && decide (age ≤ usageUnavailableMs)
      usageStale := bridge.hasUsage && decide (age ≤ usageUnavailableMs) &&
        decide (age > bridgeStaleMs)
      remainingBasisPoints := bridge.remainingBasisPoints
      resetCredits := bridge.resetCredits
      revision := bridge.revision }
  if copy.usageAvailable ∧ bridge.resetEpoch > bridge.capturedEpoch then
    let initialSeconds := bridge.resetEpoch - bridge.capturedEpoch
    let elapsedSeconds := age / 1000
    let resetSeconds :=
      if elapsedSeconds < initialSeconds then initialSeconds - elapsedSeconds else 0
    { copy with
      resetAvailable := true
      resetSeconds := resetSeconds
      usageStale := copy.usageStale || (resetSeconds == 0 && decide (age > bridgeStaleMs)) }
  else copy

/-- `millis`: the microsecond timer, divided and truncated. -/
def millis (us : Nat) : BitVec 32 := WrapClock.stamp 32 (us / 1000 : Nat)

def agedMillis (us : Nat) (ageSeconds : BitVec 32) : BitVec 32 := millis us - ageSeconds * 1000

/-- `next_sequence`; `none` is the exception. -/
def nextSequence (sequence : Nat) : Option Nat :=
  if sequence < 1 ∨ sequence > 0xFFFFFFFF then none
  else some (if sequence = 0xFFFFFFFF then 1 else sequence + 1)

theorem snapshot_usageAvailable (bridge : Bridge) (nowMs : BitVec 32) :
    (snapshot bridge nowMs).usageAvailable =
      (bridge.hasUsage && decide (usageAge bridge nowMs ≤ usageUnavailableMs)) := by
  unfold snapshot
  dsimp only
  split <;> rfl

@[simp] theorem store_lastUsageSequence (bridge : Bridge) (sample : Sample) :
    (store bridge sample).lastUsageSequence = bridge.lastUsageSequence := by
  unfold store
  split <;> rfl

/-- Everything an accepted call can do. -/
theorem apply_cases (bridge : Bridge) (network : Bool) (sequence : BitVec 32) (sample : Sample) :
    apply bridge network sequence sample = (false, bridge) ∨
      malformed network sequence sample = false ∧
        (network = true ∧ apply bridge network sequence sample = (true, store bridge sample) ∨
          network = false ∧ sequenceNewer sequence bridge.lastUsageSequence = true ∧
            apply bridge network sequence sample =
              (true, store { bridge with lastUsageSequence := sequence } sample)) := by
  unfold apply
  by_cases bad : malformed network sequence sample = true
  · exact .inl (if_pos bad)
  · rw [if_neg bad]
    have good : malformed network sequence sample = false := by simpa using bad
    cases network with
    | true => exact .inr ⟨good, .inl ⟨rfl, rfl⟩⟩
    | false =>
      by_cases old : sequenceNewer sequence bridge.lastUsageSequence = false
      · refine .inl ?_
        rw [if_neg (by decide), if_pos old]
      · refine .inr ⟨good, .inr ⟨rfl, by simpa using old, ?_⟩⟩
        rw [if_neg (by decide), if_neg old]

end Mosaico.Host.HostBridge
