import Mosaico.Gauge.ColdTrial

/-! What `shape` admits is what a journal can hold: `prior` rebuilds, from any record of
a valid shape past sequence 1, a record that `transition` lets it follow. -/
namespace Mosaico.Gauge.ColdTrial

@[simp] theorem nonzero_zeros (n : Nat) : nonzero (zeros n) = false := by
  simp [nonzero]

@[simp] theorem validBoot_empty : validBoot {} = false := by decide

@[simp] theorem emptyBoot_empty : emptyBoot {} = true := by decide

@[grind →] theorem validBoot_of_emptyBoot {b : BootToken} (h : emptyBoot b = true) :
    validBoot b = false := by
  simp [emptyBoot, validBoot] at *
  simp [h]

@[simp] theorem sameBoot_self (b : BootToken) : sameBoot b b = validBoot b := by
  simp [sameBoot, validBoot]

/-- A record that some chain of transitions from an initial one ends in. -/
inductive Reached : Record → Prop
  | first {r : Record} : initial r = true → Reached r
  | next {a b : Record} : Reached a → transition a b = true → Reached b

theorem shape_of_initial {r : Record} (h : initial r = true) : shape r = true := by
  simp only [initial, Bool.and_eq_true] at h
  exact h.1.1

theorem shapes_of_transition {a b : Record} (h : transition a b = true) :
    shape a = true ∧ shape b = true := by
  simp only [transition, Bool.and_eq_true] at h
  grind

theorem sequence_of_transition {a b : Record} (h : transition a b = true) :
    b.sequence = a.sequence + 1 := by
  simp only [transition, Bool.and_eq_true, beq_iff_eq] at h
  grind

theorem shape_of_reached {r : Record} (h : Reached r) : shape r = true := by
  cases h with
  | first h => exact shape_of_initial h
  | next _ h => exact (shapes_of_transition h).2

/-- The phase a restore or a block came from, read off the sequence number. -/
def heldPhase (r : Record) : Phase :=
  if r.phase = .restored then .restoring
  else if r.capture = .none then
    if hasClaim r then .captureClaimed
    else if r.sequence = 2 then .armed
    else if r.sequence = 3 then
      -- only an armed record has no handoff time, and it is two steps back
      if r.phase = .blockedUnknown ∧ r.handoffMs = 0 then .restoring else .handedOff
    else .restoring
  else if r.sequence = (if unclaimedFailure r.capture then 4 else 5) then
    if r.capture = .success then .captured else .captureFailed
  else .restoring

def unclaim (r : Record) : Record :=
  { r with sequence := 2, phase := .handedOff, claimedBoot := {}, claimMs := 0 }

def uncapture (r : Record) (p : Phase) : Record :=
  { r with sequence := r.sequence - 1, phase := p, capture := .none, evidenceDigest := zeros 32 }

def prior (r : Record) : Record :=
  match r.phase with
  | .handedOff => { r with sequence := 1, phase := .armed, handoffMs := 0 }
  | .captureClaimed => unclaim r
  | .captured => uncapture r .captureClaimed
  | .captureFailed =>
    uncapture r (if unclaimedFailure r.capture then .handedOff else .captureClaimed)
  | _ => { r with sequence := r.sequence - 1, phase := heldPhase r }

section
attribute [local simp] transition shape reachableSequence phaseShape hasClaim ownedOutcome
  terminal createsClaim sameClaim sameEvidence addsEvidence follows unclaimedFailure
  knownFailure handed prior

variable {r : Record} (h : shape r = true)
include h

theorem prior_handedOff (hp : r.phase = .handedOff) : transition (prior r) r = true := by
  simp [hp] at *
  cases hc : r.capture <;> simp [hc] at *
  grind

theorem prior_captureClaimed (hp : r.phase = .captureClaimed) :
    transition (prior r) r = true := by
  simp [unclaim, hp] at *
  grind

theorem prior_captured (hp : r.phase = .captured) : transition (prior r) r = true := by
  simp [uncapture, hp] at *
  grind

theorem prior_captureFailed (hp : r.phase = .captureFailed) :
    transition (prior r) r = true := by
  cases claim : validBoot r.claimedBoot <;> cases hc : r.capture <;>
    simp [uncapture, hp, hc, claim] at * <;> grind

theorem prior_restoring (hp : r.phase = .restoring) : transition (prior r) r = true := by
  cases claim : validBoot r.claimedBoot <;> cases hc : r.capture <;>
    simp [heldPhase, hp, hc, claim] at * <;> grind

theorem prior_restored (hp : r.phase = .restored) : transition (prior r) r = true := by
  cases claim : validBoot r.claimedBoot <;> cases hc : r.capture <;>
    simp [heldPhase, hp, hc, claim] at * <;> grind

theorem prior_blockedUnknown (hp : r.phase = .blockedUnknown) :
    transition (prior r) r = true := by
  cases claim : validBoot r.claimedBoot <;> cases hc : r.capture <;>
    simp [heldPhase, hp, hc, claim] at * <;> grind

end

theorem phase_ne_unlisted {r : Record} (h : shape r = true) : r.phase ≠ .unlisted := by
  simp only [shape, Bool.and_eq_true, bne_iff_ne] at h
  grind

private theorem sequence_of_armed {r : Record} (h : shape r = true) (hp : r.phase = .armed) :
    r.sequence = 1 := by
  simp [shape, reachableSequence, hp] at h
  grind

private theorem prior_transition {r : Record} (h : shape r = true) (hp : r.phase ≠ .armed) :
    transition (prior r) r = true := by
  cases phase : r.phase with
  | armed => exact absurd phase hp
  | handedOff => exact prior_handedOff h phase
  | captureClaimed => exact prior_captureClaimed h phase
  | captured => exact prior_captured h phase
  | captureFailed => exact prior_captureFailed h phase
  | restoring => exact prior_restoring h phase
  | restored => exact prior_restored h phase
  | blockedUnknown => exact prior_blockedUnknown h phase
  | unlisted => exact absurd phase (phase_ne_unlisted h)

private theorem reached_of_shape {r : Record} (h : shape r = true) : Reached r := by
  induction n : r.sequence generalizing r with
  | zero => simp [shape, n] at h
  | succ n ih =>
    by_cases hp : r.phase = .armed
    · apply Reached.first
      simp [initial, h, hp, sequence_of_armed h hp]
    · have back := prior_transition h hp
      have earlier := sequence_of_transition back
      exact .next (ih (shapes_of_transition back).1 (by omega)) back

/-- The record predicate holds of exactly the records a chain can reach. -/
theorem shape_iff_reached (r : Record) : shape r = true ↔ Reached r :=
  ⟨reached_of_shape, shape_of_reached⟩

end Mosaico.Gauge.ColdTrial
