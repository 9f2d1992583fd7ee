import Mosaico.Gauge.ColdPlanner
import Mathlib.Data.Bool.Basic

/-! What `startup` recommends against what the planners accept: one lemma for each record
a planner builds, then the agreement action by action. -/
namespace Mosaico.Gauge.ColdTrial

@[simp] theorem result_action (a : Action) (e : Error) : (result a e).action = a := rfl

@[simp] theorem result_error (a : Action) (e : Error) : (result a e).error = e := rfl

@[simp] theorem result_next (a : Action) (e : Error) : (result a e).next = none := rfl

@[simp] theorem persist_action (r : Record) : (persist r).action = .persistRecord := rfl

@[simp] theorem persist_error (r : Record) : (persist r).error = .none := rfl

@[simp] theorem persist_next (r : Record) : (persist r).next = some r := rfl

theorem checked_eq_none {r : Record} {c : Context} (h : checked r c = .none) :
    shape r = true ∧ validBoot c.boot = true ∧ c.recordDurable = true := by
  unfold checked at h
  grind

theorem checked_ne_sequence (r : Record) (c : Context) : checked r c ≠ .sequence := by
  unfold checked
  grind

section
attribute [local simp] transition shape reachableSequence phaseShape hasClaim ownedOutcome
  terminal createsClaim sameClaim sameEvidence addsEvidence follows unclaimedFailure
  knownFailure handed

variable {r : Record} (h : shape r = true)
include h

theorem transition_claimed {c : Context} (hp : r.phase = .handedOff)
    (boot : validBoot c.boot = true) (other : sameBoot r.armedBoot c.boot = false)
    (early : c.nowMs < resumedCaptureLimitMs) : transition r (claimed r c) = true := by
  simp [claimed, hp, boot, other] at *
  grind

theorem transition_interrupted {d : Digest} (hp : r.phase = .captureClaimed)
    (hd : nonzero d = true) : transition r (withEvidence r .interrupted d) = true := by
  simp [withEvidence, hp, hd] at *
  grind

theorem transition_startupFailure {c : Context} {d : Digest} (hp : r.phase = .handedOff)
    (hd : nonzero d = true) : transition r (withEvidence r (startupFailure c) d) = true := by
  by_cases kind : c.startupKind = .powerOn <;>
    simp [withEvidence, startupFailure, kind, hp, hd] at * <;> grind

theorem transition_restoring (hp : follows r.phase .restoring = true) :
    transition r (restoring r) = true := by
  cases phase : r.phase <;> simp [phase] at hp <;> cases hc : r.capture <;>
    simp [restoring, phase, hc] at * <;> grind

end

/-- The decision asks to persist a record that may follow `r`. -/
def Accepts (r : Record) (d : Decision) : Prop :=
  ∃ next, d = persist next ∧ transition r next = true

theorem persistAfter_accepts {r next : Record} {e : Error} (h : transition r next = true) :
    Accepts r (persistAfter r next e) :=
  ⟨next, by simp [persistAfter, h], h⟩

/-- A restore that is required is planned, or was planned already. -/
def RestorePlanned (r : Record) (c : Context) : Prop :=
  Accepts r (restoreIntent r c) ∨
    (r.phase = .restoring ∧ restoreIntent r c = result .restoreRequired .none)

/-- In another boot than the arming one a handoff is claimed or its failure recorded;
the claim that is asked for may follow. -/
theorem startupHandedOff_cases {r : Record} {c : Context} (h : shape r = true)
    (hp : r.phase = .handedOff) (boot : validBoot c.boot = true) :
    (sameBoot r.armedBoot c.boot = true ∧ (startupHandedOff r c).next = none ∧
        (startupHandedOff r c).error ≠ .sequence ∧
        (startupHandedOff r c).action ≠ .failureEvidenceRequired) ∨
      (sameBoot r.armedBoot c.boot = false ∧
        ((startupHandedOff r c = persist (claimed r c) ∧ transition r (claimed r c) = true) ∨
          (¬(c.startupKind = .powerOn ∧ c.nowMs < resumedCaptureLimitMs) ∧
            ((startupHandedOff r c = result .failureEvidenceRequired .boot) ∨
              (startupHandedOff r c = result .failureEvidenceRequired .expired))))) := by
  cases same : sameBoot r.armedBoot c.boot with
  | true =>
    left
    simp only [startupHandedOff, same, if_true]
    split
    · simp
    · split <;> simp
  | false =>
    right
    simp only [startupHandedOff, same, Bool.false_eq_true, if_false]
    split
    · simp_all
    · split
      · rename_i kind late
        simp [operationWindow, same] at late
        grind
      · rename_i kind late
        have early : c.nowMs < resumedCaptureLimitMs := by
          simp only [not_or, Nat.not_le] at late
          exact late.2
        have claim := transition_claimed h hp boot same early
        simp [persistAfter, claim]

theorem startup_of_checked {r : Record} {c : Context} (h : checked r c = .none) :
    startup .present r c = match r.phase with
      | .blockedUnknown => result .blockedUnknown .unknown
      | .restored => result .complete .none
      | .armed => startupArmed r c
      | .handedOff => startupHandedOff r c
      | .captureClaimed => result .failureEvidenceRequired .evidence
      | _ => result .restoreRequired .none := by
  have legacy : c.legacyFallbackRequested = false := by
    unfold checked at h
    grind
  cases phase : r.phase <;> simp [startup, legacy, h, phase]

theorem startup_of_refused {r : Record} {c : Context} (h : checked r c ≠ .none) :
    ∃ e, startup .present r c = result .blockedUnknown e ∧ e ≠ .sequence := by
  simp only [startup, reduceCtorEq, if_false]
  split
  · exact ⟨_, rfl, by decide⟩
  · exact ⟨checked r c, by simp, checked_ne_sequence r c⟩

theorem interruptedEvidence_accepts {r : Record} {c : Context} {d : Digest}
    (h : checked r c = .none) (hp : r.phase = .captureClaimed) (hd : nonzero d = true) :
    Accepts r (interruptedEvidence r c d) := by
  have accepted := persistAfter_accepts (e := .sequence)
    (transition_interrupted (checked_eq_none h).1 hp hd)
  simpa [interruptedEvidence, h, hp, hd] using accepted

theorem rejectedStartupEvidence_accepts {r : Record} {c : Context} {d : Digest}
    (h : checked r c = .none) (hp : r.phase = .handedOff)
    (other : sameBoot r.armedBoot c.boot = false)
    (late : ¬(c.startupKind = .powerOn ∧ c.nowMs < resumedCaptureLimitMs))
    (hd : nonzero d = true) : Accepts r (rejectedStartupEvidence r c d) := by
  have accepted := persistAfter_accepts (e := .sequence)
    (transition_startupFailure (c := c) (checked_eq_none h).1 hp hd)
  simpa [rejectedStartupEvidence, h, hp, hd, other, late] using accepted

theorem restoreIntent_plans {r : Record} {c : Context} (h : checked r c = .none)
    (gate : safe c false true = true) (window : operationWindow r c = true)
    (hp : r.phase = .restoring ∨ (follows r.phase .restoring = true ∧
      (r.phase = .handedOff → sameBoot r.armedBoot c.boot = true))) : RestorePlanned r c := by
  cases hp with
  | inl hp => right; simp [restoreIntent, h, gate, window, hp]
  | inr hp =>
    left
    have claim : r.phase ≠ .captureClaimed := by
      intro hc
      simp [hc, follows] at hp
    have same : ¬(r.phase = .handedOff ∧ sameBoot r.armedBoot c.boot = false) := by
      grind
    have open_ : r.phase ≠ .restoring := by
      intro hc
      simp [hc, follows] at hp
    have accepted := persistAfter_accepts (e := .phase)
      (transition_restoring (checked_eq_none h).1 hp.1)
    simpa [restoreIntent, h, gate, window, claim, same, open_] using accepted

theorem restoreIntent_gated {r : Record} {c : Context} (h : checked r c = .none)
    (closed : safe c false true = false ∨ operationWindow r c = false) :
    restoreIntent r c = result .blockedUnknown .safety := by
  cases closed with
  | inl closed => simp [restoreIntent, h, closed]
  | inr closed => simp [restoreIntent, h, closed]

theorem accepts_error {r : Record} {d : Decision} (h : Accepts r d) : d.error ≠ .sequence := by
  obtain ⟨next, rfl, -⟩ := h
  simp

theorem interruptedEvidence_error (r : Record) (c : Context) (d : Digest) :
    (interruptedEvidence r c d).error ≠ .sequence := by
  by_cases h : checked r c = .none
  · by_cases given : r.phase = .captureClaimed ∧ nonzero d = true
    · exact accepts_error (interruptedEvidence_accepts h given.1 given.2)
    · simp only [interruptedEvidence, h]
      grind [result_error]
  · simp [interruptedEvidence, h, checked_ne_sequence]

theorem rejectedStartupEvidence_error (r : Record) (c : Context) (d : Digest) :
    (rejectedStartupEvidence r c d).error ≠ .sequence := by
  by_cases h : checked r c = .none
  · by_cases given : r.phase ≠ .handedOff ∨ sameBoot r.armedBoot c.boot = true ∨
        (c.startupKind = .powerOn ∧ c.nowMs < resumedCaptureLimitMs) ∨ nonzero d = false
    · simp [rejectedStartupEvidence, h, given]
    · simp only [not_or, Bool.not_eq_true, Bool.not_eq_false, ne_eq, not_not] at given
      exact accepts_error
        (rejectedStartupEvidence_accepts h given.1 given.2.1 given.2.2.1 given.2.2.2)
  · simp [rejectedStartupEvidence, h, checked_ne_sequence]

theorem restoreIntent_error (r : Record) (c : Context) :
    (restoreIntent r c).error ≠ .sequence := by
  have known := checked_ne_sequence r c
  simp only [restoreIntent, persistAfter]
  grind [result_error, persist_error]

/-- How the recommendation of one startup and the planners fit together. -/
structure StartupAgrees (r : Record) (c : Context) : Prop where
  /-- the claim that startup itself asks to persist -/
  claim : ∀ next, (startup .present r c).next = some next → transition r next = true
  evidence : (startup .present r c).action = .failureEvidenceRequired →
    ∀ d, nonzero d = true →
      (r.phase = .captureClaimed ∧ Accepts r (interruptedEvidence r c d)) ∨
        (r.phase = .handedOff ∧ Accepts r (rejectedStartupEvidence r c d))
  restore : (startup .present r c).action = .restoreRequired →
    if safe c false true ∧ operationWindow r c then RestorePlanned r c
    else restoreIntent r c = result .blockedUnknown .safety
  noSequence : (startup .present r c).error ≠ .sequence ∧
    (restoreIntent r c).error ≠ .sequence ∧
    ∀ d, (interruptedEvidence r c d).error ≠ .sequence ∧
      (rejectedStartupEvidence r c d).error ≠ .sequence

theorem restore_of_checked {r : Record} {c : Context} (h : checked r c = .none)
    (hp : r.phase = .restoring ∨ (follows r.phase .restoring = true ∧
      (r.phase = .handedOff → sameBoot r.armedBoot c.boot = true))) :
    if safe c false true ∧ operationWindow r c then RestorePlanned r c
    else restoreIntent r c = result .blockedUnknown .safety := by
  split
  · rename_i gates
    exact restoreIntent_plans h gates.1 gates.2 hp
  · rename_i gates
    apply restoreIntent_gated h
    grind

/-- A recommendation that asks for nothing to be persisted, and for no evidence. -/
theorem agrees_of_rest {r : Record} {c : Context} (next : (startup .present r c).next = none)
    (evidence : (startup .present r c).action ≠ .failureEvidenceRequired)
    (restore : (startup .present r c).action = .restoreRequired →
      if safe c false true ∧ operationWindow r c then RestorePlanned r c
      else restoreIntent r c = result .blockedUnknown .safety)
    (error : (startup .present r c).error ≠ .sequence) : StartupAgrees r c where
  claim := by simp [next]
  evidence h := absurd h evidence
  restore := restore
  noSequence := ⟨error, restoreIntent_error r c, fun d =>
    ⟨interruptedEvidence_error r c d, rejectedStartupEvidence_error r c d⟩⟩

/-- A recommendation to record evidence. -/
theorem agrees_of_evidence {r : Record} {c : Context} {e : Error}
    (start : startup .present r c = result .failureEvidenceRequired e) (he : e ≠ .sequence)
    (evidence : ∀ d, nonzero d = true →
      (r.phase = .captureClaimed ∧ Accepts r (interruptedEvidence r c d)) ∨
        (r.phase = .handedOff ∧ Accepts r (rejectedStartupEvidence r c d))) :
    StartupAgrees r c where
  claim := by simp [start]
  evidence _ := evidence
  restore h := by simp [start] at h
  noSequence := ⟨by simpa [start] using he, restoreIntent_error r c, fun d =>
    ⟨interruptedEvidence_error r c d, rejectedStartupEvidence_error r c d⟩⟩

private theorem agrees_of_claim {r : Record} {c : Context}
    (start : startup .present r c = persist (claimed r c))
    (claim : transition r (claimed r c) = true) : StartupAgrees r c where
  claim := by simp [start, claim]
  evidence h := by simp [start] at h
  restore h := by simp [start] at h
  noSequence := ⟨by simp [start], restoreIntent_error r c, fun d =>
    ⟨interruptedEvidence_error r c d, rejectedStartupEvidence_error r c d⟩⟩

theorem agrees_handedOff {r : Record} {c : Context} (h : checked r c = .none)
    (hp : r.phase = .handedOff) : StartupAgrees r c := by
  have known := checked_eq_none h
  have start : startup .present r c = startupHandedOff r c := by
    simp [startup_of_checked h, hp]
  obtain ⟨same, next, error, evidence⟩ | ⟨other, ⟨claim, moves⟩ | ⟨late, recorded⟩⟩ :=
    startupHandedOff_cases known.1 hp known.2.1
  · have plan := restore_of_checked h (by simp [hp, follows, same])
    apply agrees_of_rest <;> simp_all
  · exact agrees_of_claim (start.trans claim) moves
  · have accepted : ∀ d, nonzero d = true →
        (r.phase = .captureClaimed ∧ Accepts r (interruptedEvidence r c d)) ∨
          (r.phase = .handedOff ∧ Accepts r (rejectedStartupEvidence r c d)) :=
      fun d hd => .inr ⟨hp, rejectedStartupEvidence_accepts h hp other late hd⟩
    cases recorded with
    | inl recorded => exact agrees_of_evidence (start.trans recorded) (by decide) accepted
    | inr recorded => exact agrees_of_evidence (start.trans recorded) (by decide) accepted

private theorem agrees_armed {r : Record} {c : Context} (h : checked r c = .none)
    (hp : r.phase = .armed) : StartupAgrees r c := by
  have start : startup .present r c = startupArmed r c := by
    simp [startup_of_checked h, hp]
  have plan := restore_of_checked h (by simp [hp, follows])
  apply agrees_of_rest <;> rw [start] <;> simp only [startupArmed] <;>
    grind [result_action, result_error, result_next]

/-- Every evidence record startup asks for is accepted; a required restore is planned
exactly when the restore gates hold, and otherwise refused for safety. -/
theorem startup_agrees (r : Record) (c : Context) : StartupAgrees r c := by
  by_cases h : checked r c = .none
  · cases hp : r.phase with
    | armed => exact agrees_armed h hp
    | handedOff => exact agrees_handedOff h hp
    | captureClaimed =>
      have start : startup .present r c = result .failureEvidenceRequired .evidence := by
        simp [startup_of_checked h, hp]
      apply agrees_of_evidence start (by decide)
      intro d hd
      exact .inl ⟨hp, interruptedEvidence_accepts h hp hd⟩
    | captured | captureFailed | restoring =>
      have plan := restore_of_checked h (by simp [hp, follows])
      apply agrees_of_rest <;> simp_all [startup_of_checked h]
    | restored | blockedUnknown =>
      apply agrees_of_rest <;> simp [startup_of_checked h, hp]
    | unlisted => exact absurd hp (phase_ne_unlisted (checked_eq_none h).1)
  · obtain ⟨e, start, he⟩ := startup_of_refused h
    apply agrees_of_rest <;> simp [start, he]

def sampleBinding : Binding :=
  { mac := Vector.replicate 6 2, originalGctGeneration := 1, originalGctEpoch := 1,
    nonce := Vector.replicate 16 1, slotHashes := (Vector.replicate 32 1, Vector.replicate 32 2),
    source131ReceiptDigest := Vector.replicate 32 1 }

def sampleBoot (n : UInt8) : BootToken := { nonce := Vector.replicate 16 n, verified := true }

def armedSample : Record :=
  { binding := sampleBinding, sequence := 1, armedBoot := sampleBoot 1 }

def safeSample : Safety :=
  { identityVerified := true, originalGctBindingVerified := true, securityKnown := true,
    operationKnownSafeForInspection := true, durableAuthenticatedSource131 := true,
    reviewedOwned3Model := true, twoRecoverySlotsSdkValid := true, sealed := true, cfg0 := true,
    cal0 := true, voltageMv := 4100, temperatureDK := 2980 }

def lateRestart : Context :=
  { expected := sampleBinding, boot := sampleBoot 2, nowMs := 120000, safety := safeSample,
    startupKind := .powerOn, recordDurable := true }

theorem restore_not_always_planned :
    ¬ ∀ (r : Record) (c : Context), shape r = true →
      (startup .present r c).action = .restoreRequired → RestorePlanned r c := by
  intro planned
  have given := planned armedSample lateRestart (by decide) (by decide)
  have refused : restoreIntent armedSample lateRestart = result .blockedUnknown .safety := by
    decide
  obtain ⟨next, accepted, -⟩ | ⟨-, waiting⟩ := given
  · rw [refused] at accepted
    cases accepted
  · rw [refused] at waiting
    cases waiting

end Mosaico.Gauge.ColdTrial
