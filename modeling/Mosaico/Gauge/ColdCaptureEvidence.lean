import Mosaico.Gauge.ColdStartup

/-! `captureEvidence` as one step on the session: what a refusal leaves and what an accepted
outcome asks to persist. -/
namespace Mosaico.Gauge.ColdTrial

section
attribute [local simp] transition shape reachableSequence phaseShape hasClaim ownedOutcome
  terminal createsClaim sameClaim sameEvidence addsEvidence follows unclaimedFailure
  knownFailure handed

variable {r : Record} {captured : CaptureResult} {d : Digest}

theorem transition_success (h : shape r = true) (hp : r.phase = .captureClaimed)
    (hd : nonzero d = true) : transition r (withEvidence r .success d) = true := by
  simp [withEvidence, hp, hd] at *
  grind

theorem transition_failure (h : shape r = true) (hp : r.phase = .captureClaimed)
    (hd : nonzero d = true) (known : knownFailure captured = true)
    (owned : unclaimedFailure captured = false) :
    transition r (withEvidence r captured d) = true := by
  cases captured <;> simp [withEvidence, hp, hd] at * <;> grind

/-- A failure before the claim does not fit a claimed record. -/
theorem transition_unclaimed (h : shape r = true) (hp : r.phase = .captureClaimed)
    (unclaimed : unclaimedFailure captured = true) :
    transition r (withEvidence r captured d) = false := by
  cases captured <;> simp [withEvidence, hp] at * <;> grind

end

variable {r : Record} {c : Context} {s : Session} {captured : CaptureResult} {d : Digest}

/-- A refusal leaves the session, the latch apart, and with it every later outcome that is
accepted; an accepted outcome is a transition of the durable record. -/
structure Atomic (r : Record) (s : Session) (out : Decision × Session) : Prop where
  refused : out.1.action ≠ .persistRecord → { out.2 with blocked := s.blocked } = s
  open_ : out.1.action ≠ .persistRecord → out.2.blocked = false → ∀ c captured d,
    (captureEvidence r c s captured d).1.action = .persistRecord →
      (captureEvidence r c out.2 captured d).1.action = .persistRecord
  accepted : out.1.action = .persistRecord →
    (∃ next, out.1.next = some next ∧ shape next = true ∧ transition r next = true) ∧
      out.2.captureFinished = true

/-- The outcome may belong to a claim of this boot, or nothing is looked at. -/
def Fits (r : Record) (c : Context) (s : Session) (captured : CaptureResult) (d : Digest) : Prop :=
  unclaimedFailure captured = true → checked r c ≠ .none ∨ s.blocked = true ∨
    r.phase ≠ .captureClaimed ∨ sameBoot r.claimedBoot c.boot = false ∨ s.claimReleased = false ∨
      s.captureFinished = true ∨ nonzero d = false

theorem atomic_kept {a : Action} {e : Error} (other : a ≠ .persistRecord) :
    Atomic r s (result a e, s) where
  refused _ := rfl
  open_ _ _ _ _ _ accepted := accepted
  accepted same := absurd same other

theorem atomic_blocked {e : Error} : Atomic r s (block s e) where
  refused _ := rfl
  open_ _ unlatched := by cases unlatched
  accepted same := by cases same

private theorem atomic_persisted {next : Record} (h : transition r next = true) :
    Atomic r s (persist next, { s with captureFinished := true }) where
  refused other := absurd rfl other
  open_ other := absurd rfl other
  accepted _ := ⟨⟨next, rfl, (shapes_of_transition h).2, h⟩, rfl⟩

/-- A refused outcome that ends the capture is not atomic. -/
theorem not_atomic_ended {a : Action} {e : Error} (other : a ≠ .persistRecord)
    (unfinished : s.captureFinished = false) :
    ¬ Atomic r s (result a e, { s with captureFinished := true }) := by
  intro atomic
  have same := congrArg Session.captureFinished (atomic.refused other)
  rw [unfinished] at same
  cases same

/-- `captureEvidence` is atomic unless a claim of this boot is given a failure before the claim. -/
theorem captureEvidence_atomic_iff (r : Record) (c : Context) (s : Session) (captured : CaptureResult)
    (d : Digest) : Atomic r s (captureEvidence r c s captured d) ↔ Fits r c s captured d := by
  unfold captureEvidence
  dsimp only
  split
  · rename_i unknown
    refine iff_of_true (atomic_kept (by decide)) ?_
    intro _
    cases unknown with
    | inl refused => exact .inl refused
    | inr latched => exact .inr (.inl latched)
  rename_i known
  simp only [not_or, not_not, Bool.not_eq_true] at known
  obtain ⟨sound, unlatched⟩ := known
  split
  · rename_i unclaimed
    refine iff_of_true (atomic_kept (by decide)) ?_
    intro failure
    have listed : (captured == .success || knownFailure captured) = true := by
      cases captured <;> first | rfl | cases failure
    rw [listed] at unclaimed
    simp only [Bool.not_true, Bool.false_eq_true, or_false, Bool.not_eq_true'] at unclaimed
    exact .inr (.inr unclaimed)
  rename_i gates
  simp only [not_or, not_not, Bool.not_eq_true, Bool.not_eq_true', Bool.not_eq_false] at gates
  obtain ⟨claimed, here, released, unfinished, digested, listed⟩ := gates
  have whole := (checked_eq_none sound).1
  split
  · rename_i late
    refine iff_of_true (atomic_kept (by decide)) ?_
    intro failure
    rw [late.1] at failure
    cases failure
  split
  · rename_i unsafe_
    apply iff_of_true atomic_blocked
    intro failure
    rw [unsafe_.1] at failure
    cases failure
  cases failure : unclaimedFailure captured with
  | true =>
    rw [persistAfter, transition_unclaimed whole claimed failure, if_neg Bool.false_ne_true]
    refine iff_of_false (not_atomic_ended (by decide) unfinished) ?_
    intro fits
    have refused := fits failure
    simp [sound, unlatched, claimed, here, released, unfinished, digested] at refused
  | false =>
    have follows_ : transition r (withEvidence r captured d) = true := by
      by_cases success : captured = .success
      · rw [success]
        exact transition_success whole claimed digested
      · have known : knownFailure captured = true := by
          simpa [success] using listed
        exact transition_failure whole claimed digested known failure
    rw [persistAfter, follows_, if_pos rfl]
    apply iff_of_true (atomic_persisted follows_)
    intro unclaimed
    rw [failure] at unclaimed
    cases unclaimed

def claimedSample : Record :=
  { armedSample with sequence := 3, phase := .captureClaimed, claimedBoot := sampleBoot 2 }

/-- A startup that would be rejected ends the capture of the claim that is there. -/
theorem captureEvidence_not_atomic :
    ¬ ∀ (r : Record) (c : Context) (s : Session) (captured : CaptureResult) (d : Digest),
      Atomic r s (captureEvidence r c s captured d) := by
  intro atomic
  have given := atomic claimedSample lateRestart { claimReleased := true } .rejectedStartup
    (Vector.replicate 32 1)
  have ended : captureEvidence claimedSample lateRestart { claimReleased := true } .rejectedStartup
      (Vector.replicate 32 1) =
        (result .blockedUnknown .sequence, { claimReleased := true, captureFinished := true }) := by
    decide
  rw [ended] at given
  exact not_atomic_ended (by decide) rfl given

end Mosaico.Gauge.ColdTrial
