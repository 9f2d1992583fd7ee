import Mosaico.Host.TouchSleepModel
import Mathlib.Data.List.Induction
import Mathlib.Order.Defs.LinearOrder

/-! What a trial keeps over every order of calls and every answer of the bus. -/
namespace Mosaico.Host.TouchSleep

variable {m : Model} {now rc : Int}

/-- The phases, read with the flags that are set in them. -/
structure Sound (m : Model) : Prop where
  settle : m.phase = .settle → m.normalVerified = m.restoring
  verify : m.phase = .verifyRelease → m.restoring = true ∧ m.normalVerified = true
  entry : m.phase = .probe ∨ m.phase = .sleepWrite ∨ m.phase = .sleepRequested → m.restoring = false
  reboot : m.phase = .rebootPending → m.restoring = true
  restored : m.restoring = true → m.dirty = true
  asleep : m.phase = .sleepRequested → m.dirty = true
  verified : m.normalVerified = true → m.restoring = true
  left : m.dirty = true → m.critical = false → m.normalVerified = true
  fresh : m.consumed = false → m.phase = .off ∧ m.dirty = false

theorem used_of_critical (h : Sound m) (critical : m.critical = true) : m.consumed = true := by
  by_contra other
  rw [Model.critical, (h.fresh (by simpa using other)).1] at critical
  cases critical

def Phase.exchange : Phase → Bool
  | .handshake1 | .handshake2 | .handshakeEcho | .modeWrite | .modeEcho => true
  | _ => false

theorem sound_exchange (exchange : m.phase.exchange = true) (restored : m.restoring = true → m.dirty = true)
    (verified : m.normalVerified = true → m.restoring = true) (used : m.consumed = true) : Sound m := by
  have critical : m.critical = true := by
    rw [Model.critical]
    revert exchange
    cases m.phase <;> decide
  have other : ∀ {p : Phase}, p.exchange = false → m.phase ≠ p := by
    rintro p apart rfl
    rw [apart] at exchange
    cases exchange
  refine ⟨fun h => absurd h (other rfl), fun h => absurd h (other rfl), ?_, fun h => absurd h (other rfl),
    restored, fun h => absurd h (other rfl), verified, ?_, ?_⟩
  · rintro (h | h | h) <;> exact absurd h (other rfl)
  · exact fun _ left => by rw [critical] at left; cases left
  · exact fun unused => by rw [used] at unused; cases unused

theorem sound_restore (h : Sound m) : Sound (m.restore now) := by
  unfold Model.restore
  split
  · exact h
  · rename_i here
    simp only [not_or, Bool.not_eq_false] at here
    have used := used_of_critical h here.1
    split
    · rename_i clean
      refine ⟨nofun, nofun, ?_, nofun, h.restored, nofun, h.verified, ?_, ?_⟩
      · rintro (other | other | other) <;> cases other
      · exact fun dirty => by rw [clean] at dirty; cases dirty
      · exact fun unused => by rw [used] at unused; cases unused
    · rename_i dirty
      exact sound_exchange rfl (fun _ => by simpa using dirty) (fun _ => rfl) used

theorem noteError_keeps (m : Model) (rc : Int) : (m.noteError rc).phase = m.phase ∧
    (m.noteError rc).normalVerified = m.normalVerified ∧ (m.noteError rc).restoring = m.restoring ∧
      (m.noteError rc).dirty = m.dirty ∧ (m.noteError rc).consumed = m.consumed := by
  unfold Model.noteError
  dsimp only
  split <;> exact ⟨rfl, rfl, rfl, rfl, rfl⟩

private theorem sound_noteError (h : Sound m) : Sound (m.noteError rc) := by
  unfold Model.noteError
  dsimp only
  split <;> exact ⟨h.settle, h.verify, h.entry, h.reboot, h.restored, h.asleep, h.verified, h.left, h.fresh⟩

theorem sound_fail (h : Sound m) (critical : m.critical = true) : Sound (m.fail now rc) := by
  have noted : Sound (m.noteError rc) := sound_noteError h
  have used : (m.noteError rc).consumed = true := (noteError_keeps m rc).2.2.2.2.trans (used_of_critical h critical)
  unfold Model.fail
  dsimp only
  split
  · rename_i restoring
    refine ⟨nofun, nofun, ?_, fun _ => restoring, noted.restored, nofun, noted.verified, nofun, ?_⟩
    · rintro (other | other | other) <;> cases other
    · exact fun unused => by rw [used] at unused; cases unused
  · split
    · exact sound_restore noted
    · rename_i clean
      refine ⟨nofun, nofun, ?_, nofun, noted.restored, nofun, noted.verified, ?_, ?_⟩
      · rintro (other | other | other) <;> cases other
      · exact fun dirty => absurd dirty clean
      · exact fun unused => by rw [used] at unused; cases unused

theorem sound_overdue (h : Sound m) (critical : m.critical = true) : Sound (m.overdue now) := by
  have used := used_of_critical h critical
  unfold Model.overdue
  split
  · rename_i whole
    refine ⟨nofun, nofun, ?_, nofun, h.restored, nofun, h.verified, fun _ _ => whole.2.1, ?_⟩
    · rintro (other | other | other) <;> cases other
    · exact fun unused => by rw [show m.consumed = false from unused] at used; cases used
  · exact sound_fail h critical

/-- The settling time is over. -/
private theorem sound_settled (h : Sound m) (settle : m.phase = .settle) :
    Sound (m.moveTo (if m.restoring then .verifyRelease else .sleepWrite)) := by
  have same := h.settle settle
  have used := used_of_critical h (by rw [Model.critical, settle]; rfl)
  cases restoring : m.restoring with
  | true =>
    rw [restoring] at same
    refine ⟨nofun, fun _ => ⟨restoring, same⟩, ?_, nofun, h.restored, nofun, h.verified, nofun, ?_⟩
    · rintro (other | other | other) <;> cases other
    · exact fun unused => by rw [show m.consumed = false from unused] at used; cases used
  | false =>
    refine ⟨nofun, nofun, fun _ => restoring, nofun, h.restored, nofun, h.verified, nofun, ?_⟩
    exact fun unused => by rw [show m.consumed = false from unused] at used; cases used

theorem critical_of_underWay (h : m.underWay = true) :
    m.restoring = true ∧ m.critical = true ∧ m.phase ≠ .rebootPending := by
  simpa [Model.underWay, and_assoc] using h

theorem sound_tick (h : Sound m) (needed : Bool) : Sound (m.tick now needed) := by
  unfold Model.tick
  dsimp only
  have first : Sound (if needed = true ∨ m.phase = .sleepRequested ∧ m.leaseUntilUs ≤ now
      then m.restore now else m) := by
    split
    · exact sound_restore h
    · exact h
  generalize (if needed = true ∨ m.phase = .sleepRequested ∧ m.leaseUntilUs ≤ now then m.restore now
    else m) = m₁ at first ⊢
  have second : Sound (if m₁.underWay = true ∧ m₁.restoreDeadlineUs ≤ now then m₁.overdue now else m₁) := by
    split
    · rename_i late
      exact sound_overdue first (critical_of_underWay late.1).2.1
    · exact first
  generalize (if m₁.underWay = true ∧ m₁.restoreDeadlineUs ≤ now then m₁.overdue now else m₁) =
    m₂ at second ⊢
  split
  · rename_i settled
    exact sound_settled second settled.1
  · exact second

theorem sound_beforeWrite (h : Sound m) (command : m.writeCommand ≠ 0) : Sound m.beforeWrite := by
  have critical : m.critical = true := by
    unfold Model.writeCommand at command
    rw [Model.critical]
    revert command
    cases m.phase <;> simp [Phase.critical]
  have used := used_of_critical h critical
  refine ⟨h.settle, h.verify, h.entry, h.reboot, fun _ => rfl, fun _ => rfl, h.verified, ?_, ?_⟩
  · exact fun _ left => by rw [show m.critical = false from left] at critical; cases critical
  · exact fun unused => by rw [show m.consumed = false from unused] at used; cases used

theorem sound_advance (h : Sound m) (critical : m.critical = true)
    (written : m.phase = .sleepWrite → m.dirty = true) (observed : UInt8) (released : Bool) :
    Sound (m.advance now observed released) := by
  have used := used_of_critical h critical
  unfold Model.advance
  split
  · exact sound_exchange rfl h.restored h.verified used
  · exact sound_exchange rfl h.restored h.verified used
  · exact sound_exchange rfl h.restored h.verified used
  · rename_i phase
    dsimp only
    have echoed : Sound { m with echo := observed } :=
      ⟨h.settle, h.verify, h.entry, h.reboot, h.restored, h.asleep, h.verified, h.left, h.fresh⟩
    split
    · exact sound_fail echoed critical
    · exact sound_exchange rfl h.restored h.verified used
  · exact sound_exchange rfl h.restored h.verified used
  · dsimp only
    have echoed : Sound { m with echo := observed } :=
      ⟨h.settle, h.verify, h.entry, h.reboot, h.restored, h.asleep, h.verified, h.left, h.fresh⟩
    generalize (if m.restoring = true then (0x09 : UInt8) else 0x01) = mode
    split
    · exact sound_fail echoed critical
    · refine ⟨fun _ => rfl, nofun, ?_, nofun, h.restored, nofun, fun same => same, nofun, ?_⟩
      · rintro (other | other | other) <;> cases other
      · exact fun unused => by rw [show m.consumed = false from unused] at used; cases used
  · rename_i phase
    have entry := h.entry (.inr (.inl phase))
    refine ⟨nofun, nofun, fun _ => entry, nofun, h.restored, fun _ => written phase, h.verified, nofun, ?_⟩
    exact fun unused => by rw [show m.consumed = false from unused] at used; cases used
  · rename_i phase
    have verify := h.verify phase
    dsimp only
    split
    · exact ⟨h.settle, h.verify, h.entry, h.reboot, h.restored, h.asleep, h.verified, h.left, h.fresh⟩
    · refine ⟨?_, ?_, ?_, fun _ => verify.1, h.restored, ?_, h.verified, fun _ _ => verify.2, ?_⟩
      · exact fun other => by cases failed : m.failed <;> simp [Model.moveTo, failed] at other
      · exact fun _ => verify
      · exact fun other => by cases failed : m.failed <;> simp [Model.moveTo, failed] at other
      · exact fun other => by cases failed : m.failed <;> simp [Model.moveTo, failed] at other
      · exact fun unused => by rw [show m.consumed = false from unused] at used; cases used
  · exact h

theorem sound_complete (h : Sound m) (critical : m.critical = true)
    (written : m.phase = .sleepWrite → m.dirty = true) (observed : UInt8) (released : Bool) :
    Sound (m.complete now rc observed released) := by
  have noted : Sound { m with lastI2cError := rc } :=
    ⟨h.settle, h.verify, h.entry, h.reboot, h.restored, h.asleep, h.verified, h.left, h.fresh⟩
  unfold Model.complete
  dsimp only
  split
  · exact sound_fail noted critical
  · split
    · exact sound_overdue noted critical
    · exact sound_advance noted critical written observed released

end Mosaico.Host.TouchSleep
