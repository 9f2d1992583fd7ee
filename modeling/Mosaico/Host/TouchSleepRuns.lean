import Mosaico.Host.TouchSleep

/-! The trial over whole runs: what every order of calls keeps of the model, the bus and the
admissions. -/
namespace Mosaico.Host.TouchSleep

variable {m : Model} {s : System} {now rc : Int}

/-- The flags that only the echo of a mode changes. -/
structure Kin (m m' : Model) : Prop where
  dirty : m'.dirty = m.dirty
  consumed : m'.consumed = m.consumed
  verified : m'.normalVerified = m.normalVerified

theorem kin_restore (m : Model) (now : Int) : Kin m (m.restore now) := by
  unfold Model.restore
  split
  · exact ⟨rfl, rfl, rfl⟩
  · split <;> exact ⟨rfl, rfl, rfl⟩

theorem kin_fail (m : Model) (now rc : Int) : Kin m (m.fail now rc) := by
  obtain ⟨-, verified, -, dirty, consumed⟩ := noteError_keeps m rc
  unfold Model.fail
  dsimp only
  split
  · exact ⟨dirty, consumed, verified⟩
  · split
    · have later := kin_restore (m.noteError rc) now
      exact ⟨later.dirty.trans dirty, later.consumed.trans consumed, later.verified.trans verified⟩
    · exact ⟨dirty, consumed, verified⟩

theorem kin_overdue (m : Model) (now : Int) : Kin m (m.overdue now) := by
  unfold Model.overdue
  split
  · exact ⟨rfl, rfl, rfl⟩
  · exact kin_fail m now (-3)

theorem kin_tick (m : Model) (now : Int) (needed : Bool) : Kin m (m.tick now needed) := by
  unfold Model.tick
  dsimp only
  have first : Kin m (if needed = true ∨ m.phase = .sleepRequested ∧ m.leaseUntilUs ≤ now
      then m.restore now else m) := by
    split
    · exact kin_restore m now
    · exact ⟨rfl, rfl, rfl⟩
  generalize (if needed = true ∨ m.phase = .sleepRequested ∧ m.leaseUntilUs ≤ now then m.restore now
    else m) = m₁ at first ⊢
  have second : Kin m₁ (if m₁.underWay = true ∧ m₁.restoreDeadlineUs ≤ now then m₁.overdue now else m₁) := by
    split
    · exact kin_overdue m₁ now
    · exact ⟨rfl, rfl, rfl⟩
  generalize (if m₁.underWay = true ∧ m₁.restoreDeadlineUs ≤ now then m₁.overdue now else m₁) =
    m₂ at second ⊢
  have both : Kin m m₂ :=
    ⟨second.dirty.trans first.dirty, second.consumed.trans first.consumed, second.verified.trans first.verified⟩
  split
  · exact ⟨both.dirty, both.consumed, both.verified⟩
  · exact both

theorem advance_flags (m : Model) (now : Int) (observed : UInt8) (released : Bool) :
    (m.advance now observed released).dirty = m.dirty ∧
      (m.advance now observed released).consumed = m.consumed ∧
      ((m.advance now observed released).normalVerified = true →
        m.normalVerified = true ∨ (m.phase = .modeEcho ∧ m.restoring = true ∧ observed = 0x09)) := by
  unfold Model.advance
  split
  · exact ⟨rfl, rfl, .inl⟩
  · exact ⟨rfl, rfl, .inl⟩
  · exact ⟨rfl, rfl, .inl⟩
  · dsimp only
    split
    · have failed := kin_fail { m with echo := observed } now (-2)
      exact ⟨failed.dirty, failed.consumed, fun h => .inl (failed.verified.symm.trans h)⟩
    · exact ⟨rfl, rfl, .inl⟩
  · exact ⟨rfl, rfl, .inl⟩
  · rename_i phase
    dsimp only
    generalize mode : (if m.restoring = true then (0x09 : UInt8) else 0x01) = wanted
    split
    · have failed := kin_fail { m with echo := observed } now (-2)
      exact ⟨failed.dirty, failed.consumed, fun h => .inl (failed.verified.symm.trans h)⟩
    · rename_i same
      refine ⟨rfl, rfl, fun (restoring : m.restoring = true) => .inr ⟨phase, restoring, ?_⟩⟩
      rw [if_pos restoring] at mode
      rw [mode]
      simpa using same
  · exact ⟨rfl, rfl, .inl⟩
  · dsimp only
    split <;> exact ⟨rfl, rfl, .inl⟩
  · exact ⟨rfl, rfl, .inl⟩

theorem complete_flags (m : Model) (now rc : Int) (observed : UInt8) (released : Bool) :
    (m.complete now rc observed released).dirty = m.dirty ∧
      (m.complete now rc observed released).consumed = m.consumed ∧
      ((m.complete now rc observed released).normalVerified = true → m.normalVerified = true ∨
        (m.phase = .modeEcho ∧ m.restoring = true ∧ rc = 0 ∧ observed = 0x09)) := by
  unfold Model.complete
  dsimp only
  split
  · have failed := kin_fail { m with lastI2cError := rc } now rc
    exact ⟨failed.dirty, failed.consumed, fun h => .inl (failed.verified.symm.trans h)⟩
  · rename_i success
    split
    · have late := kin_overdue { m with lastI2cError := rc } now
      exact ⟨late.dirty, late.consumed, fun h => .inl (late.verified.symm.trans h)⟩
    · obtain ⟨dirty, consumed, verified⟩ := advance_flags { m with lastI2cError := rc } now observed released
      refine ⟨dirty, consumed, fun h => ?_⟩
      rcases verified h with before | ⟨phase, restoring, byte⟩
      · exact .inl before
      · exact .inr ⟨phase, restoring, by simpa using success, byte⟩

/-- What every run keeps. -/
structure Kept (s : System) : Prop where
  model : Sound s.model
  wrote : ∀ command, .wrote command ∈ s.bus → s.model.dirty = true
  echoed : s.model.normalVerified = true → .ended .modeEcho true 0 0x09 ∈ s.bus
  accepted : s.accepted = if s.model.consumed then 1 else 0
  reserved : s.reserved = s.admission.touchReserved
  counted : s.admission.otaInFlight = s.admitted
  apart : s.admission.touchReserved = true → s.admitted = 0

private theorem request_of_unused (unused : m.consumed = false) (off : m.phase = .off) (now : Int) :
    m.request now = ({ m with consumed := true, phase := .probe, startedUs := now,
                              entryAttempts := m.entryAttempts + 1, revision := m.revision + 1 }, true) := by
  rw [Model.request, if_neg]
  simp [unused, Model.critical, off, Phase.critical]

theorem kept_request120 (h : Kept s) (refused busy : Bool) (now : Int) : Kept (s.request120 refused busy now) := by
  unfold System.request120
  split
  · exact h
  · rename_i first
    have unused : s.model.consumed = false := by
      simp only [not_or, Bool.not_eq_true] at first
      exact first.2
    have fresh := h.model.fresh unused
    unfold AdmissionModel.reserveTouch
    rw [request_of_unused unused fresh.1]
    by_cases against : busy = true ∨ s.admission.touchReserved = true ∨ s.admission.otaInFlight ≠ 0
    · rw [if_pos against]
      exact h
    · rw [if_neg against]
      simp only [not_or, not_not] at against
      refine ⟨⟨nofun, nofun, ?_, nofun, h.model.restored, nofun, h.model.verified, nofun, nofun⟩,
        h.wrote, h.echoed, ?_, rfl, h.counted, ?_⟩
      · intro _
        cases restoring : s.model.restoring with
        | false => rfl
        | true => exact absurd (h.model.restored restoring) (by simp [fresh.2])
      · have none := h.accepted
        rw [unused] at none
        simpa using none
      · exact fun _ => h.counted.symm.trans against.2.2

theorem kept_enterOta (h : Kept s) : Kept s.enterOta := by
  unfold System.enterOta AdmissionModel.enterOta
  by_cases reserved : s.admission.touchReserved = true
  · rw [if_pos reserved]
    exact ⟨h.model, h.wrote, h.echoed, h.accepted, h.reserved, h.counted, h.apart⟩
  · rw [if_neg reserved]
    exact ⟨h.model, h.wrote, h.echoed, h.accepted, h.reserved, congrArg (· + 1) h.counted,
      fun other => absurd other reserved⟩

theorem kept_leaveOta (h : Kept s) : Kept s.leaveOta := by
  unfold System.leaveOta
  split
  · exact h
  · refine ⟨h.model, h.wrote, h.echoed, h.accepted, h.reserved, congrArg (· - 1) h.counted, fun reserved => ?_⟩
    change s.admitted - 1 = 0
    rw [h.apart reserved]

theorem kept_tick (h : Kept s) (locked conflict : Bool) (now : Int) : Kept (s.tick locked conflict now) := by
  have kin := kin_tick s.model now (s.needRestore || !locked || conflict)
  refine ⟨sound_tick h.model _, fun command wrote => kin.dirty.trans (h.wrote command wrote), ?_, ?_, h.reserved,
    h.counted, h.apart⟩
  · exact fun verified => h.echoed (kin.verified.symm.trans verified)
  · exact h.accepted.trans (by rw [System.tick, kin.consumed])

theorem kept_act (h : Kept s) (critical : s.model.critical = true) (a : Answer) : Kept (s.act a) := by
  by_cases command : s.model.writeCommand ≠ 0
  · have acted : s.act a = { s with
        model := s.model.beforeWrite.complete a.now a.rc a.observed a.released
        bus := .ended s.model.phase s.model.restoring a.rc a.observed :: .wrote s.model.writeCommand :: s.bus } := by
      simp only [System.act, if_pos command]
    obtain ⟨dirty, consumed, verified⟩ := complete_flags s.model.beforeWrite a.now a.rc a.observed a.released
    rw [acted]
    refine ⟨sound_complete (sound_beforeWrite h.model command) critical (fun _ => rfl) _ _, fun _ _ => dirty, ?_, ?_,
      h.reserved, h.counted, h.apart⟩
    · intro echo
      rcases verified echo with before | ⟨phase, -, -, -⟩
      · exact List.mem_cons_of_mem _ (List.mem_cons_of_mem _ (h.echoed before))
      · rw [Model.writeCommand, show s.model.phase = .modeEcho from phase] at command
        exact absurd rfl command
    · exact h.accepted.trans (by rw [consumed]; rfl)
  · have acted : s.act a = { s with
        model := Model.complete { s.model with reads := s.model.reads + 1 } a.now a.rc a.observed a.released
        bus := .ended s.model.phase s.model.restoring a.rc a.observed :: s.bus } := by
      simp only [System.act, if_neg command]
    obtain ⟨dirty, consumed, verified⟩ :=
      complete_flags { s.model with reads := s.model.reads + 1 } a.now a.rc a.observed a.released
    have read : Sound { s.model with reads := s.model.reads + 1 } :=
      ⟨h.model.settle, h.model.verify, h.model.entry, h.model.reboot, h.model.restored, h.model.asleep,
        h.model.verified, h.model.left, h.model.fresh⟩
    rw [acted]
    refine ⟨sound_complete read critical ?_ _ _, ?_, ?_, ?_, h.reserved, h.counted, h.apart⟩
    · intro phase
      rw [Model.writeCommand, show s.model.phase = .sleepWrite from phase] at command
      exact absurd (show (0xD105 : UInt16) ≠ 0 by decide) command
    · intro command wrote
      refine dirty.trans (h.wrote command ?_)
      simpa using wrote
    · intro echo
      rcases verified echo with before | ⟨phase, restoring, rc, byte⟩
      · exact List.mem_cons_of_mem _ (h.echoed before)
      · rw [show s.model.phase = .modeEcho from phase, show s.model.restoring = true from restoring, rc, byte]
        exact List.mem_cons_self
    · exact h.accepted.trans (by rw [consumed])

private theorem kept_finish (h : Kept s) (a : Answer) : Kept (s.finish a) := by
  unfold System.finish
  split
  · cases reserved : s.reserved with
    | true =>
      exact ⟨h.model, h.wrote, h.echoed, h.accepted, rfl, h.counted, nofun⟩
    | false =>
      exact ⟨h.model, h.wrote, h.echoed, h.accepted, reserved.symm.trans h.reserved, h.counted, h.apart⟩
  · rename_i critical
    split
    · exact h
    · exact kept_act h (by simpa using critical) a

theorem kept_step (h : Kept s) (input : Input) : Kept (s.step input) := by
  cases input with
  | request120 refused busy now => exact kept_request120 h refused busy now
  | off => exact ⟨h.model, h.wrote, h.echoed, h.accepted, h.reserved, h.counted, h.apart⟩
  | wakeRequested =>
    unfold System.step
    dsimp only
    split
    · exact ⟨h.model, h.wrote, h.echoed, h.accepted, h.reserved, h.counted, h.apart⟩
    · exact h
  | enterOta => exact kept_enterOta h
  | leaveOta => exact kept_leaveOta h
  | tick locked conflict now => exact kept_tick h locked conflict now
  | finish a => exact kept_finish h a

theorem run_concat (inputs : List Input) (input : Input) : run (inputs ++ [input]) = (run inputs).step input := by
  simp [run]

theorem kept_run (inputs : List Input) : Kept (run inputs) := by
  induction inputs using List.reverseRecOn with
  | nil =>
    refine ⟨⟨nofun, nofun, ?_, nofun, nofun, nofun, nofun, nofun, fun _ => ⟨rfl, rfl⟩⟩, nofun,
      nofun, rfl, rfl, rfl, nofun⟩
    rintro (other | other | other) <;> cases other
  | append_singleton inputs input ih =>
    rw [run_concat]
    exact kept_step ih input

theorem not_asleep_restore (h : Sound m) (critical : m.critical = true) (entry : m.restoring = false)
    (now : Int) : (m.restore now).phase ≠ .sleepRequested := by
  have pending : m.phase ≠ .rebootPending := fun reboot => by
    rw [h.reboot reboot] at entry
    cases entry
  unfold Model.restore
  rw [if_neg (by simp [critical, entry, pending])]
  split <;> nofun

theorem phase_fail (restoring : m.restoring = true) (now rc : Int) : (m.fail now rc).phase = .rebootPending := by
  unfold Model.fail
  dsimp only
  rw [if_pos ((noteError_keeps m rc).2.2.1.trans restoring)]

theorem phase_overdue (restoring : m.restoring = true) (now : Int) :
    (m.overdue now).phase = .heldClosed ∨ (m.overdue now).phase = .rebootPending := by
  unfold Model.overdue
  split
  · exact .inl rfl
  · exact .inr (phase_fail restoring now (-3))

private theorem restore_restoring (restoring : m.restoring = true) (now : Int) : m.restore now = m := by
  rw [Model.restore, if_pos (.inr (.inl restoring))]

theorem phase_tick_of_overdue (restoring : m.restoring = true) (critical : m.critical = true)
    (late : m.restoreDeadlineUs ≤ now) (needed : Bool) :
    (m.tick now needed).phase = .heldClosed ∨ (m.tick now needed).phase = .rebootPending := by
  unfold Model.tick
  dsimp only
  rw [restore_restoring restoring, ite_self]
  by_cases pending : m.phase = .rebootPending
  · have stays : (if m.underWay = true ∧ m.restoreDeadlineUs ≤ now then m.overdue now else m) = m :=
      if_neg (by simp [Model.underWay, pending])
    rw [stays, if_neg (by simp [pending])]
    exact .inr pending
  · have ends : (if m.underWay = true ∧ m.restoreDeadlineUs ≤ now then m.overdue now else m) = m.overdue now :=
      if_pos ⟨by simp [Model.underWay, restoring, critical, pending], late⟩
    rw [ends]
    rcases phase_overdue restoring now with held | reboot
    · rw [if_neg (by simp [held])]
      exact .inl held
    · rw [if_neg (by simp [reboot])]
      exact .inr reboot

theorem phase_complete_of_overdue (restoring : m.restoring = true) (critical : m.critical = true)
    (late : m.restoreDeadlineUs ≤ now) (rc : Int) (observed : UInt8) (released : Bool) :
    (m.complete now rc observed released).phase = .heldClosed ∨
      (m.complete now rc observed released).phase = .rebootPending := by
  have same : ({ m with lastI2cError := rc } : Model).restoring = true := restoring
  unfold Model.complete
  dsimp only
  split
  · exact .inr (phase_fail same now rc)
  · by_cases pending : m.phase = .rebootPending
    · rw [if_neg (by simp [Model.underWay, pending])]
      exact .inr (by simp [Model.advance, pending])
    · rw [if_pos ⟨by simp [Model.underWay, restoring, pending, show m.phase.critical = true from critical,
        Model.critical], late⟩]
      exact phase_overdue same now

/-- After the lease only a restore is left. -/
theorem not_asleep_tick (h : Sound m) (lease : m.leaseUntilUs ≤ now) (needed : Bool) :
    (m.tick now needed).phase ≠ .sleepRequested := by
  unfold Model.tick
  dsimp only
  have first : (if needed = true ∨ m.phase = .sleepRequested ∧ m.leaseUntilUs ≤ now then m.restore now else m).phase
      ≠ .sleepRequested := by
    split
    · by_cases asleep : m.phase = .sleepRequested
      · exact not_asleep_restore h (by simp [Model.critical, asleep, Phase.critical])
          (h.entry (.inr (.inr asleep))) now
      · unfold Model.restore
        split
        · exact asleep
        · split <;> simp
    · rename_i stays
      exact fun asleep => stays (.inr ⟨asleep, lease⟩)
  generalize (if needed = true ∨ m.phase = .sleepRequested ∧ m.leaseUntilUs ≤ now then m.restore now
    else m) = m₁ at first ⊢
  have second : (if m₁.underWay = true ∧ m₁.restoreDeadlineUs ≤ now then m₁.overdue now
      else m₁).phase ≠ .sleepRequested := by
    split
    · rename_i late
      rcases phase_overdue (critical_of_underWay late.1).1 now with held | reboot
      · simp [held]
      · simp [reboot]
    · exact first
  generalize (if m₁.underWay = true ∧ m₁.restoreDeadlineUs ≤ now then m₁.overdue now else m₁) =
    m₂ at second ⊢
  split
  · cases restoring : m₂.restoring <;> simp
  · exact second

private theorem tick_of_pending (pending : m.phase = .rebootPending) (now : Int) (needed : Bool) :
    m.tick now needed = m := by
  have kept : m.restore now = m := by rw [Model.restore, if_pos (.inr (.inr pending))]
  unfold Model.tick
  dsimp only
  have stays : (if m.underWay = true ∧ m.restoreDeadlineUs ≤ now then m.overdue now else m) = m :=
    if_neg (by simp [Model.underWay, pending])
  rw [kept, ite_self, stays, if_neg (by simp [pending])]

theorem step_of_pending (h : Kept s) (pending : s.model.phase = .rebootPending) (input : Input) :
    (s.step input).model = s.model := by
  have critical : s.model.critical = true := by simp [Model.critical, pending, Phase.critical]
  cases input with
  | request120 refused busy now =>
    have used := used_of_critical h.model critical
    simp only [System.step, System.request120, used, or_true, if_true]
  | off => rfl
  | wakeRequested =>
    unfold System.step
    dsimp only
    split <;> rfl
  | enterOta =>
    unfold System.step System.enterOta
    dsimp only
    split <;> rfl
  | leaveOta =>
    unfold System.step System.leaveOta
    dsimp only
    split <;> rfl
  | tick locked conflict now => exact tick_of_pending pending now _
  | finish a =>
    unfold System.step System.finish
    dsimp only
    rw [if_neg (by simp [critical]), if_pos (.inr (.inr pending))]

theorem run_of_pending (inputs more : List Input) (pending : (run inputs).model.phase = .rebootPending) :
    (run (inputs ++ more)).model = (run inputs).model := by
  induction more using List.reverseRecOn with
  | nil => rw [List.append_nil]
  | append_singleton more input ih =>
    rw [← List.append_assoc, run_concat, step_of_pending (kept_run _) (by rw [ih]; exact pending), ih]

/-- What a trial that has written to the controller has read back when it is over, what each deadline
forces, and what the admissions exclude, in every run. The restore deadline forces the end of a
restore that is still under way. -/
theorem trial_restores :
    (∀ inputs command, .wrote command ∈ (run inputs).bus → (run inputs).model.critical = false →
      .ended .modeEcho true 0 0x09 ∈ (run inputs).bus) ∧
    (∀ inputs now needed, (run inputs).model.leaseUntilUs ≤ now →
      ((run inputs).model.tick now needed).phase ≠ .sleepRequested) ∧
    (∀ (m : Model) now needed, m.restoring = true → m.critical = true → m.restoreDeadlineUs ≤ now →
      (m.tick now needed).phase = .heldClosed ∨ (m.tick now needed).phase = .rebootPending) ∧
    (∀ (m : Model) now rc observed released, m.restoring = true → m.critical = true → m.restoreDeadlineUs ≤ now →
      (m.complete now rc observed released).phase = .heldClosed ∨
        (m.complete now rc observed released).phase = .rebootPending) ∧
    (∀ inputs more, (run inputs).model.phase = .rebootPending →
      (run (inputs ++ more)).model.phase = .rebootPending ∧
        (run (inputs ++ more)).model.deadlineUs = (run inputs).model.deadlineUs) ∧
    (∀ inputs, (run inputs).accepted ≤ 1) ∧
    (∀ inputs, ((run inputs).reserved = true ∨ (run inputs).admission.touchReserved = true) →
      (run inputs).admitted = 0) := by
  refine ⟨?_, ?_, ?_, ?_, ?_, ?_, ?_⟩
  · intro inputs command wrote left
    have kept := kept_run inputs
    exact kept.echoed (kept.model.left (kept.wrote command wrote) left)
  · exact fun inputs now needed lease => not_asleep_tick (kept_run inputs).model lease needed
  · exact fun m now needed restoring critical late => phase_tick_of_overdue restoring critical late needed
  · exact fun m now rc observed released restoring critical late =>
      phase_complete_of_overdue restoring critical late rc observed released
  · intro inputs more pending
    rw [run_of_pending inputs more pending]
    exact ⟨pending, rfl⟩
  · intro inputs
    rw [(kept_run inputs).accepted]
    split <;> decide
  · intro inputs reserved
    have kept := kept_run inputs
    rw [kept.reserved, or_self] at reserved
    exact kept.apart reserved

def answered (now : Int) (observed : UInt8) : Input :=
  .finish { rc := 0, observed := observed, released := true, now := now }

/-- A trial ended by hand after its first command, whose restore succeeds in time. -/
def restoredTrial : List Input :=
  [.request120 false false 0, answered 1 0, answered 2 0, .off, .tick true false 3, answered 4 0, answered 5 0,
    answered 6 0x1E, answered 7 0, answered 8 0x09, .tick true false 10008, answered 10009 0]

/-- A restore that has ended in time is not undone by its deadline. -/
theorem restored_trial_stays_complete :
    ¬ ∀ inputs now needed, (run inputs).model.restoring = true → (run inputs).model.restoreDeadlineUs ≤ now →
      ((run inputs).model.tick now needed).phase = .heldClosed ∨
        ((run inputs).model.tick now needed).phase = .rebootPending := by
  intro always
  have after := always restoredTrial 5000003 false (by decide) (by decide)
  revert after
  decide

theorem trial_restores_restored :
    (run restoredTrial).model.phase = .complete ∧ .ended .modeEcho true 0 0x09 ∈ (run restoredTrial).bus := by
  refine ⟨by decide, ?_⟩
  exact trial_restores.1 restoredTrial 0xD11E (by decide) (by decide)

end Mosaico.Host.TouchSleep
