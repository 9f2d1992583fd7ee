import Mosaico.Host.StandbySleepModel

/-! Where light sleep is configured and must be kept away, its lock is held; what may allow it, and what
clears the OTA gate. -/
namespace Mosaico.Host.StandbySleep

/-- Acquire and release take turns, the newest first; whether the lock is held now. -/
inductive Alternating : List Bool → Bool → Prop where
  | fresh : Alternating [] false
  | acquire {locks : List Bool} (h : Alternating locks false) : Alternating (true :: locks) true
  | release {locks : List Bool} (h : Alternating locks true) : Alternating (false :: locks) false

/-- No call of the lock fails. -/
structure Outside.LocksFine (o : Outside) : Prop where
  create : o.createError = 0
  lock : o.lockError = 0

/-- The calls that bring the lock up to date. The others change nothing that it depends on. -/
def State.refreshes (s : State) (o : Outside) : Input → Bool
  | .pulseEligible _ | .monitoring | .beforeConfigure _ => false
  | .uartReady value => !value
  | .request seconds => (s.request o seconds).1
  | .enableAutomatic confirmed => (s.enableAutomatic o confirmed).1
  | _ => true

/-- The set-up happens once, and it begins with the lock. -/
structure Sound (s : State) : Prop where
  attempted : s.created = true → s.setupAttempted = true
  set : s.initialized = true → s.created = true

/-- What a call does before it brings the lock up to date. -/
structure Edits (c : Input) (s t : State) : Prop where
  locks : t.locks = s.locks
  held : t.held = s.held
  sound : Sound s → Sound t
  created : Sound s → s.created = true → t.created = true
  gate : (∀ ota ble, c ≠ .service ota ble) → s.model.otaBlocked = true → t.model.otaBlocked = true

/-- Nothing that the lock depends on is different. -/
structure Kept (s t : State) : Prop where
  model : t.model = s.model
  applied : t.applied = s.applied
  wanted : t.wanted = s.wanted
  held : t.held = s.held

section Model

variable {m : Model} {now : Int}

@[simp] theorem pause_otaBlocked (m : Model) : m.pause.otaBlocked = m.otaBlocked := rfl

@[simp] theorem off_otaBlocked (m : Model) : m.off.otaBlocked = m.otaBlocked := rfl

@[simp] theorem wake_otaBlocked (m : Model) (now : Int) : (m.wake now).otaBlocked = m.otaBlocked := by
  unfold Model.wake
  split <;> rfl

/-- The service of the model ends a lease and does nothing else. -/
theorem service_same (m : Model) (now : Int) : ∃ lease, m.service now = { m with leaseUntil := lease } := by
  unfold Model.service
  split
  · exact ⟨0, rfl⟩
  · exact ⟨m.leaseUntil, rfl⟩

@[simp] theorem service_otaBlocked (m : Model) (now : Int) : (m.service now).otaBlocked = m.otaBlocked := by
  obtain ⟨lease, same⟩ := service_same m now
  rw [same]

theorem gated_otaBlocked {s : State} (o : Outside) (h : s.model.otaBlocked = true) :
    (s.gated o).otaBlocked = true := by
  unfold State.gated
  split
  · rfl
  · exact h

end Model

section Lock

variable {s : State} {o : Outside} {need : Bool}

theorem lockRecovery_frame (fine : o.LocksFine) :
    (s.lockRecovery o need).model = s.model ∧ (s.lockRecovery o need).applied = s.applied ∧
      (s.lockRecovery o need).wanted = s.wanted ∧ (s.lockRecovery o need).created = s.created ∧
      (s.lockRecovery o need).initialized = s.initialized ∧
      (s.lockRecovery o need).setupAttempted = s.setupAttempted := by
  unfold State.lockRecovery
  split
  · exact ⟨rfl, rfl, rfl, rfl, rfl, rfl⟩
  split
  · rename_i failed
    exact absurd fine.lock failed
  · exact ⟨rfl, rfl, rfl, rfl, rfl, rfl⟩

theorem lockRecovery_held (fine : o.LocksFine) (created : s.created = true) :
    (s.lockRecovery o need).held = need := by
  unfold State.lockRecovery
  split
  · rename_i same
    simp only [created, Bool.not_true, Bool.false_or, beq_iff_eq] at same
    exact same.symm
  split
  · rename_i failed
    exact absurd fine.lock failed
  · rfl

theorem lockRecovery_alternating (fine : o.LocksFine) (h : Alternating s.locks s.held) :
    Alternating (s.lockRecovery o need).locks (s.lockRecovery o need).held := by
  unfold State.lockRecovery
  split
  · exact h
  split
  · rename_i failed
    exact absurd fine.lock failed
  · rename_i other _
    simp only [Bool.or_eq_true, Bool.not_eq_true', beq_iff_eq, not_or] at other
    cases need with
    | true =>
      have free : s.held = false := Bool.eq_false_iff.mpr fun e => other.2 e.symm
      rw [free] at h
      exact .acquire h
    | false =>
      have taken : s.held = true := by simpa using other.2
      rw [taken] at h
      exact .release h

theorem refresh_frame (fine : o.LocksFine) (s : State) :
    (s.refreshRecovery o).model = s.model ∧ (s.refreshRecovery o).applied = s.applied ∧
      (s.refreshRecovery o).wanted = s.wanted ∧ (s.refreshRecovery o).created = s.created ∧
      (s.refreshRecovery o).initialized = s.initialized ∧
      (s.refreshRecovery o).setupAttempted = s.setupAttempted := lockRecovery_frame fine

private theorem blocked_refreshed (fine : o.LocksFine) : (s.refreshRecovery o).blocked o = s.blocked o := by
  have frame := refresh_frame fine s
  unfold State.blocked
  rw [frame.1, frame.2.2.1]

/-- After the refresh the lock is held where light sleep must be kept away. -/
theorem refresh_holds (fine : o.LocksFine) (created : (s.refreshRecovery o).created = true)
    (applied : (s.refreshRecovery o).applied = true) (blocked : (s.refreshRecovery o).blocked o = true) :
    (s.refreshRecovery o).held = true := by
  have frame := refresh_frame fine s
  rw [blocked_refreshed fine] at blocked
  have had : s.created = true := frame.2.2.2.1 ▸ created
  have set : s.applied = true := frame.2.1 ▸ applied
  rw [State.refreshRecovery, lockRecovery_held fine had, set, blocked]
  rfl

end Lock

section Step

variable {s t : State} {o : Outside} {c : Input}

theorem edits_plain (c : Input) (locks : t.locks = s.locks) (held : t.held = s.held) (created : t.created = s.created)
    (attempted : t.setupAttempted = s.setupAttempted) (set : t.initialized = s.initialized)
    (gate : s.model.otaBlocked = true → t.model.otaBlocked = true) : Edits c s t where
  locks := locks
  held := held
  sound := fun h => ⟨by rw [created, attempted]; exact h.attempted, by rw [set, created]; exact h.set⟩
  created := fun _ had => created.trans had
  gate := fun _ => gate

/-- The set-up touches nothing else; where it succeeds there is a lock. -/
theorem initializeOnce_spec (fine : o.LocksFine) :
    Edits c s (s.initializeOnce o).2 ∧ Kept s (s.initializeOnce o).2 ∧
      ((s.initializeOnce o).1 = true → Sound s → (s.initializeOnce o).2.created = true) := by
  unfold State.initializeOnce
  split
  · exact ⟨edits_plain c rfl rfl rfl rfl rfl id, ⟨rfl, rfl, rfl, rfl⟩, fun no => by cases no⟩
  split
  · rename_i set
    exact ⟨edits_plain c rfl rfl rfl rfl rfl id, ⟨rfl, rfl, rfl, rfl⟩, fun _ h => h.set set⟩
  split
  · exact ⟨edits_plain c rfl rfl rfl rfl rfl id, ⟨rfl, rfl, rfl, rfl⟩, fun no => by cases no⟩
  have creates : (o.createError == 0) = true := by simp [fine.create]
  dsimp only
  rw [creates, if_pos rfl]
  split
  · refine ⟨⟨rfl, rfl, ?_, fun _ _ => rfl, fun _ => id⟩, ⟨rfl, rfl, rfl, rfl⟩, fun no => by cases no⟩
    exact fun h => ⟨fun _ => rfl, fun _ => rfl⟩
  · refine ⟨⟨rfl, rfl, ?_, fun _ _ => rfl, fun _ => id⟩, ⟨rfl, rfl, rfl, rfl⟩, fun _ _ => rfl⟩
    exact fun h => ⟨fun _ => rfl, fun _ => rfl⟩

theorem Edits.trans {u : State} (first : Edits c s t) (second : Edits c t u) : Edits c s u where
  locks := second.locks.trans first.locks
  held := second.held.trans first.held
  sound := fun h => second.sound (first.sound h)
  created := fun h had => second.created (first.sound h) (first.created h had)
  gate := fun other had => second.gate other (first.gate other had)

private theorem request_gate {m m' : Model} {seconds : Nat} {now : Int} (h : m.request seconds now = some m') :
    m'.otaBlocked = m.otaBlocked := by
  unfold Model.request at h
  split at h
  · cases h
  · cases h
    rfl

/-- A call edits, and then either brings the lock up to date or has kept all that it depends on. -/
theorem step_cases (fine : o.LocksFine) (s : State) (c : Input) :
    ∃ t, Edits c s t ∧ (s.refreshes o c = true ∧ s.step o c = t.refreshRecovery o ∨
      s.refreshes o c = false ∧ s.step o c = t ∧ Kept s t) := by
  cases c with
  | pulseEligible | monitoring | beforeConfigure =>
    exact ⟨s, edits_plain _ rfl rfl rfl rfl rfl id, .inr ⟨rfl, rfl, rfl, rfl, rfl, rfl⟩⟩
  | uartReady value =>
    cases value with
    | true =>
      refine ⟨_, ?_, .inr ⟨rfl, rfl, rfl, rfl, rfl, rfl⟩⟩
      exact edits_plain _ rfl rfl rfl rfl rfl id
    | false =>
      refine ⟨_, ?_, .inl ⟨rfl, rfl⟩⟩
      exact edits_plain _ rfl rfl rfl rfl rfl id
  | usbActivity =>
    refine ⟨_, ?_, .inl ⟨rfl, rfl⟩⟩
    exact edits_plain _ rfl rfl rfl rfl rfl fun h => (wake_otaBlocked ..).trans h
  | uartWake =>
    refine ⟨_, ?_, .inl ⟨rfl, rfl⟩⟩
    exact edits_plain _ rfl rfl rfl rfl rfl fun h => (wake_otaBlocked ..).trans h
  | uartTraffic pending activity =>
    refine ⟨_, ?_, .inl ⟨rfl, rfl⟩⟩
    refine edits_plain _ rfl rfl rfl rfl rfl fun h => ?_
    dsimp only
    split
    · exact (wake_otaBlocked ..).trans h
    · exact h
  | viewState locked safe fault =>
    refine ⟨_, ?_, .inl ⟨rfl, rfl⟩⟩
    exact edits_plain _ rfl rfl rfl rfl rfl fun h => (service_otaBlocked ..).trans h
  | service ota ble =>
    refine ⟨_, ?_, .inl ⟨rfl, rfl⟩⟩
    exact ⟨rfl, rfl, fun h => ⟨h.attempted, h.set⟩, fun _ had => had, fun other => absurd rfl (other ota ble)⟩
  | request seconds =>
    simp only [State.refreshes, State.step, State.request]
    split
    · exact ⟨s, edits_plain _ rfl rfl rfl rfl rfl id, .inr ⟨rfl, rfl, rfl, rfl, rfl, rfl⟩⟩
    split
    · exact ⟨s, edits_plain _ rfl rfl rfl rfl rfl id, .inr ⟨rfl, rfl, rfl, rfl, rfl, rfl⟩⟩
    obtain ⟨edits, kept, _⟩ := initializeOnce_spec (s := s) (c := .request seconds) fine
    split
    · exact ⟨_, edits, .inr ⟨rfl, rfl, kept⟩⟩
    split
    · exact ⟨_, edits, .inr ⟨rfl, rfl, kept⟩⟩
    · rename_i model asked
      refine ⟨_, edits.trans ?_, .inl ⟨rfl, rfl⟩⟩
      exact edits_plain _ rfl rfl rfl rfl rfl fun h => (request_gate asked).trans h
  | enableAutomatic confirmed =>
    simp only [State.refreshes, State.step, State.enableAutomatic]
    split
    · exact ⟨s, edits_plain _ rfl rfl rfl rfl rfl id, .inr ⟨rfl, rfl, rfl, rfl, rfl, rfl⟩⟩
    · refine ⟨_, ?_, .inl ⟨rfl, rfl⟩⟩
      refine edits_plain _ rfl rfl rfl rfl rfl fun h => ?_
      dsimp only [Model.enableAutomatic]
      split <;> exact h
  | cancelForActivity =>
    refine ⟨_, ?_, .inl ⟨rfl, rfl⟩⟩
    exact edits_plain _ rfl rfl rfl rfl rfl id
  | otaActivity =>
    refine ⟨_, ?_, .inl ⟨rfl, rfl⟩⟩
    exact edits_plain _ rfl rfl rfl rfl rfl fun _ => rfl
  | off =>
    refine ⟨_, ?_, .inl ⟨rfl, rfl⟩⟩
    exact edits_plain _ rfl rfl rfl rfl rfl id
  | allow cpu locked wifi =>
    have gate : s.model.otaBlocked = true → (s.allowModel o wifi).otaBlocked = true := by
      intro h
      have kept := gated_otaBlocked o h
      unfold State.allowModel
      rw [service_otaBlocked]
      split <;> exact kept
    refine ⟨_, ?_, .inl ⟨rfl, rfl⟩⟩
    unfold State.judged
    split
    · obtain ⟨edits, _, _⟩ := initializeOnce_spec (c := .allow cpu locked wifi)
        (s := { s with model := s.allowModel o wifi }) fine
      refine Edits.trans (Edits.trans ?_ edits) ?_
      · exact edits_plain _ rfl rfl rfl rfl rfl gate
      · exact edits_plain _ rfl rfl rfl rfl rfl id
    · exact edits_plain _ rfl rfl rfl rfl rfl gate
  | configured lightSleep error =>
    simp only [State.refreshes, State.step, State.configured]
    split
    · refine ⟨_, ?_, .inl ⟨trivial, rfl⟩⟩
      exact edits_plain _ rfl rfl rfl rfl rfl id
    · refine ⟨_, ?_, .inl ⟨trivial, rfl⟩⟩
      exact edits_plain _ rfl rfl rfl rfl rfl id
  | snapshot =>
    refine ⟨_, ?_, .inl ⟨rfl, rfl⟩⟩
    exact edits_plain _ rfl rfl rfl rfl rfl fun h => (service_otaBlocked ..).trans (gated_otaBlocked o h)

end Step

/-- What `allow` has seen where it allows light sleep. -/
structure Gates (s : State) (o : Outside) : Prop where
  ready : s.ready = true
  locked : s.model.viewLocked = true
  display : s.model.displaySafe = true
  fault : s.model.fault = false
  gate : s.model.otaBlocked = false
  ota : o.busy = false ∧ o.healthPending = false
  ble : s.bleActive = false
  io : o.ioReady = true
  usb : o.usbEarlier = true

section Allow

variable {s : State} {o : Outside} {cpu : Nat} {locked wifi : Bool}

theorem safe_gates (h : s.safe o cpu locked wifi = true) : Gates s o := by
  simp only [State.safe, Model.eligible, Bool.and_eq_true, Bool.not_eq_true', Bool.or_eq_false_iff] at h
  obtain ⟨⟨⟨⟨usb, io⟩, _⟩, ready⟩, ⟨⟨⟨⟨⟨⟨_, view⟩, _⟩, display⟩, fault⟩, gate⟩, radio, ble⟩, _⟩ :=
    h
  have plain : s.allowModel o wifi = (s.gated o).service o.now := by
    rw [State.allowModel, if_neg (by simp [io, radio, ble])]
  obtain ⟨lease, same⟩ := service_same (s.gated o) o.now
  rw [plain, same] at view display fault gate
  cases ota : o.ota with
  | true =>
    rw [State.gated, if_pos ota] at gate
    cases gate
  | false =>
    rw [State.gated, if_neg (by simp [ota])] at view display fault gate
    exact ⟨ready, view, display, fault, gate, Bool.or_eq_false_iff.mp ota, ble, io, usb⟩

/-- Where `allow` allows light sleep, every gate was open and there is a lock. -/
theorem allow_gates (fine : o.LocksFine) (sound : Sound s) (h : (s.allow o cpu locked wifi).1 = true) :
    Gates s o ∧ (s.step o (.allow cpu locked wifi)).created = true := by
  have frame := refresh_frame fine (s.judged o cpu locked wifi)
  have wanted : (s.judged o cpu locked wifi).wanted = true := frame.2.2.1 ▸ h
  have created : (s.step o (.allow cpu locked wifi)).created = (s.judged o cpu locked wifi).created := frame.2.2.2.1
  rw [created]
  unfold State.judged at wanted ⊢
  split at wanted
  · rename_i opens
    simp only [Bool.and_eq_true] at opens
    obtain ⟨_, _, creates⟩ := initializeOnce_spec (c := .allow cpu locked wifi)
      (s := { s with model := s.allowModel o wifi }) fine
    rw [if_pos (by simp [opens])]
    exact ⟨safe_gates opens.1, creates wanted ⟨sound.attempted, sound.set⟩⟩
  · rename_i shut
    have safe : s.safe o cpu locked wifi = true := wanted
    have set : s.initialized = true := by simpa [safe] using shut
    rw [if_neg (by simp [set])]
    exact ⟨safe_gates safe, sound.set set⟩

end Allow

/-- What one call does, from the state it finds. -/
structure Guarded (s : State) (o : Outside) (c : Input) : Prop where
  refreshed : s.refreshes o c = true → (s.step o c).created = true → (s.step o c).applied = true →
    (s.step o c).blocked o = true → (s.step o c).held = true
  kept : s.refreshes o c = false → Kept s (s.step o c)
  stays : s.created = true → (s.step o c).created = true
  allowed : ∀ cpu locked wifi, c = .allow cpu locked wifi → (s.allow o cpu locked wifi).1 = true →
    Gates s o ∧ (s.step o c).created = true
  gate : (∀ ota ble, c ≠ .service ota ble) → s.model.otaBlocked = true → (s.step o c).model.otaBlocked = true

/-- What every call keeps. -/
structure Inv (s : State) : Prop where
  sound : Sound s
  turns : Alternating s.locks s.held

section Run

variable {s : State} {o : Outside}

theorem refresh_sound (fine : o.LocksFine) (h : Sound s) : Sound (s.refreshRecovery o) := by
  obtain ⟨_, _, _, created, set, attempted⟩ := refresh_frame fine s
  constructor
  · intro had
    exact attempted.trans (h.attempted (created ▸ had))
  · intro had
    exact created.trans (h.set (set ▸ had))

theorem inv_step (fine : o.LocksFine) (h : Inv s) (c : Input) : Inv (s.step o c) := by
  obtain ⟨t, edits, ⟨_, same⟩ | ⟨_, same, _⟩⟩ := step_cases fine s c
  · rw [same]
    have turns : Alternating t.locks t.held := by
      rw [edits.locks, edits.held]
      exact h.turns
    exact ⟨refresh_sound fine (edits.sound h.sound), lockRecovery_alternating fine turns⟩
  · rw [same]
    refine ⟨edits.sound h.sound, ?_⟩
    rw [edits.locks, edits.held]
    exact h.turns

theorem guarded_step (fine : o.LocksFine) (h : Inv s) (c : Input) : Guarded s o c := by
  obtain ⟨t, edits, stepped⟩ := step_cases fine s c
  have frame := refresh_frame fine t
  refine ⟨fun refreshes => ?_, fun keeps => ?_, fun had => ?_, ?_, fun other had => ?_⟩
  · rcases stepped with ⟨_, same⟩ | ⟨no, _⟩
    · rw [same]
      exact refresh_holds fine
    · rw [no] at refreshes
      cases refreshes
  · rcases stepped with ⟨yes, _⟩ | ⟨_, same, kept⟩
    · rw [yes] at keeps
      cases keeps
    · rwa [same]
  · have created := edits.created h.sound had
    rcases stepped with ⟨_, same⟩ | ⟨_, same, _⟩
    · rw [same]
      exact frame.2.2.2.1.trans created
    · rwa [same]
  · rintro cpu locked wifi rfl allows
    exact allow_gates fine h.sound allows
  · have gate := edits.gate other had
    rcases stepped with ⟨_, same⟩ | ⟨_, same, _⟩
    · rw [same]
      exact (congrArg Model.otaBlocked frame.1).trans gate
    · rwa [same]

theorem inv_run (h : Inv s) (events : List (Outside × Input)) (fine : ∀ e ∈ events, e.1.LocksFine) :
    Inv (s.run events) := by
  induction events generalizing s with
  | nil => exact h
  | cons e rest ih =>
    have first := inv_step (fine e (List.mem_cons_self ..)) h e.2
    exact ih first fun e he => fine e (List.mem_cons_of_mem _ he)

end Run

/-- After any calls the lock was acquired and released in turn; and of the next call: where it brings the lock up to
date, the lock is held if light sleep is configured and must be kept away, and else nothing of this is different; it
allows light sleep through all gates only; and it clears the OTA gate only as the service. -/
theorem standby_guarded (supported automaticFlag : Bool) (events : List (Outside × Input))
    (fine : ∀ e ∈ events, e.1.LocksFine) :
    Alternating ((booted supported automaticFlag).run events).locks
        ((booted supported automaticFlag).run events).held ∧
      ∀ o c, o.LocksFine → Guarded ((booted supported automaticFlag).run events) o c := by
  have start : Inv (booted supported automaticFlag) := ⟨⟨fun e => (by cases e), fun e => (by cases e)⟩, .fresh⟩
  have inv := inv_run start events fine
  exact ⟨inv.turns, fun o c fine => guarded_step fine inv c⟩

def standby : List (Outside × Input) :=
  let o : Outside := { usbEarlier := true, usbSafe := true, ioReady := true }
  [(o, .uartReady true), (o, .viewState true true false), (o, .enableAutomatic true), (o, .allow 160 true false),
    (o, .configured true 0)]

theorem standby_fine : ∀ e ∈ standby, e.1.LocksFine := by
  intro e he
  simp only [standby, List.mem_cons, List.not_mem_nil, or_false] at he
  rcases he with rfl | rfl | rfl | rfl | rfl <;> exact ⟨rfl, rfl⟩

theorem standby_guarded_configured : Alternating ((booted true false).run standby).locks
    ((booted true false).run standby).held ∧ Guarded ((booted true false).run standby) {} .usbActivity :=
  have guarded := standby_guarded true false standby standby_fine
  ⟨guarded.1, guarded.2 {} .usbActivity ⟨rfl, rfl⟩⟩

/-- Between two calls that bring the lock up to date the console may stop being safe, and a reader does not mind; and
light sleep that is configured before the lock exists finds none to hold. -/
theorem monitoring_leaves_lock : (¬ ∀ supported automaticFlag events, (∀ e ∈ events, e.1.LocksFine) →
    ∀ o c, o.LocksFine → (((booted supported automaticFlag).run events).step o c).applied = true →
      (((booted supported automaticFlag).run events).step o c).blocked o = true →
      (((booted supported automaticFlag).run events).step o c).held = true) ∧
    ¬ ∀ supported automaticFlag events, (∀ e ∈ events, e.1.LocksFine) → ∀ o c, o.LocksFine →
      ((booted supported automaticFlag).run events).refreshes o c = true →
      (((booted supported automaticFlag).run events).step o c).applied = true →
      (((booted supported automaticFlag).run events).step o c).blocked o = true →
      (((booted supported automaticFlag).run events).step o c).held = true := by
  constructor
  · intro claimed
    have held := claimed true false standby standby_fine {} .monitoring ⟨rfl, rfl⟩ (by decide) (by decide)
    exact absurd held (by decide)
  · intro claimed
    have none_ : ∀ e ∈ ([] : List (Outside × Input)), e.1.LocksFine := fun _ mem => absurd mem List.not_mem_nil
    have held := claimed true false [] none_ {} (.configured true 0) ⟨rfl, rfl⟩ (by decide) (by decide) (by decide)
    exact absurd held (by decide)

end Mosaico.Host.StandbySleep
