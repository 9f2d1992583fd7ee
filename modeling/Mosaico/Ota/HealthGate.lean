import Mathlib.Data.List.Chain
import Mathlib.Algebra.Group.Nat.Defs

/-! The boot health gate of `mosaico_ota.cpp`: `healthPoll` and `healthTimeout`, each
under the health lock. The diagnostic record and the UI fields are written here and
read by neither, so they are left out, as is the build that injects a fault. -/
namespace Mosaico.Ota.HealthGate

/-- What the probes of one poll read. -/
structure Probe where
  i2c : Bool
  display : Bool
  buttons : Bool
  touch : Bool
  frames : Nat
  internalFree : Nat
  psramFree : Nat
  integrity : Bool
  heapPolicy : Bool
  deriving DecidableEq, Repr

def Probe.healthy (p : Probe) : Bool :=
  p.i2c && p.display && p.buttons && p.touch && decide (p.frames > 0) &&
    decide (p.internalFree > 32768) && decide (p.psramFree > 0) && p.integrity && p.heapPolicy

/-- One call of `healthPoll`: its argument and what the SDK and the probes answer.
`running` is a non-null running partition, `pendingVerify` its state. -/
structure Poll where
  appLoopReady : Bool
  running : Bool := true
  pendingVerify : Bool := true
  timerStarts : Bool := true
  probe : Probe
  markOk : Bool := true
  deriving DecidableEq, Repr

/-- Times are microseconds and 0 stands for none, as in the source. -/
structure Health where
  healthInitialized : Bool := false
  bootPending : Bool := false
  deadlineTimer : Bool := false
  healthySince : Int := 0
  lastLoop : Int := 0
  lastCheck : Int := 0
  healthyLoops : Nat := 0
  timedOut : Bool := false
  deriving DecidableEq, Repr

/-- The state after a poll, the result of its probe if it made one, and whether the
running image was marked valid. -/
structure Polled where
  health : Health
  probed : Option Bool := none
  marked : Bool := false
  deriving DecidableEq, Repr

def Health.reset (s : Health) : Health := { s with healthySince := 0, healthyLoops := 0 }

/-- The first call; the flag tells whether the poll goes on. A timer that does not
start asks for a rollback and a restart, neither of which returns. -/
def begin (s : Health) (p : Poll) : Health × Bool :=
  if s.healthInitialized then (s, true)
  else
    let s := { s with healthInitialized := true }
    if p.running = false ∨ p.pendingVerify = false then (s, false)
    else
      let s := { s with bootPending := true }
      if p.timerStarts then ({ s with deadlineTimer := true }, true) else (s, false)

def interrupted (s : Health) (now : Int) (appLoopReady : Bool) : Bool :=
  !appLoopReady || (s.lastLoop != 0 && decide (now - s.lastLoop > 1500000))

def resume (s : Health) (now : Int) (appLoopReady : Bool) : Health :=
  if interrupted s now appLoopReady then s.reset else s

def startWindow (s : Health) (now : Int) : Health :=
  if s.healthySince = 0 then { s with healthySince := now } else s

def check (s : Health) (now : Int) (p : Poll) : Polled :=
  let s := { s with lastCheck := now }
  if p.probe.healthy = false then { health := s.reset, probed := some false }
  else
    let s := startWindow s now
    if now - s.healthySince ≥ 20000000 ∧ s.healthyLoops ≥ 20 ∧ p.markOk then
      { health := { s with bootPending := false }, probed := some true, marked := true }
    else { health := s, probed := some true }

def watch (s : Health) (now : Int) (p : Poll) : Polled :=
  let s := resume s now p.appLoopReady
  if p.appLoopReady = false then { health := s }
  else
    let s := { s with lastLoop := now, healthyLoops := (s.healthyLoops + 1) % 2 ^ 32 }
    if now - s.lastCheck < 1000000 then { health := s } else check s now p

def healthPoll (s : Health) (now : Int) (p : Poll) : Polled :=
  let started := begin s p
  if started.2 = false ∨ started.1.bootPending = false then { health := started.1 }
  else watch started.1 now p

def healthTimeout (s : Health) : Health :=
  if s.bootPending then { s with bootPending := false, timedOut := true } else s

/-- What may happen: a poll some time after the last event, or the callback. -/
inductive Event where
  | poll (wait : Nat) (p : Poll)
  | timeout
  deriving DecidableEq, Repr

/-- A poll as it was seen. -/
structure Sample where
  time : Int
  ready : Bool
  probed : Option Bool
  deriving DecidableEq, Repr

/-- The gate, the clock since boot, whether the callback has come, the polls so far, newest
first, and for every marking the polls up to it and whether the callback had come before. -/
structure Run where
  health : Health := {}
  now : Int := 1
  fired : Bool := false
  samples : List Sample := []
  marks : List (List Sample × Bool) := []
  deriving DecidableEq, Repr

/-- The callback needs a started timer; after that it may come at any point. -/
def Run.step (r : Run) : Event → Run
  | .timeout =>
    if r.health.deadlineTimer then { r with health := healthTimeout r.health, fired := true } else r
  | .poll wait p =>
    let now := r.now + wait
    let polled := healthPoll r.health now p
    let samples := { time := now, ready := p.appLoopReady, probed := polled.probed } :: r.samples
    { r with
      health := polled.health
      now := now
      samples := samples
      marks := if polled.marked then (samples, r.fired) :: r.marks else r.marks }

def Run.run (r : Run) (events : List Event) : Run := events.foldl Run.step r

/-- Twenty good seconds: every poll ready, none more than 1.5 s after the one before,
no probe failed, and the loop advanced often enough. Samples are newest first. -/
structure Quiet (window : List Sample) : Prop where
  ready : ∀ e ∈ window, e.ready = true
  probed : ∀ e ∈ window, e.probed ≠ some false
  steady : window.IsChain fun later earlier => later.time - earlier.time ≤ 1500000

/-- A window of polls that ends with the newest one. -/
def Earned (samples : List Sample) : Prop :=
  ∃ window first last, window <+: samples ∧ Quiet window ∧
    window.head? = some last ∧ window.getLast? = some first ∧
    20000000 ≤ last.time - first.time ∧ 20 ≤ window.length

/-- Every marking was earned and none came after the callback. -/
def Gated (r : Run) : Prop := ∀ m ∈ r.marks, Earned m.1 ∧ m.2 = false

/-- The unbroken series of good polls that the counters stand for. -/
structure Counting (s : Health) (now : Int) (window : List Sample) : Prop where
  quiet : Quiet window
  loops : s.healthyLoops ≤ window.length
  since : s.healthySince ≠ 0 → ∃ first, window.getLast? = some first ∧ first.time ≤ s.healthySince
  newest : ∀ last, window.head? = some last → s.lastLoop = last.time
  times : ∀ e ∈ window, 0 < e.time ∧ e.time ≤ now

private theorem quiet_nil : Quiet [] := ⟨by simp, by simp, .nil⟩

/-- After a reset nothing is counted. -/
theorem counting_nil {s : Health} {now : Int} (since : s.healthySince = 0)
    (loops : s.healthyLoops = 0) : Counting s now [] :=
  ⟨quiet_nil, Nat.le_of_eq loops, fun ne => (ne since).elim, by simp, by simp⟩

variable {s : Health} {now : Int} {window : List Sample} {e : Sample}

theorem Quiet.cons (h : Quiet window) (ready : e.ready = true) (probed : e.probed ≠ some false)
    (near : ∀ last, window.head? = some last → e.time - last.time ≤ 1500000) :
    Quiet (e :: window) where
  ready := List.forall_mem_cons.mpr ⟨ready, h.ready⟩
  probed := List.forall_mem_cons.mpr ⟨probed, h.probed⟩
  steady := List.isChain_cons.mpr ⟨fun last hlast => near last hlast, h.steady⟩

/-- A ready poll close enough to the one before continues the series. -/
theorem Counting.advance (h : Counting s now window) {next : Int} (later : now ≤ next)
    (positive : 0 < next) (time : e.time = next) (ready : e.ready = true)
    (probed : e.probed ≠ some false)
    (near : ∀ last, window.head? = some last → next - last.time ≤ 1500000) :
    Counting { s with lastLoop := next, healthyLoops := (s.healthyLoops + 1) % 2 ^ 32 } next
      (e :: window) where
  quiet := by
    apply h.quiet.cons ready probed
    rw [time]
    exact near
  loops := by
    have counted := h.loops
    have wrapped : (s.healthyLoops + 1) % 2 ^ 32 ≤ s.healthyLoops + 1 := Nat.mod_le _ _
    change (s.healthyLoops + 1) % 2 ^ 32 ≤ window.length + 1
    omega
  since := by
    intro started
    obtain ⟨first, hfirst, hle⟩ := h.since started
    refine ⟨first, ?_, hle⟩
    rw [List.getLast?_cons, hfirst]
    rfl
  newest := by
    intro last hlast
    rw [← Option.some.inj hlast]
    exact time.symm
  times := by
    refine List.forall_mem_cons.mpr ⟨by omega, fun f hf => ?_⟩
    have old := h.times f hf
    omega

/-- The counters do not depend on the rest of the state. -/
theorem Counting.congr (h : Counting s now window) {t : Health} (since : t.healthySince = s.healthySince)
    (loop : t.lastLoop = s.lastLoop) (loops : t.healthyLoops = s.healthyLoops) :
    Counting t now window := by
  refine ⟨h.quiet, ?_, ?_, ?_, h.times⟩
  · rw [loops]
    exact h.loops
  · rw [since]
    exact h.since
  · rw [loop]
    exact h.newest

theorem startWindow_ne_zero (positive : 0 < now) : (startWindow s now).healthySince ≠ 0 := by
  unfold startWindow
  split
  · exact Int.ne_of_gt positive
  · assumption

/-- The window is never dated before its first poll. -/
theorem Counting.start (h : Counting s now (e :: window)) :
    Counting (startWindow s now) now (e :: window) := by
  unfold startWindow
  split
  · refine ⟨h.quiet, h.loops, fun _ => ?_, h.newest, h.times⟩
    have last := List.getLast?_eq_some_getLast (List.cons_ne_nil e window)
    exact ⟨_, last, (h.times _ (List.getLast_mem _)).2⟩
  · exact h

/-- A counted window of twenty seconds and twenty polls is earned. -/
theorem Counting.earned {samples : List Sample} (h : Counting s now (e :: window))
    (recent : e :: window <+: samples) (time : e.time = now) (started : s.healthySince ≠ 0)
    (long : 20000000 ≤ now - s.healthySince) (often : 20 ≤ s.healthyLoops) : Earned samples := by
  obtain ⟨first, hfirst, early⟩ := h.since started
  refine ⟨e :: window, first, e, recent, h.quiet, rfl, hfirst, ?_, Nat.le_trans often h.loops⟩
  rw [time]
  omega

/-- What a poll establishes: its own sample joins or ends the series. -/
def Continues (now : Int) (ready : Bool) (samples : List Sample) (polled : Polled) : Prop :=
  (∃ window, window <+: ⟨now, ready, polled.probed⟩ :: samples ∧
    Counting polled.health now window) ∧
    (polled.marked = true → Earned (⟨now, ready, polled.probed⟩ :: samples))

theorem continues_reset {t : Health} {ready : Bool} {samples : List Sample} {probed : Option Bool}
    (since : t.healthySince = 0) (loops : t.healthyLoops = 0) :
    Continues now ready samples { health := t, probed := probed } :=
  ⟨⟨[], List.nil_prefix, counting_nil since loops⟩, by simp⟩

theorem check_spec {p : Poll} {samples : List Sample} (recent : window <+: samples)
    (positive : 0 < now)
    (h : ∀ probed, probed ≠ some false → Counting s now (⟨now, p.appLoopReady, probed⟩ :: window)) :
    Continues now p.appLoopReady samples (check s now p) := by
  unfold check
  dsimp only
  split
  · exact continues_reset rfl rfl
  · have fits := h (some true) (by simp)
    have checked := @Counting.congr s now _ fits { s with lastCheck := now } rfl rfl rfl
    have counting := checked.start
    have grown : (⟨now, p.appLoopReady, some true⟩ : Sample) :: window <+:
        ⟨now, p.appLoopReady, some true⟩ :: samples := List.cons_prefix_cons.mpr ⟨rfl, recent⟩
    split
    · rename_i due
      refine ⟨⟨_, grown, counting.congr rfl rfl rfl⟩, fun _ => ?_⟩
      exact counting.earned grown rfl (startWindow_ne_zero positive) due.1 due.2.1
    · exact ⟨⟨_, grown, counting⟩, by simp⟩

/-- The series a poll may go on with: none after an interruption. -/
theorem Counting.resume (h : Counting s now window) (next : Int) (ready : Bool) :
    ∃ window', window' <+: window ∧
      Counting (HealthGate.resume s next ready) now window' ∧
      (ready = true → ∀ last, window'.head? = some last → next - last.time ≤ 1500000) := by
  unfold HealthGate.resume
  by_cases broken : interrupted s next ready = true
  · rw [if_pos broken]
    exact ⟨[], List.nil_prefix, counting_nil rfl rfl, by simp⟩
  · rw [if_neg broken]
    refine ⟨window, List.prefix_refl _, h, fun isReady last hlast => ?_⟩
    have past := (h.times last (List.mem_of_mem_head? hlast)).1
    have seen : s.lastLoop ≠ 0 := by
      rw [h.newest last hlast]
      omega
    by_contra gap
    apply broken
    rw [interrupted, h.newest last hlast] at *
    simp [isReady]
    omega

theorem watch_spec {p : Poll} {samples : List Sample} {next : Int} (h : Counting s now window)
    (recent : window <+: samples) (later : now ≤ next) (positive : 0 < next) :
    Continues next p.appLoopReady samples (watch s next p) := by
  obtain ⟨window', part, counting, near⟩ := h.resume next p.appLoopReady
  have recent' := part.trans recent
  unfold watch
  dsimp only
  split
  · rename_i silent
    have broken : interrupted s next p.appLoopReady = true := by
      rw [interrupted, silent]
      rfl
    rw [HealthGate.resume, if_pos broken]
    exact continues_reset rfl rfl
  · rename_i ready
    have isReady : p.appLoopReady = true := by simpa using ready
    have advanced : ∀ probed, probed ≠ some false → _ := fun probed fine =>
      @Counting.advance _ now window' ⟨next, p.appLoopReady, probed⟩ counting next later positive
        rfl isReady fine (near isReady)
    split
    · have grown : (⟨next, p.appLoopReady, none⟩ : Sample) :: window' <+:
          ⟨next, p.appLoopReady, none⟩ :: samples := List.cons_prefix_cons.mpr ⟨rfl, recent'⟩
      exact ⟨⟨_, grown, advanced none (by simp)⟩, by simp⟩
    · exact check_spec recent' positive advanced

/-- While the boot is pending the counters stand for the newest polls; before the
first poll nothing is set, and the callback leaves nothing pending. -/
structure Consistent (r : Run) : Prop where
  counting : r.health.bootPending = true → ∃ window, window <+: r.samples ∧
    Counting r.health r.now window
  fresh : r.health.healthInitialized = false → r.health = {} ∧ r.samples = []
  expired : r.fired = true → r.health.bootPending = false ∧ r.health.healthInitialized = true
  gated : Gated r
  positive : 0 < r.now

theorem begin_initialized (s : Health) (p : Poll) : (begin s p).1.healthInitialized = true := by
  unfold begin
  dsimp only
  split
  · assumption
  · split
    · rfl
    · split <;> rfl

/-- The first poll starts with nothing counted; later ones change nothing here. -/
theorem begin_cases (s : Health) (p : Poll) :
    begin s p = (s, true) ∧ s.healthInitialized = true ∨
      s.healthInitialized = false ∧ (begin s p).1.healthySince = s.healthySince ∧
        (begin s p).1.healthyLoops = s.healthyLoops := by
  unfold begin
  dsimp only
  split
  · exact .inl ⟨rfl, by assumption⟩
  · rename_i first
    have started : s.healthInitialized = false := by simpa using first
    refine .inr ⟨started, ?_⟩
    split
    · exact ⟨rfl, rfl⟩
    · split <;> exact ⟨rfl, rfl⟩

/-- The rest of a poll is not the first one again. -/
theorem watch_frame (s : Health) (now : Int) (p : Poll) :
    (watch s now p).health.healthInitialized = s.healthInitialized := by
  have resumed : (resume s now p.appLoopReady).healthInitialized = s.healthInitialized := by
    unfold resume
    split <;> rfl
  have started : ∀ t : Health, (startWindow t now).healthInitialized = t.healthInitialized := by
    intro t
    unfold startWindow
    split <;> rfl
  have checked : ∀ t : Health, (check t now p).health.healthInitialized = t.healthInitialized := by
    intro t
    unfold check
    dsimp only
    split
    · rfl
    · split <;> exact started { t with lastCheck := now }
  unfold watch
  dsimp only
  split
  · exact resumed
  · split
    · exact resumed
    · rw [checked]
      exact resumed

/-- What one poll does to a consistent run. -/
structure Polling (r : Run) (now : Int) (p : Poll) (polled : Polled) : Prop where
  counting : polled.health.bootPending = true →
    ∃ window, window <+: ⟨now, p.appLoopReady, polled.probed⟩ :: r.samples ∧
      Counting polled.health now window
  earned : polled.marked = true → Earned (⟨now, p.appLoopReady, polled.probed⟩ :: r.samples)
  initialized : polled.health.healthInitialized = true
  closed : r.health.healthInitialized = true → r.health.bootPending = false →
    polled.health.bootPending = false ∧ polled.marked = false

theorem healthPoll_spec {r : Run} (h : Consistent r) (wait : Nat) (p : Poll) :
    Polling r (r.now + wait) p (healthPoll r.health (r.now + wait) p) := by
  have later : r.now ≤ r.now + wait := Int.le_add_of_nonneg_right (Int.natCast_nonneg wait)
  have positive : 0 < r.now + wait := Int.lt_of_lt_of_le h.positive later
  have initialized := begin_initialized r.health p
  unfold healthPoll
  rcases begin_cases r.health p with ⟨same, -⟩ | ⟨first, since, loops⟩
  · rw [same] at initialized ⊢
    dsimp only
    split
    · rename_i idle
      have off : r.health.bootPending = false := by simpa using idle
      refine ⟨fun on => ?_, by simp, initialized, fun _ _ => ⟨off, rfl⟩⟩
      rw [off] at on
      cases on
    · rename_i active
      have on : r.health.bootPending = true := by simpa using active
      obtain ⟨window, recent, counting⟩ := h.counting on
      have continues := watch_spec (p := p) counting recent later positive
      have frame := watch_frame r.health (r.now + wait) p
      refine ⟨fun _ => continues.1, continues.2, frame.trans initialized, fun _ off => ?_⟩
      rw [on] at off
      cases off
  · obtain ⟨blank, -⟩ := h.fresh first
    have sinceZero : (begin r.health p).1.healthySince = 0 := by rw [since, blank]
    have loopsZero : (begin r.health p).1.healthyLoops = 0 := by rw [loops, blank]
    have never : ∀ q : Prop, r.health.healthInitialized = true → q := by
      intro q again
      rw [first] at again
      cases again
    dsimp only
    split
    · exact ⟨fun _ => ⟨[], List.nil_prefix, counting_nil sinceZero loopsZero⟩, by simp, initialized,
        never _⟩
    · have counting : Counting (begin r.health p).1 r.now [] := counting_nil sinceZero loopsZero
      have continues := @watch_spec _ _ _ p r.samples _ counting List.nil_prefix later positive
      have frame := watch_frame (begin r.health p).1 (r.now + wait) p
      exact ⟨fun _ => continues.1, continues.2, frame.trans initialized, never _⟩

private theorem healthTimeout_frame (s : Health) : (healthTimeout s).bootPending = false ∧
    (healthTimeout s).healthInitialized = s.healthInitialized := by
  unfold healthTimeout
  split
  · exact ⟨rfl, rfl⟩
  · rename_i idle
    exact ⟨by simpa using idle, rfl⟩

theorem consistent_step {r : Run} (h : Consistent r) (event : Event) : Consistent (r.step event) := by
  cases event with
  | timeout =>
    unfold Run.step
    dsimp only
    split
    · rename_i armed
      obtain ⟨off, same⟩ := healthTimeout_frame r.health
      have initialized : r.health.healthInitialized = true := by
        by_contra first
        rw [(h.fresh (by simpa using first)).1] at armed
        cases armed
      refine ⟨fun on => ?_, fun first => ?_, fun _ => ⟨off, same.trans initialized⟩, h.gated, h.positive⟩
      · exact absurd (off.symm.trans on) (by decide)
      · exact absurd (initialized.symm.trans (same.symm.trans first)) (by decide)
    · exact h
  | poll wait p =>
    have polling := healthPoll_spec h wait p
    refine ⟨polling.counting, fun first => ?_, fun fired => ?_, ?_,
      Int.lt_of_lt_of_le h.positive (Int.le_add_of_nonneg_right (Int.natCast_nonneg wait))⟩
    · exact absurd (polling.initialized.symm.trans first) (by decide)
    · obtain ⟨off, initialized⟩ := h.expired fired
      exact ⟨(polling.closed initialized off).1, polling.initialized⟩
    · unfold Gated Run.step
      dsimp only
      split
      · rename_i marked
        refine List.forall_mem_cons.mpr ⟨⟨polling.earned marked, ?_⟩, h.gated⟩
        by_contra fired
        obtain ⟨off, initialized⟩ := h.expired (by simpa using fired)
        exact absurd ((polling.closed initialized off).2.symm.trans marked) (by decide)
      · exact h.gated

theorem consistent_run {r : Run} (h : Consistent r) (events : List Event) :
    Consistent (r.run events) := by
  induction events generalizing r with
  | nil => exact h
  | cons event rest ih => exact ih (consistent_step h event)

/-- Whatever the polls and probes do, an image is marked valid only at the end of
twenty good seconds, and never once the callback has come. -/
theorem health_gate (events : List Event) : Gated (Run.run {} events) := by
  have start : Consistent {} :=
    ⟨(fun on => by cases on), fun _ => ⟨rfl, rfl⟩, (fun fired => by cases fired),
      (fun m hm => by cases hm), by decide⟩
  exact (consistent_run start events).gated

/-- Polls every half second with good probes are marked once, after twenty seconds. -/
example : (Run.run {} (List.replicate 60 (.poll 500000 { appLoopReady := true, probe := {
    i2c := true, display := true, buttons := true, touch := true, frames := 1,
    internalFree := 32769, psramFree := 1, integrity := true, heapPolicy := true } }))).marks.length
      = 1 := by decide +kernel

end Mosaico.Ota.HealthGate
