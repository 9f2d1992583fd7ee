import Mosaico.Host.GaugeTraceRuns

/-! After the last session number a Stop lets the trace go on with times that step back, and
nothing of it is read back. -/
namespace Mosaico.Host.GaugeTrace

def loadTick (m : Model) : Tick := { now := 0, loaded := .found (encodeInto m) }

section Ticks

variable {w : World} {now : UInt64} {m : Model}

theorem ready_load (m : Model) (w : World) : ready w (loadTick m) = w := by
  simp [ready, loadTick]

private theorem load_good (good : Good m) (s : Service) :
    load s (loadTick m).loaded = nextSession s m.restored := by
  rw [loadTick, load, good.read_back, takeOver]

private theorem nextSession_ready (s : Service) (m : Model) : (nextSession s m).ready = true := by
  unfold nextSession
  split <;> rfl

theorem service_load (good : Good m) (stored : List Blob) :
    service { stored := stored } (loadTick m) =
      { service := nextSession {} m.restored, stored := stored } := by
  unfold service
  rw [if_neg (by simp [loadTick]), if_neg (by simp), if_neg (by simp [loadTick]), load_good good,
    if_pos (nextSession_ready {} m.restored), ready_load]

end Ticks

section Runs

variable {stored : List Blob} {boot : UInt32} {w : World} {now : UInt64}

attribute [local irreducible] encodeInto decode

abbrev Reached : World → Prop := Reach fun _ => True

theorem Reach.tick (h : Reached w) (e : Tick) (le : w.clock ≤ e.now)
    (durable : ∀ blob, e.loaded = .found blob → blob ∈ w.stored) :
    Reached { service := (service w e).service, clock := e.now, stored := (service w e).stored } :=
  h.ticked e le durable trivial

theorem Reach.command (h : Reached w) (c : Command) : Reached { w with service := request c w.service } :=
  h.asked c trivial

theorem Reach.low (h : Reached w) (now : UInt64) (le : w.clock ≤ now) (isReady : w.service.ready = true)
    (pending : w.service.pending ≠ .none) (free : canAttempt w.service now = true)
    (quiet : (w.service.model.due now && !w.service.corrupt) = false) :
    Reached
      { service := { w.service with
          lastWriteAttempt := now, writeAttempted := true, corrupt := false, pending := .none
          model := { carriedOut w.service.pending w.service.model with dirty := false } }
        clock := now
        stored := encodeInto (carriedOut w.service.pending w.service.model) :: w.stored } :=
  h.carried now le isReady pending free quiet trivial

theorem Reach.restarted (h : Reached w) : Reached { stored := w.stored } := h.step .restart trivial

/-- A session that clears its trace leaves its number behind. -/
theorem Reach.cleared
    (h : Reached { service := { model := { boot := boot }, ready := true }, stored := stored }) :
    Reached { stored := encodeInto { boot := boot } :: stored } := by
  have asked := h.command .clear
  have granted : request .clear { model := { boot := boot }, ready := true } =
      { model := { boot := boot }, ready := true, pending := .clear } := rfl
  simp only [granted] at asked
  have written := asked.low 0 (UInt64.le_refl 0) rfl (by simp) rfl rfl
  simpa only [carriedOut] using written.restarted

private theorem empty_restored (boot : UInt32) : Model.restored { boot := boot } = { boot := boot } := by
  have blank : Vector.ofFn (fun i : Fin capacity =>
      if i.val < 0 then (Model.at_ { boot := boot } i.val).stored else ({} : Sample)) =
      Vector.replicate capacity {} := by
    apply Vector.ext
    intro i hi
    simp
  simp only [Model.restored]
  rw [blank]
  rfl

theorem Reach.loaded (h : Reached { stored := encodeInto { boot := boot } :: stored })
    (some_ : boot ≠ 0) (more : boot ≠ 0xFFFFFFFF) :
    Reached
      { service := { model := { boot := boot + 1 }, ready := true }
        stored := encodeInto { boot := boot } :: stored } := by
  have next := h.tick (loadTick { boot := boot }) (UInt64.le_refl 0) fun blob same => by
    injection same with same
    rw [← same]
    exact List.mem_cons_self
  rw [service_load (Good.empty some_), empty_restored, nextSession, if_neg more] at next
  exact next

/-- Sessions that only clear their trace use up the numbers one by one. -/
theorem reached_session (n : Nat) (more : n + 2 < 2 ^ 32) :
    ∃ stored, Reached { stored := encodeInto { boot := UInt32.ofNat (n + 2) } :: stored } := by
  induction n with
  | zero =>
    have initial : Reached {} := .start
    have first : Reached { service := { model := { boot := 2 }, ready := true } } :=
      initial.tick { now := 0 } (UInt64.le_refl 0) nofun
    exact ⟨_, first.cleared⟩
  | succ n ih =>
    obtain ⟨stored, reached⟩ := ih (by omega)
    have toNat : (UInt32.ofNat (n + 2)).toNat = n + 2 := by
      rw [UInt32.toNat_ofNat']
      omega
    have next := reached.loaded (by rw [Ne, ← UInt32.toNat_inj, toNat]; exact nofun)
      (by rw [Ne, ← UInt32.toNat_inj, toNat]; simp; omega)
    have number : UInt32.ofNat (n + 2) + 1 = UInt32.ofNat (n + 1 + 2) := by
      rw [← UInt32.toNat_inj, UInt32.toNat_add, toNat, UInt32.toNat_ofNat']
      rfl
    rw [number] at next
    exact ⟨_, next.cleared⟩

def lastTrace : Model :=
  ((Model.append { boot := 0xFFFFFFFF, armed := true } (lowSample 200000)).attempted 200000)

theorem Reach.lastSaved
    (h : Reached
      { service := { model := { boot := 0xFFFFFFFF }, ready := true }, stored := stored }) :
    ∃ w stored, Reached w ∧ w.service.model = { lastTrace with dirty := false } ∧
      w.stored = encodeInto lastTrace :: stored := by
  have asked := h.command .arm
  have granted : request .arm { model := { boot := 0xFFFFFFFF }, ready := true } =
      { model := { boot := 0xFFFFFFFF }, ready := true, pending := .arm } := rfl
  simp only [granted] at asked
  have armed := asked.low 0 (UInt64.le_refl 0) rfl (by simp) rfl rfl
  simp only [carriedOut] at armed
  have sampled := armed.tick (lowTick 200000) (UInt64.le_of_lt (by simp [lowTick, UInt64.lt_iff_toNat_lt]))
    (fun _ none_ => by cases none_)
  rw [service_checkpoint rfl rfl rfl rfl (by simp [canAttempt])] at sampled
  exact ⟨_, _, sampled, rfl, rfl⟩

/-- A trace that cannot be continued takes a Stop and then a Resume. -/
theorem Reach.continued {m : Model}
    (h : Reached { service := { model := m, corrupt := true, ready := true }, stored := stored })
    (armed : m.armed = true) (some_ : m.count ≠ 0) (unsampled : m.sampled = false)
    (open_ : m.finalizedChargeAfterLow = false) :
    ∃ w, Reached w ∧
      w.service.model = ({ m with armed := true, dirty := false } : Model).append (lowSample 60000) := by
  have asked := h.command .stop
  have granted : request .stop { model := m, corrupt := true, ready := true } =
      { model := m, corrupt := true, ready := true, pending := .stop } := by
    simp [request, refused, armed]
  simp only [granted] at asked
  have stopped := asked.low 0 (UInt64.le_refl 0) rfl (by simp) rfl (by simp)
  simp only [carriedOut] at stopped
  have again := stopped.command .resume
  have resumed : ∀ m' : Model, m'.armed = false → m'.count ≠ 0 → m'.finalizedChargeAfterLow = false →
      request .resume { model := m', ready := true, writeAttempted := true } =
        { model := m', ready := true, writeAttempted := true, pending := .resume } := by
    intro m' idle filled opened
    simp [request, refused, idle, filled, opened]
  simp only [resumed { m with armed := false, dirty := false } rfl some_ open_] at again
  have running := again.low 60000 (UInt64.le_of_lt (by simp [UInt64.lt_iff_toNat_lt])) rfl (by simp)
    (by simp [canAttempt]) (by simp [Model.due])
  simp only [carriedOut] at running
  have sampled := running.tick (lowTick 60000) (UInt64.le_refl 60000) (fun _ none_ => by cases none_)
  rw [service_sample rfl rfl (by simp [Model.due, unsampled]) (by simp [canAttempt])] at sampled
  exact ⟨_, sampled, rfl⟩

theorem Good.lastTrace : Good lastTrace := by
  have armed : Good { boot := 0xFFFFFFFF, armed := true } :=
    (Good.empty (by decide)).same ⟨rfl, rfl, rfl, rfl⟩ nofun
  have fresh : Fresh 200000 { boot := 0xFFFFFFFF, armed := true } :=
    fun s mem => by simp [Model.items] at mem
  have appended := (armed.append (s := lowSample 200000) fresh (convert_flags ..)).1
  exact appended.same ⟨rfl, rfl, rfl, rfl⟩ appended.final

theorem lastTrace_items : lastTrace.items = [{ lowSample 200000 with boot := 0xFFFFFFFF }] := by
  have bounded : Model.Bounded { boot := 0xFFFFFFFF, armed := true } := ⟨show 0 < 64 by omega, Nat.zero_le _⟩
  exact (Model.append_spec bounded (lowSample 200000)).2

theorem reached_lastTrace : ∃ w stored, Reached w ∧
    w.service.model = { lastTrace with dirty := false } ∧
      w.stored = encodeInto lastTrace :: stored := by
  obtain ⟨stored, reached⟩ := reached_session (2 ^ 32 - 4) (by omega)
  exact (reached.loaded (by decide) (by decide)).lastSaved

private theorem disordered {boot : UInt32} {late early : Sample} (sameBoot : late.boot = early.boot)
    (back : early.monotonicMs < late.monotonicMs) : ¬ Rows boot [late, early] := by
  intro rows
  cases (List.pairwise_pair.mp rows.ordered) with
  | inl boots => exact UInt32.lt_irrefl _ (sameBoot ▸ boots)
  | inr times => exact absurd (UInt64.lt_of_le_of_lt times.2 back) (UInt64.lt_irrefl _)

/-- The last session's trace goes on at an earlier time. -/
theorem reached_unreadable : ∃ w, Reached w ∧ decode (encodeInto w.service.model) = none := by
  obtain ⟨before, stored, reached, -, holds⟩ := reached_lastTrace
  have saved : Reached { stored := encodeInto lastTrace :: stored } := holds ▸ reached.restarted
  have next := saved.tick (loadTick lastTrace) (UInt64.le_refl 0) fun blob same => by
    injection same with same
    rw [← same]
    exact List.mem_cons_self
  obtain ⟨count, -, boot, armed, -, final⟩ := lastTrace.restored_eq
  have lastBoot : lastTrace.restored.boot = 0xFFFFFFFF := boot.trans rfl
  have exhausted : nextSession {} lastTrace.restored =
      { model := lastTrace.restored, corrupt := true, ready := true } := by
    rw [nextSession, if_pos lastBoot]
  rw [service_load Good.lastTrace, exhausted] at next
  have one : lastTrace.restored.count = 1 := count.trans rfl
  obtain ⟨w, reached, same⟩ := next.continued (armed.trans rfl) (by rw [one]; decide) rfl
    (final.trans rfl)
  have good := Good.lastTrace.restored
  have bounded : Model.Bounded { lastTrace.restored with armed := true, dirty := false } :=
    ⟨good.bounded.head, good.bounded.count⟩
  obtain ⟨inside, items⟩ := Model.append_spec bounded (lowSample 60000)
  have old : Model.items { lastTrace.restored with armed := true, dirty := false } =
      [({ lowSample 200000 with boot := 0xFFFFFFFF } : Sample).stored] := by
    rw [show Model.items { lastTrace.restored with armed := true, dirty := false } =
      lastTrace.restored.items from rfl, Model.restored_items Good.lastTrace.bounded, lastTrace_items]
    rfl
  rw [if_neg (show lastTrace.restored.count ≠ 64 by omega), old, List.singleton_append] at items
  refine ⟨w, reached, ?_⟩
  rw [same, decode_encodeInto inside, if_neg]
  intro accepted
  have rows := (Model.rowsOk_iff _).mp (Bool.and_eq_true_iff.mp accepted).2
  rw [items] at rows
  refine disordered ?_ ?_ rows
  · exact lastBoot.symm
  · rw [(Sample.stored_eq _).2.2]
    simp [lowSample, convert, UInt64.lt_iff_toNat_lt]

/-- A restart forgets that a session has sampled; and a trace can be reached that is not read
back at all. -/
theorem trace_not_kept :
    (∃ w read, Reached w ∧ decode (encodeInto w.service.model) = some read ∧
      read.sampled ≠ w.service.model.sampled) ∧
    ∃ w, Reached w ∧ decode (encodeInto w.service.model) = none := by
  refine ⟨?_, reached_unreadable⟩
  obtain ⟨w, -, reached, same, -⟩ := reached_lastTrace
  have good : Good { lastTrace with dirty := false } :=
    Good.lastTrace.same ⟨rfl, rfl, rfl, rfl⟩ Good.lastTrace.final
  refine ⟨w, Model.restored { lastTrace with dirty := false }, reached, ?_, ?_⟩
  · rw [same]
    exact good.read_back
  · rw [same]
    exact Bool.false_ne_true

end Runs

end Mosaico.Host.GaugeTrace
