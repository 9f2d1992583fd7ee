import Mosaico.Host.SessionWindowModel

/-! What the fresh mask of a locked window says of the statuses that were received, over every order of
the link and the service. -/
namespace Mosaico.Host.SessionWindow

open WrapClock

/-- The truncated age is below the duration where the true one is, within a period. -/
theorem recent_iff {a b : Int} (late : b ≤ a) (soon : a < b + 4294967296) :
    stamp 32 a - stamp 32 b < durationMs ↔ a < b + 8000 := by
  have age := toNat_age (w := 32) a b
  rw [Int.emod_eq_of_lt (by omega) (by change a - b < 4294967296; omega)] at age
  rw [BitVec.lt_def]
  change (stamp 32 a - stamp 32 b).toNat < 8000 ↔ _
  omega

/-- A truncated age is never more than the true one. -/
theorem interval_le {now since : Int} {interval : Word} (late : since ≤ now)
    (old : ¬stamp 32 now - stamp 32 since < interval) : since + interval.toNat ≤ now := by
  have age : ((stamp 32 now - stamp 32 since).toNat : Int) = (now - since) % 4294967296 := toNat_age now since
  rw [BitVec.lt_def, Nat.not_lt] at old
  omega

def Point.reading : Point → Option Int
  | .outside => none
  | .clock now => some now
  | .polled now _ => some now
  | .closing now _ => some now

/-- The receipt that the link remembers of a slot. It belongs to the window where the counter has moved
or the generation is a new one. -/
structure Latest (s : System) (slot : Slot) (r : Receipt) : Prop where
  same : r.slot = slot
  generation : r.generation = s.ble.connectionGeneration
  stamped : s.ble.threadStatusCompleteReceiptMs slot = stamp 32 r.time
  inside : s.window.active = true →
    (s.ble.threadStatusCompleteReceiptSequence slot ≠ s.window.baseline slot ∨
      s.ble.connectionGeneration ≠ s.window.generation) → s.startedAt ≤ r.time

def Counts (s : System) (slot : Slot) (r : Receipt) : Prop :=
  r.slot = slot ∧ r.generation = s.window.generation ∧ s.startedAt ≤ r.time ∧ r.time < s.startedAt + 8000

structure Inv (s : System) (t : Int) : Prop where
  stamped : s.window.startedMs = stamp 32 s.startedAt
  begun : s.startedAt ≤ t
  reading : ∀ now, s.point.reading = some now → s.startedAt ≤ now ∧ now ≤ t
  checked : s.window.active = true → s.startedAt ≤ s.checkedAt ∧ s.checkedAt < s.startedAt + 8000
  fresh : ∀ slot, s.window.freshMask slot = true → ∃ r ∈ s.received, Counts s slot r
  known : ∀ slot, s.ble.knownMask slot = true → ∃ r ∈ s.received, Latest s slot r ∧ r.time ≤ t

variable {s : System} {t t' now : Int} {c : Conditions} {gap : Int}

theorem Inv.later (h : Inv s t) (order : t ≤ t') : Inv s t' where
  stamped := h.stamped
  begun := Int.le_trans h.begun order
  reading := fun now here => ⟨(h.reading now here).1, Int.le_trans (h.reading now here).2 order⟩
  checked := h.checked
  fresh := h.fresh
  known := fun slot here => by
    obtain ⟨r, mem, latest, past⟩ := h.known slot here
    exact ⟨r, mem, latest, Int.le_trans past order⟩

theorem inv_boot : Inv {} 0 where
  stamped := rfl
  begun := Int.le_refl 0
  reading := nofun
  checked := nofun
  fresh := nofun
  known := nofun

private theorem known_receive (ble : State) (completeMask statusMask semanticChanged : Mask) (now : Word)
    (slot : Slot) : (ble.receive completeMask statusMask semanticChanged now).knownMask slot =
      (ble.knownMask slot || completeMask slot) := by
  unfold State.receive State.markReceipt State.markKnown
  dsimp only
  split
  · dsimp only
    cases ble.knownMask slot <;> simp
  · dsimp only
    cases ble.knownMask slot <;> simp

theorem receive_slot (ble : State) (completeMask statusMask semanticChanged : Mask) (now : Word) (slot : Slot) :
    let ble' := ble.receive completeMask statusMask semanticChanged now
    ble'.connectionGeneration = ble.connectionGeneration ∧
      (completeMask slot = false →
        ble'.threadStatusCompleteReceiptSequence slot = ble.threadStatusCompleteReceiptSequence slot ∧
        ble'.threadStatusCompleteReceiptMs slot = ble.threadStatusCompleteReceiptMs slot) ∧
      (completeMask slot = true → ble'.threadStatusCompleteReceiptMs slot = now) := by
  unfold State.receive State.markReceipt State.markKnown
  dsimp only
  split
  · rename_i none
    refine ⟨rfl, fun _ => ⟨rfl, rfl⟩, fun complete => ?_⟩
    simp only [Mask.nonzero, decide_eq_false_iff_not, not_exists, Bool.not_eq_true, Bool.or_eq_false_iff] at none
    rw [(none slot).1] at complete
    cases complete
  · refine ⟨rfl, fun partly => ?_, fun complete => ?_⟩
    · simp [partly]
    · simp [complete]

theorem inv_receive (h : Inv s t) (completeMask statusMask semanticChanged : Mask) :
    Inv (s.step t (.receive completeMask statusMask semanticChanged)) t := by
  refine ⟨h.stamped, h.begun, h.reading, h.checked, fun slot fresh => ?_, fun slot known => ?_⟩
  · obtain ⟨r, mem, counts⟩ := h.fresh slot fresh
    exact ⟨r, List.mem_append_right _ mem, counts⟩
  · obtain ⟨generation, kept, moved⟩ :=
      receive_slot s.ble completeMask statusMask semanticChanged (stamp 32 t) slot
    cases complete : completeMask slot with
    | true =>
      refine ⟨⟨slot, s.ble.connectionGeneration, t⟩, List.mem_append_left _ ?_, ⟨rfl, generation.symm, moved complete,
        fun _ _ => h.begun⟩, Int.le_refl t⟩
      exact List.mem_map_of_mem (List.mem_filter.mpr ⟨List.mem_finRange slot, complete⟩)
    | false =>
      have before : s.ble.knownMask slot = true := by
        have known := (known_receive _ _ _ _ _ slot).symm.trans known
        simpa [complete] using known
      obtain ⟨r, mem, latest, past⟩ := h.known slot before
      obtain ⟨sequence, ms⟩ := kept complete
      refine ⟨r, List.mem_append_right _ mem, ⟨latest.same, latest.generation.trans generation.symm,
        ms.trans latest.stamped, fun active apart => latest.inside active ?_⟩, past⟩
      exact apart.imp (fun other => by rwa [← sequence]) fun other => by rwa [← generation]

/-- A window that has been finished or whose mask was emptied, or the same one. -/
structure Calmer (w w' : LockedWindow) : Prop where
  started : w'.startedMs = w.startedMs
  generation : w'.generation = w.generation
  baseline : w'.baseline = w.baseline
  count : w'.count = w.count
  attempted : w'.attempted = w.attempted
  active : w'.active = true → w.active = true
  fresh : ∀ slot, w'.freshMask slot = true → w.freshMask slot = true

theorem calmer_finish (w : LockedWindow) (now : Word) (timeout : Bool) (failure : Int) :
    Calmer w (w.finish now timeout failure) := by
  unfold LockedWindow.finish
  split
  · exact ⟨rfl, rfl, rfl, rfl, rfl, id, fun _ => id⟩
  · exact ⟨rfl, rfl, rfl, rfl, rfl, nofun, fun _ => id⟩

theorem Calmer.trans {w w' w'' : LockedWindow} (first : Calmer w w') (second : Calmer w' w'') : Calmer w w'' where
  started := second.started.trans first.started
  generation := second.generation.trans first.generation
  baseline := second.baseline.trans first.baseline
  count := second.count.trans first.count
  attempted := second.attempted.trans first.attempted
  active := first.active ∘ second.active
  fresh := fun slot => first.fresh slot ∘ second.fresh slot

theorem inv_calmer (h : Inv s t) {w : LockedWindow} (calmer : Calmer s.window w) : Inv { s with window := w } t where
  stamped := calmer.started.trans h.stamped
  begun := h.begun
  reading := h.reading
  checked := fun active => h.checked (calmer.active active)
  fresh := fun slot fresh => by
    obtain ⟨r, mem, same, generation, inside⟩ := h.fresh slot (calmer.fresh slot fresh)
    exact ⟨r, mem, same, generation.trans calmer.generation.symm, inside⟩
  known := fun slot known => by
    obtain ⟨r, mem, latest, past⟩ := h.known slot known
    refine ⟨r, mem, ⟨latest.same, latest.generation, latest.stamped, fun active apart => ?_⟩, past⟩
    rw [calmer.baseline, calmer.generation] at apart
    exact latest.inside (calmer.active active) apart

theorem calmer_prepared (s : System) (now : Int) (c : Conditions) : Calmer s.window (s.prepared now c) := by
  unfold System.prepared
  dsimp only
  have interval : Calmer s.window { s.window with intervalMs := c.intervalMs.getD s.window.intervalMs } :=
    ⟨rfl, rfl, rfl, rfl, rfl, id, fun _ => id⟩
  have stopped : Calmer s.window (if c.locked = false ∨ c.otaBusy = true ∨ c.failed = true then
      LockedWindow.finish { s.window with intervalMs := c.intervalMs.getD s.window.intervalMs } (stamp 32 now) false
        (if c.failed = true then espFail else 0)
      else { s.window with intervalMs := c.intervalMs.getD s.window.intervalMs }) := by
    split
    · exact interval.trans (calmer_finish _ _ _ _)
    · exact interval
  generalize (if c.locked = false ∨ c.otaBusy = true ∨ c.failed = true then
    LockedWindow.finish { s.window with intervalMs := c.intervalMs.getD s.window.intervalMs } (stamp 32 now) false
      (if c.failed = true then espFail else 0)
    else { s.window with intervalMs := c.intervalMs.getD s.window.intervalMs }) = w at stopped ⊢
  split
  · exact stopped.trans ⟨rfl, rfl, rfl, rfl, rfl, id, nofun⟩
  · exact stopped

/-- What `begin` does to the window: nothing new, or a start on the snapshot. -/
theorem begin_cases (s : System) (now : Int) (c : Conditions) :
    ((s.begin now c).window = s.prepared now c ∧ (s.begin now c).startedAt = s.startedAt ∧
      (s.begin now c).checkedAt = s.checkedAt) ∨
    (¬((s.prepared now c).attempted = true ∧
      stamp 32 now - (s.prepared now c).startedMs < (s.prepared now c).intervalMs) ∧
      (s.begin now c).window.startedMs = stamp 32 now ∧
      (s.begin now c).window.intervalMs = (s.prepared now c).intervalMs ∧
      (s.begin now c).window.generation = s.ble.connectionGeneration ∧
      (s.begin now c).window.baseline = s.ble.threadStatusCompleteReceiptSequence ∧
      (s.begin now c).window.freshMask = Mask.none ∧ (s.begin now c).startedAt = now ∧
      (s.begin now c).checkedAt = now) := by
  unfold System.begin LockedWindow.start
  dsimp only
  split
  · split
    · exact .inl ⟨rfl, rfl, rfl⟩
    · rename_i free
      exact .inr ⟨fun early => free (.inr early), rfl, rfl, rfl, rfl, rfl, rfl, rfl⟩
  · exact .inl ⟨rfl, rfl, rfl⟩

private theorem begin_link (s : System) (now : Int) (c : Conditions) : (s.begin now c).ble = s.ble ∧
    (s.begin now c).received = s.received ∧ (s.begin now c).point = s.point := ⟨rfl, rfl, rfl⟩

theorem inv_begin (h : Inv s t) (reading : s.startedAt ≤ now ∧ now ≤ t) (at_ : s.point.reading = some now) :
    Inv (s.begin now c) t := by
  rcases begin_cases s now c with ⟨window, startedAt, checkedAt⟩ |
    ⟨-, startedMs, -, generation, baseline, mask, startedAt, checkedAt⟩
  · have calm := inv_calmer h (calmer_prepared s now c)
    refine ⟨?_, ?_, ?_, ?_, ?_, ?_⟩
    · rw [window, startedAt]
      exact calm.stamped
    · rw [startedAt]
      exact h.begun
    · rw [startedAt]
      exact h.reading
    · rw [window, startedAt, checkedAt]
      exact calm.checked
    · intro slot fresh
      rw [window] at fresh
      obtain ⟨r, mem, counts⟩ := calm.fresh slot fresh
      refine ⟨r, mem, ?_⟩
      rw [Counts, window, startedAt]
      exact counts
    · intro slot known
      obtain ⟨r, mem, latest, past⟩ := calm.known slot known
      refine ⟨r, mem, ⟨latest.same, latest.generation, latest.stamped, ?_⟩, past⟩
      rw [window, startedAt]
      exact latest.inside
  · refine ⟨?_, ?_, ?_, ?_, ?_, ?_⟩
    · rw [startedMs, startedAt]
    · rw [startedAt]
      exact reading.2
    · intro now' here
      rw [startedAt]
      have same : now = now' := Option.some.inj (at_.symm.trans here)
      rw [← same]
      exact ⟨Int.le_refl _, reading.2⟩
    · intro _
      rw [startedAt, checkedAt]
      omega
    · intro slot fresh
      rw [mask] at fresh
      cases fresh
    · intro slot known
      obtain ⟨r, mem, latest, past⟩ := h.known slot known
      refine ⟨r, mem, ⟨latest.same, latest.generation, latest.stamped, fun _ apart => ?_⟩, past⟩
      rw [baseline, generation] at apart
      exact absurd apart (by simp [begin_link])

theorem renewed_keeps (w : LockedWindow) (gen : Word) : (w.renewed gen).active = w.active ∧
    (w.renewed gen).startedMs = w.startedMs ∧ (w.renewed gen).generation = gen := by
  unfold LockedWindow.renewed
  split
  · exact ⟨rfl, rfl, rfl⟩
  · rename_i same
    exact ⟨rfl, rfl, (not_not.mp same).symm⟩

theorem inv_renewed (h : Inv s t) : Inv { s with window := s.window.renewed s.ble.connectionGeneration } t := by
  unfold LockedWindow.renewed
  split
  · rename_i other
    refine ⟨h.stamped, h.begun, h.reading, h.checked, nofun, fun slot known => ?_⟩
    obtain ⟨r, mem, latest, past⟩ := h.known slot known
    exact ⟨r, mem, ⟨latest.same, latest.generation, latest.stamped,
      fun active _ => latest.inside active (.inr other)⟩, past⟩
  · exact h

/-- The bits that a snapshot of the window's own generation adds. -/
theorem inv_mark (h : Inv s t) (active : s.window.active = true) (soon : t < s.startedAt + 4294967296)
    (generation : s.ble.connectionGeneration = s.window.generation) :
    Inv { s with window := { s.window with freshMask := fun slot => s.window.freshMask slot ||
      (s.ble.knownMask slot && s.ble.threadStatusCompleteReceiptSequence slot != s.window.baseline slot &&
        s.ble.threadStatusCompleteReceiptMs slot - s.window.startedMs < durationMs) } } t where
  stamped := h.stamped
  begun := h.begun
  reading := h.reading
  checked := h.checked
  fresh := fun slot fresh => by
    simp only [Bool.or_eq_true, Bool.and_eq_true, bne_iff_ne, decide_eq_true_eq] at fresh
    rcases fresh with old | ⟨⟨known, moved⟩, recent⟩
    · exact h.fresh slot old
    · obtain ⟨r, mem, latest, past⟩ := h.known slot known
      have late := latest.inside active (.inl moved)
      rw [latest.stamped, h.stamped, recent_iff late (by omega)] at recent
      exact ⟨r, mem, latest.same, latest.generation.trans generation, late, recent⟩
  known := fun slot known => by
    obtain ⟨r, mem, latest, past⟩ := h.known slot known
    exact ⟨r, mem, ⟨latest.same, latest.generation, latest.stamped, latest.inside⟩, past⟩

theorem inv_collect (h : Inv s t) (active : s.window.active = true) (soon : t < s.startedAt + 4294967296) :
    Inv { s with window := s.window.collect s.ble } t := by
  obtain ⟨active', -, generation⟩ := renewed_keeps s.window s.ble.connectionGeneration
  unfold LockedWindow.collect LockedWindow.observe
  dsimp only
  split
  · exact h
  · split
    · exact inv_renewed h
    · exact inv_mark (inv_renewed h) (active'.trans active) soon generation.symm

/-- The deadline is decided on at `now`: a window that stays active has not met it. -/
theorem inv_close (h : Inv s t) (late : s.startedAt ≤ now) (soon : now < s.startedAt + 4294967296) :
    Inv { s with window := s.window.close (stamp 32 now), checkedAt := now } t := by
  have decided : Inv { s with window := s.window.close (stamp 32 now) } t := by
    unfold LockedWindow.close
    split
    · exact inv_calmer h (calmer_finish _ _ _ _)
    · split
      · exact inv_calmer h (calmer_finish _ _ _ _)
      · exact h
  refine ⟨decided.stamped, h.begun, h.reading, fun active => ⟨late, ?_⟩, decided.fresh, fun slot known => ?_⟩
  · unfold LockedWindow.close at active
    have inactive : ∀ timeout failure, (s.window.finish (stamp 32 now) timeout failure).active = false := by
      intro timeout failure
      unfold LockedWindow.finish
      split
      · assumption
      · rfl
    dsimp only at active
    split at active
    · rw [inactive] at active
      cases active
    · split at active
      · rw [inactive] at active
        cases active
      · rename_i early
        rw [LockedWindow.expired, active, Bool.true_and, decide_eq_true_eq, h.stamped, BitVec.not_le,
          recent_iff late soon] at early
        exact early
  · obtain ⟨r, mem, latest, past⟩ := decided.known slot known
    exact ⟨r, mem, ⟨latest.same, latest.generation, latest.stamped, latest.inside⟩, past⟩

theorem inv_first (h : Inv s t) (reading : s.startedAt ≤ now ∧ now ≤ t) (at_ : s.point.reading = some now)
    (soon : (s.begin now c).window.active = true → t < (s.begin now c).startedAt + 4294967296) :
    Inv (s.first now c) t ∧ (s.first now c).startedAt ≤ now := by
  have begun := inv_begin (c := c) h reading at_
  have late := (begun.reading now at_).1
  unfold System.first
  dsimp only
  split
  · rename_i open_
    have collected := inv_collect begun open_.2.1 (soon open_.2.1)
    have room := soon open_.2.1
    exact ⟨inv_close collected late (show now < (s.begin now c).startedAt + 4294967296 by omega), late⟩
  · exact ⟨begun, late⟩

theorem Inv.at_point (h : Inv s t) (point : Point)
    (reading : ∀ now, point.reading = some now → s.startedAt ≤ now ∧ now ≤ t) :
    Inv { s with point := point } t where
  stamped := h.stamped
  begun := h.begun
  reading := reading
  checked := h.checked
  fresh := h.fresh
  known := fun slot known => by
    obtain ⟨r, mem, latest, past⟩ := h.known slot known
    exact ⟨r, mem, ⟨latest.same, latest.generation, latest.stamped, latest.inside⟩, past⟩

theorem inv_second (h : Inv s t) (soon : s.window.active = true → t < s.startedAt + 4294967296) :
    Inv (s.second c) t := by
  unfold System.second
  split
  · rename_i open_
    exact inv_collect h open_.2.1 (soon open_.2.1)
  · exact h

theorem inv_last (h : Inv s t) (soon : s.window.active = true → t < s.startedAt + 4294967296) :
    Inv (s.last t now c) t := by
  unfold System.last
  dsimp only
  have closed : Inv (if c.locked = true ∧ s.window.active = true ∧ c.failedLater = false then
      { s with window := s.window.close (stamp 32 t), checkedAt := t } else s) t := by
    split
    · rename_i open_
      exact inv_close h h.begun (soon open_.2.1)
    · exact h
  generalize (if c.locked = true ∧ s.window.active = true ∧ c.failedLater = false then
    { s with window := s.window.close (stamp 32 t), checkedAt := t } else s) = s' at closed ⊢
  split
  · exact inv_calmer closed (calmer_finish _ _ _ _)
  · exact closed

/-- What the schedule promises of a step of the service. -/
private theorem soon_of_checked (h : Inv s t') (active : s.window.active = true)
    (bound : t ≤ s.checkedAt + 4294959296) : t < s.startedAt + 4294967296 := by
  have checked := h.checked active
  omega

theorem inv_step (h : Inv s t) (order : t ≤ t') (input : Input) (punctual : s.punctual 4294959296 t' input = true) :
    Inv (s.step t' input) t' := by
  have later := h.later order
  cases input with
  | receive completeMask statusMask semanticChanged => exact inv_receive later completeMask statusMask semanticChanged
  | link connected generation =>
    exact ⟨h.stamped, later.begun, later.reading, h.checked, h.fresh, nofun⟩
  | ready protocolReady =>
    refine ⟨h.stamped, later.begun, later.reading, h.checked, h.fresh, fun slot known => ?_⟩
    obtain ⟨r, mem, latest, past⟩ := later.known slot known
    exact ⟨r, mem, ⟨latest.same, latest.generation, latest.stamped, latest.inside⟩, past⟩
  | requestLockedRefresh =>
    refine ⟨h.stamped, later.begun, later.reading, h.checked, h.fresh, fun slot known => ?_⟩
    obtain ⟨r, mem, latest, past⟩ := later.known slot known
    exact ⟨r, mem, ⟨latest.same, latest.generation, latest.stamped, latest.inside⟩, past⟩
  | readClock =>
    unfold System.step
    dsimp only
    split
    · exact later.at_point _ fun now here => by
        cases here
        exact ⟨later.begun, Int.le_refl _⟩
    · exact later
  | firstSnapshot c =>
    unfold System.step
    dsimp only
    split
    · rename_i now point
      have at_ : s.point.reading = some now := by rw [point]; rfl
      have reading := later.reading now at_
      simp only [System.punctual, point, Bool.or_eq_true, Bool.not_eq_true', decide_eq_true_eq] at punctual
      obtain ⟨first, begun⟩ := inv_first (c := c) later reading at_ fun active => by
        have begun := inv_begin (c := c) later reading at_
        refine soon_of_checked begun active (punctual.resolve_left ?_)
        rw [active]
        nofun
      exact first.at_point _ fun now' here => by
        cases here
        exact ⟨begun, reading.2⟩
    · exact later
  | secondSnapshot =>
    unfold System.step
    dsimp only
    split
    · rename_i now c point
      have reading := later.reading now (by rw [point]; rfl)
      simp only [System.punctual, Bool.or_eq_true, Bool.not_eq_true', decide_eq_true_eq] at punctual
      have second := inv_second (c := c) later fun active =>
        soon_of_checked later active (punctual.resolve_left (by rw [active]; nofun))
      exact second.at_point _ fun now' here => by
        cases here
        refine ⟨?_, reading.2⟩
        have same : (s.second c).startedAt = s.startedAt := by
          unfold System.second
          split <;> rfl
        rw [same]
        exact reading.1
    · exact later
  | finishService =>
    unfold System.step
    dsimp only
    split
    · rename_i now c point
      simp only [System.punctual, Bool.or_eq_true, Bool.not_eq_true', decide_eq_true_eq] at punctual
      have last : Inv (s.last t' now c) t' := inv_last later fun active =>
        soon_of_checked later active (punctual.resolve_left (by rw [active]; nofun))
      exact last.at_point _ nofun
    · exact later

theorem inv_run {run : List (Int × Input)} (h : Inv s t) (admitted : s.admits 4294959296 t run = true) :
    ∃ t', Inv (s.run run) t' := by
  induction run generalizing s t with
  | nil => exact ⟨t, h⟩
  | cons step run ih =>
    obtain ⟨t', input⟩ := step
    simp only [System.admits, Bool.and_eq_true, decide_eq_true_eq] at admitted
    exact ih (inv_step h admitted.1.1 input admitted.1.2) admitted.2

theorem close_keeps (w : LockedWindow) (now : Word) :
    (w.close now).count = w.count ∧ (w.close now).intervalMs = w.intervalMs := by
  have finished : ∀ timeout failure, (w.finish now timeout failure).count = w.count ∧
      (w.finish now timeout failure).intervalMs = w.intervalMs := by
    intro timeout failure
    unfold LockedWindow.finish
    split <;> exact ⟨rfl, rfl⟩
  unfold LockedWindow.close
  split
  · exact finished _ _
  · split
    · exact finished _ _
    · exact ⟨rfl, rfl⟩

theorem collect_count (w : LockedWindow) (ble : State) :
    (w.collect ble).count = w.count ∧ (w.collect ble).intervalMs = w.intervalMs := by
  unfold LockedWindow.collect LockedWindow.observe LockedWindow.renewed
  dsimp only
  split
  · exact ⟨rfl, rfl⟩
  · split <;> split <;> exact ⟨rfl, rfl⟩

private theorem first_count (s : System) (now : Int) (c : Conditions) :
    (s.first now c).window.count = (s.begin now c).window.count ∧
      (s.first now c).window.intervalMs = (s.begin now c).window.intervalMs ∧
      (s.first now c).startedAt = (s.begin now c).startedAt := by
  unfold System.first
  dsimp only
  split
  · obtain ⟨count, interval⟩ := close_keeps ((s.begin now c).window.collect (s.begin now c).ble) (stamp 32 now)
    obtain ⟨count', interval'⟩ := collect_count (s.begin now c).window (s.begin now c).ble
    exact ⟨count.trans count', interval.trans interval', rfl⟩
  · exact ⟨rfl, rfl, rfl⟩

/-- Only the first half of a service call starts a window. -/
theorem step_count (s : System) (t : Int) (input : Input) : (s.step t input).window.count = s.window.count ∨
    ∃ now c, s.point = .clock now ∧ (s.step t input).window.count = (s.begin now c).window.count ∧
      (s.step t input).window.intervalMs = (s.begin now c).window.intervalMs ∧
      (s.step t input).startedAt = (s.begin now c).startedAt := by
  cases input with
  | receive | link | ready | requestLockedRefresh => exact .inl rfl
  | readClock =>
    unfold System.step
    dsimp only
    split <;> exact .inl rfl
  | firstSnapshot c =>
    unfold System.step
    dsimp only
    split
    · rename_i now point
      exact .inr ⟨now, c, point, first_count s now c⟩
    · exact .inl rfl
  | secondSnapshot =>
    unfold System.step System.second
    dsimp only
    split
    · split
      · exact .inl (collect_count _ _).1
      · exact .inl rfl
    · exact .inl rfl
  | finishService =>
    unfold System.step System.last
    dsimp only
    refine .inl ?_
    split
    · dsimp only
      split
      · refine (calmer_finish _ _ _ _).count.trans ?_
        split
        · exact (close_keeps _ _).1
        · rfl
      · split
        · exact (close_keeps _ _).1
        · rfl
    · rfl

private theorem start_after_interval (h : Inv s t) (at_ : s.point.reading = some now)
    (started : (s.begin now c).window.count ≠ s.window.count) (attempted : s.window.attempted = true) :
    s.startedAt + (s.begin now c).window.intervalMs.toNat ≤ (s.begin now c).startedAt := by
  have calmer := calmer_prepared s now c
  rcases begin_cases s now c with ⟨same, -⟩ | ⟨free, -, interval, -, -, -, startedAt, -⟩
  · rw [same] at started
    exact absurd calmer.count started
  · rw [startedAt, interval]
    refine interval_le (h.reading now at_).1 fun early => free ⟨calmer.attempted.trans attempted, ?_⟩
    rw [calmer.started, h.stamped]
    exact early

/-- In every run whose service is in time: a fresh bit is a complete status of its slot, received in the
generation of the window within its eight seconds, and a start comes the interval after the one before. -/
theorem fresh_in_window (run : List (Int × Input)) (admitted : System.admits {} 4294959296 0 run = true) :
    (∀ slot, (System.run {} run).window.freshMask slot = true → ∃ r ∈ (System.run {} run).received,
      r.slot = slot ∧ r.generation = (System.run {} run).window.generation ∧
        (System.run {} run).startedAt ≤ r.time ∧ r.time < (System.run {} run).startedAt + 8000) ∧
    (System.run {} run).window.startedMs = stamp 32 (System.run {} run).startedAt ∧
    (∀ t input, ((System.run {} run).step t input).window.count ≠ (System.run {} run).window.count →
      (System.run {} run).window.attempted = true →
      (System.run {} run).startedAt + ((System.run {} run).step t input).window.intervalMs.toNat ≤
        ((System.run {} run).step t input).startedAt) := by
  obtain ⟨t, inv⟩ := inv_run inv_boot admitted
  generalize System.run {} run = s at inv ⊢
  refine ⟨inv.fresh, inv.stamped, fun t input started attempted => ?_⟩
  rcases step_count s t input with same | ⟨now, c, point, count, interval, startedAt⟩
  · exact absurd same started
  · rw [interval, startedAt]
    rw [count] at started
    exact start_after_interval inv (by rw [point]; rfl) started attempted

def lockedConditions : Conditions :=
  { locked := true, otaBusy := false, hidReady := true, failed := false, failedLater := false, intervalMs := none }

def serviceAt (t : Int) : List (Int × Input) :=
  [(t, .readClock), (t, .firstSnapshot lockedConditions), (t, .secondSnapshot), (t, .finishService)]

def onlyFirst : Mask := fun slot => slot == 0

/-- A window whose link is up from the start, with one complete status at `received`. -/
def windowRun (received : Int) (services : List Int) : List (Int × Input) :=
  [(0, .link true 1), (0, .ready true)] ++ serviceAt 0 ++ (services.dropLast.flatMap serviceAt) ++
    [(received, .receive onlyFirst Mask.none Mask.none)] ++ (services.getLast?.toList.flatMap serviceAt)

theorem fresh_in_window_early : ∃ r ∈ (System.run {} (windowRun 5 [100])).received, r.slot = 0 ∧ r.time < 8000 := by
  obtain ⟨r, mem, slot, -, -, time⟩ := (fresh_in_window (windowRun 5 [100]) (by decide)).1 0 (by decide)
  exact ⟨r, mem, slot, time⟩

/-- With gaps of a whole period a status of seven weeks later is taken for a fresh one. -/
theorem late_status_counts : ¬∀ run, System.admits {} 4294967296 0 run = true →
    ∀ slot, (System.run {} run).window.freshMask slot = true → ∃ r ∈ (System.run {} run).received,
      r.slot = slot ∧ r.generation = (System.run {} run).window.generation ∧
        (System.run {} run).startedAt ≤ r.time ∧ r.time < (System.run {} run).startedAt + 8000 := by
  intro always
  have counted := always (windowRun 4294967396 [7999, 4294975294]) (by decide) 0 (by decide)
  revert counted
  decide

end Mosaico.Host.SessionWindow
