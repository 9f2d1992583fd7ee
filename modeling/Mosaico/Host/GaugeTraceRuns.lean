import Mosaico.Host.GaugeTraceService

/-! Every trace that a run can reach is read back by the next boot, as far as it is persisted. -/
namespace Mosaico.Host.GaugeTrace

open ByteFields

/-- No step back in the session number, nor in the time within a session. -/
def Before (previous s : Sample) : Prop :=
  previous.boot < s.boot ∨ (previous.boot = s.boot ∧ previous.monotonicMs ≤ s.monotonicMs)

theorem inOrder_iff (previous s : Sample) : inOrder previous s = true ↔ Before previous s := by
  simp only [inOrder, Before, Bool.not_eq_true', Bool.or_eq_false_iff, Bool.and_eq_false_imp,
    decide_eq_false_iff_not, beq_iff_eq, UInt32.lt_iff_toNat_lt, UInt64.lt_iff_toNat_lt,
    UInt64.le_iff_toNat_le, ← UInt32.toNat_inj]
  omega

theorem Before.trans {a b c : Sample} (h : Before a b) (h' : Before b c) : Before a c := by
  simp only [Before, UInt32.lt_iff_toNat_lt, UInt64.le_iff_toNat_le, ← UInt32.toNat_inj] at *
  omega

/-- What the decoder asks of the rows of a session. -/
structure Rows (boot : UInt32) (items : List Sample) : Prop where
  each : ∀ s ∈ items, s.boot ≠ 0 ∧ s.boot ≤ boot ∧ s.flags &&& ~~~63 = 0
  ordered : items.Pairwise Before

theorem Model.mem_items {m : Model} {s : Sample} (h : s ∈ m.items) :
    ∃ i, i < m.count ∧ s = m.at_ i := by
  obtain ⟨i, hi, same⟩ := List.mem_map.mp h
  exact ⟨i, List.mem_range.mp hi, same.symm⟩

theorem Model.at_mem {m : Model} {i : Nat} (h : i < m.count) : m.at_ i ∈ m.items :=
  List.mem_map.mpr ⟨i, List.mem_range.mpr h, rfl⟩

/-- Checking neighbours is checking all. -/
theorem Model.rowsOk_iff (m : Model) :
    (List.range m.count).all m.rowOk = true ↔ Rows m.boot m.items := by
  rw [List.all_eq_true]
  constructor
  · intro ok
    have row : ∀ i, i < m.count → (m.at_ i).boot ≠ 0 ∧ (m.at_ i).boot ≤ m.boot ∧
        (m.at_ i).flags &&& ~~~63 = 0 ∧ (i ≠ 0 → Before (m.at_ (i - 1)) (m.at_ i)) := by
      intro i hi
      have := ok i (List.mem_range.mpr hi)
      simpa [Model.rowOk, inOrder_iff, and_assoc, or_iff_not_imp_left] using this
    refine ⟨fun s mem => ?_, ?_⟩
    · obtain ⟨i, hi, rfl⟩ := mem_items mem
      exact ⟨(row i hi).1, (row i hi).2.1, (row i hi).2.2.1⟩
    · have before : ∀ i k, i + k + 1 < m.count → Before (m.at_ i) (m.at_ (i + k + 1)) := by
        intro i k
        induction k with
        | zero => exact fun hk => (row (i + 1) hk).2.2.2 (Nat.succ_ne_zero i)
        | succ k ih =>
          exact fun hk => (ih (by omega)).trans ((row (i + k + 2) hk).2.2.2 (Nat.succ_ne_zero _))
      rw [List.pairwise_iff_getElem]
      intro i j hi hj hij
      simp only [items_length] at hi hj
      have here := before i (j - i - 1) (by omega)
      rw [show i + (j - i - 1) + 1 = j by omega] at here
      simpa [Model.items] using here
  · intro rows i hi
    have inside := List.mem_range.mp hi
    obtain ⟨some_, known, flags⟩ := rows.each _ (at_mem inside)
    have order : i ≠ 0 → Before (m.at_ (i - 1)) (m.at_ i) := by
      intro later
      have pairs := List.pairwise_iff_getElem.mp rows.ordered (i - 1) i
        (by rw [items_length]; omega) (by rw [items_length]; omega) (by omega)
      simpa [Model.items] using pairs
    simpa [Model.rowOk, inOrder_iff, and_assoc, or_iff_not_imp_left] using
      ⟨some_, known, flags, order⟩

/-- A model that the decoder accepts. -/
structure Good (m : Model) : Prop where
  bounded : m.Bounded
  boot : m.boot ≠ 0
  rows : Rows m.boot m.items
  final : m.finalizedChargeAfterLow = true → m.lowSeen = true ∧ m.armed = false ∧ 0 < m.count

theorem Good.accepted {m : Model} (h : Good m) : m.accepted = true := by
  have states : (m.finalizedChargeAfterLow && (!m.lowSeen || m.armed)) = false := by
    cases final : m.finalizedChargeAfterLow with
    | false => rfl
    | true => simp [(h.final final).1, (h.final final).2.1]
  unfold Model.accepted
  rw [states, (m.rowsOk_iff).mpr h.rows]
  simpa using h.boot

theorem Model.restored_eq (m : Model) :
    m.restored.count = m.count ∧ m.restored.head = m.count % capacity ∧ m.restored.boot = m.boot ∧
      m.restored.armed = m.armed ∧ m.restored.lowSeen = m.lowSeen ∧
      m.restored.finalizedChargeAfterLow = m.finalizedChargeAfterLow := by
  simp only [Model.restored, and_self]

theorem Model.restored_rows (m : Model) (i : Fin capacity) :
    m.restored.rows.get i = if i.val < m.count then (m.at_ i.val).stored else {} := by
  simp only [Model.restored]
  exact Vector.getElem_ofFn i.isLt

theorem Model.restored_at {m : Model} (h : m.Bounded) {i : Nat} (hi : i < m.count) :
    m.restored.at_ i = (m.at_ i).stored := by
  have count : m.count ≤ 64 := h.count
  have inside : i < capacity := show i < 64 by omega
  have here : slot (m.restored.start + i) = ⟨i, inside⟩ := by
    apply Fin.ext
    rw [Model.start, m.restored_eq.1, m.restored_eq.2.1, slot, Fin.val_ofNat]
    simp only [capacity]
    omega
  rw [Model.at_, here, restored_rows, if_pos hi]

theorem Model.restored_items {m : Model} (h : m.Bounded) :
    m.restored.items = m.items.map Sample.stored := by
  rw [Model.items, m.restored_eq.1, Model.items, List.map_map]
  apply List.map_congr_left
  intro i hi
  exact restored_at h (List.mem_range.mp hi)

theorem Rows.stored {boot : UInt32} {items : List Sample} (h : Rows boot items) :
    Rows boot (items.map Sample.stored) := by
  constructor
  · intro s mem
    obtain ⟨r, hr, rfl⟩ := List.mem_map.mp mem
    rw [r.stored_eq.1, r.stored_eq.2.1]
    exact h.each r hr
  · rw [List.pairwise_map]
    apply h.ordered.imp
    intro a b before
    simpa only [Before, a.stored_eq, b.stored_eq] using before

theorem Good.restored {m : Model} (h : Good m) : Good m.restored := by
  obtain ⟨count, head, boot, armed, lowSeen, final⟩ := m.restored_eq
  refine ⟨⟨?_, ?_⟩, ?_, ?_, ?_⟩
  · rw [head]
    exact Nat.mod_lt _ (by decide)
  · rw [count]
    exact h.bounded.count
  · rw [boot]
    exact h.boot
  · rw [boot, Model.restored_items h.bounded]
    exact h.rows.stored
  · rw [final, lowSeen, armed, count]
    exact h.final

/-- What is loaded from a stored blob. -/
theorem Good.read_back {m : Model} (h : Good m) : decode (encodeInto m) = some m.restored := by
  rw [decode_encodeInto h.bounded, if_pos h.accepted]

theorem Good.empty {boot : UInt32} (h : boot ≠ 0) : Good { boot := boot } where
  bounded := ⟨show 0 < 64 by omega, Nat.zero_le _⟩
  boot := h
  rows := ⟨by simp [Model.items], by simp [Model.items]⟩
  final := nofun

/-- The rows of this session are not from the future. -/
def Fresh (now : UInt64) (m : Model) : Prop :=
  ∀ s ∈ m.items, s.boot = m.boot → s.monotonicMs ≤ now

theorem Rows.append {boot : UInt32} {items : List Sample} {s : Sample} (h : Rows boot items)
    (some_ : boot ≠ 0) (fresh : ∀ r ∈ items, r.boot = boot → r.monotonicMs ≤ s.monotonicMs)
    (flags : s.flags &&& ~~~63 = 0) : Rows boot (items ++ [{ s with boot := boot }]) := by
  constructor
  · intro r mem
    cases List.mem_append.mp mem with
    | inl old => exact h.each r old
    | inr new =>
      rw [List.mem_singleton.mp new]
      exact ⟨some_, UInt32.le_refl boot, flags⟩
  · rw [List.pairwise_append]
    refine ⟨h.ordered, List.pairwise_singleton .., fun r mem n hn => ?_⟩
    rw [List.mem_singleton.mp hn]
    cases UInt32.lt_or_eq_of_le (h.each r mem).2.1 with
    | inl earlier => exact .inl earlier
    | inr same => exact .inr ⟨same, fresh r mem same⟩

theorem Model.watchCharge_spec (m : Model) (s : Sample)
    (final : m.finalizedChargeAfterLow = true → m.lowSeen = true ∧ m.armed = false) :
    (m.watchCharge s).boot = m.boot ∧ (m.watchCharge s).count = m.count ∧
      ((m.watchCharge s).finalizedChargeAfterLow = true →
        (m.watchCharge s).lowSeen = true ∧ (m.watchCharge s).armed = false) := by
  unfold Model.watchCharge
  dsimp only
  generalize (if m.chargingSamples < 2 then m.chargingSamples + 1 else m.chargingSamples) = count
  have kept (more : Bool) (done : m.finalizedChargeAfterLow = true) :
      (m.lowSeen || more) = true ∧ m.armed = false := by
    simp [(final done).1, (final done).2]
  split
  · split
    · rename_i charging
      split
      · exact ⟨rfl, rfl, fun _ => ⟨(Bool.and_eq_true_iff.mp charging).1, rfl⟩⟩
      · exact ⟨rfl, rfl, kept _⟩
    · exact ⟨rfl, rfl, kept _⟩
  · exact ⟨rfl, rfl, final⟩

/-- The ring and the session number are what matters to the rows. -/
theorem Good.same {m n : Model} (h : Good m)
    (ring : n.rows = m.rows ∧ n.head = m.head ∧ n.count = m.count ∧ n.boot = m.boot)
    (final : n.finalizedChargeAfterLow = true → n.lowSeen = true ∧ n.armed = false ∧ 0 < m.count) :
    Good n := by
  obtain ⟨rows, head, count, boot⟩ := ring
  have at_ : n.at_ = m.at_ := by
    funext i
    simp only [Model.at_, Model.start, rows, head, count]
  have items : n.items = m.items := by
    rw [Model.items, Model.items, count, at_]
  refine ⟨⟨?_, ?_⟩, ?_, ?_, ?_⟩
  · rw [head]
    exact h.bounded.head
  · rw [count]
    exact h.bounded.count
  · rw [boot]
    exact h.boot
  · rw [items, boot]
    exact h.rows
  · rw [count]
    exact final

theorem Model.append_states (m : Model) (s : Sample)
    (final : m.finalizedChargeAfterLow = true → m.lowSeen = true ∧ m.armed = false) :
    (m.append s).boot = m.boot ∧ ((m.append s).finalizedChargeAfterLow = true →
      (m.append s).lowSeen = true ∧ (m.append s).armed = false ∧ 0 < (m.append s).count) := by
  unfold Model.append
  dsimp only
  generalize hm : (if m.count = capacity then m.compactOldest else m) = m₁
  have same : m₁.boot = m.boot ∧ m₁.lowSeen = m.lowSeen ∧ m₁.armed = m.armed ∧
      m₁.finalizedChargeAfterLow = m.finalizedChargeAfterLow := by
    rw [← hm]
    split <;> exact ⟨rfl, rfl, rfl, rfl⟩
  obtain ⟨boot, lowSeen, armed, finalized⟩ := same
  have pushed : 0 < (m₁.push { s with boot := m₁.boot }).count := by
    simp only [Model.push]
    split
    · exact Nat.succ_pos _
    · rename_i full
      exact Nat.lt_of_lt_of_le (show 0 < capacity by decide) (Nat.le_of_not_lt full)
  obtain ⟨sameBoot, sameCount, states⟩ := (m₁.push { s with boot := m₁.boot }).watchCharge_spec s
    (by simpa only [Model.push, lowSeen, armed, finalized] using final)
  refine ⟨sameBoot.trans boot, fun done => ?_⟩
  exact ⟨(states done).1, (states done).2, by rw [sameCount]; exact pushed⟩

theorem Good.append {m : Model} (h : Good m) {s : Sample} (fresh : Fresh s.monotonicMs m)
    (flags : s.flags &&& ~~~63 = 0) :
    Good (m.append s) ∧ Fresh s.monotonicMs (m.append s) := by
  obtain ⟨bounded, items⟩ := m.append_spec h.bounded s
  have older : (if m.count = capacity then m.items.eraseIdx (victim m.at_ m.count)
      else m.items).Sublist m.items := by
    split
    · exact List.eraseIdx_sublist ..
    · exact List.Sublist.refl _
  have old : Rows m.boot (if m.count = capacity then m.items.eraseIdx (victim m.at_ m.count)
      else m.items) := ⟨fun r mem => h.rows.each r (older.subset mem), h.rows.ordered.sublist older⟩
  have rows := old.append h.boot (fun r mem => fresh r (older.subset mem)) flags
  rw [← items] at rows
  have watched := m.append_states s fun done => ⟨(h.final done).1, (h.final done).2.1⟩
  refine ⟨⟨bounded, by rw [watched.1]; exact h.boot, by rw [watched.1]; exact rows, watched.2⟩, ?_⟩
  intro r mem here
  rw [items] at mem
  rw [watched.1] at here
  cases List.mem_append.mp mem with
  | inl was => exact fresh r (older.subset was) here
  | inr new =>
    rw [List.mem_singleton.mp new]
    exact UInt64.le_refl _

theorem convert_flags (t : Telemetry) (epoch : Option UInt64) (now : UInt64) :
    (convert t epoch now).flags &&& ~~~63 = 0 := by
  have bits : ∀ a b c d e f : Bool, (flag a 1 ||| flag b 2 ||| flag c 4 ||| flag d 8 |||
      flag e 16 ||| flag f 32) &&& ~~~63 = 0 := by decide
  exact bits ..

section Runs

/-- What holds of the task at a time, between any two of its events. -/
structure Lawful (now : UInt64) (w : World) : Prop where
  good : Good w.service.model
  fresh : w.service.corrupt = false → Fresh now w.service.model
  stored : ∀ blob ∈ w.stored, ∃ m, Good m ∧ blob = encodeInto m
  starting : w.service.pending = .arm ∨ w.service.pending = .resume →
    w.service.model.finalizedChargeAfterLow = false ∧ w.service.model.armed = false
  corrupt : w.service.corrupt = true →
    w.service.pending = .none ∨ w.service.pending = .clear ∨ w.service.pending = .stop
  blank : w.service.ready = false →
    w.service.model = {} ∧ w.service.corrupt = false ∧ w.service.pending = .none

/-- A Stop is pending on a trace that could not be continued. -/
def Stranded (w : World) : Prop := w.service.corrupt = true ∧ w.service.pending = .stop

variable {now next : UInt64} {w : World}

theorem Fresh.later {m : Model} (h : Fresh now m) (le : now ≤ next) : Fresh next m :=
  fun s mem here => UInt64.le_trans (h s mem here) le

theorem Lawful.later (h : Lawful now w) (le : now ≤ next) : Lawful next w :=
  { h with fresh := fun ok => (h.fresh ok).later le }

theorem Lawful.keep (h : Lawful now w) {m : Model} (good : Good m) (saving : Saving) :
    Lawful now (keep w m saving) := by
  cases saving with
  | failed => exact h
  | unacknowledged | acknowledged =>
    refine { h with stored := fun blob mem => ?_ }
    cases List.mem_cons.mp mem with
    | inl new => exact ⟨m, good, new⟩
    | inr old => exact h.stored blob old

/-- An empty trace is not final. -/
theorem Good.open_ {m : Model} (h : Good m) (none_ : m.count = 0) :
    m.finalizedChargeAfterLow = false := by
  by_contra done
  have some_ := (h.final (Bool.eq_true_of_not_eq_false done)).2.2
  omega

theorem Lawful.request (h : Lawful now w) (c : Command) :
    Lawful now { w with service := request c w.service } := by
  unfold GaugeTrace.request
  split
  · rename_i granted
    simp only [Bool.and_eq_true, beq_iff_eq, Bool.not_eq_true'] at granted
    obtain ⟨⟨isReady, free⟩, admitted⟩ := granted
    refine { h with starting := ?_, corrupt := ?_, blank := ?_ }
    · intro starts
      cases starts with
      | inl arm =>
        simp only [show c = .arm from arm, refused, Bool.or_eq_false_iff, bne_eq_false_iff_eq] at admitted
        exact ⟨h.good.open_ admitted.1.2, admitted.2⟩
      | inr resume =>
        simp only [show c = .resume from resume, refused, Bool.or_eq_false_iff] at admitted
        exact ⟨admitted.2, admitted.1.1.2⟩
    · intro bad
      have isCorrupt : w.service.corrupt = true := bad
      cases c with
      | none => exact .inl rfl
      | clear => exact .inr (.inl rfl)
      | stop => exact .inr (.inr rfl)
      | arm | checkpoint | resume => simp [refused, isCorrupt] at admitted
    · intro unready
      exact absurd isReady (by simp [show w.service.ready = false from unready])
  · exact h

theorem Good.carriedOut {m : Model} (h : Good m) (c : Command)
    (starting : c = .arm ∨ c = .resume → m.finalizedChargeAfterLow = false ∧ m.armed = false) :
    Good (carriedOut c m) := by
  cases c with
  | none | checkpoint => exact h
  | stop =>
    exact h.same ⟨rfl, rfl, rfl, rfl⟩ fun done => ⟨(h.final done).1, rfl, (h.final done).2.2⟩
  | clear => exact Good.empty h.boot
  | arm =>
    have opened := (starting (.inl rfl)).1
    exact h.same ⟨rfl, rfl, rfl, rfl⟩ fun done => (Bool.false_ne_true (opened.symm.trans done)).elim
  | resume =>
    have opened := (starting (.inr rfl)).1
    exact h.same ⟨rfl, rfl, rfl, rfl⟩ fun done => (Bool.false_ne_true (opened.symm.trans done)).elim

theorem Fresh.carriedOut {m : Model} {c : Command} (h : c ≠ .clear → Fresh now m) :
    Fresh now (carriedOut c m) := by
  cases c with
  | clear => exact fun s mem => by simp [GaugeTrace.carriedOut, Model.items] at mem
  | none | checkpoint | stop | arm | resume => exact h (by decide)

theorem Lawful.writeCommand {e : Tick} (h : Lawful e.now w) (ready : w.service.ready = true)
    (some_ : w.service.pending ≠ .none) (ok : ¬ Stranded w) :
    Lawful e.now (writeCommand w e) := by
  have good := h.good.carriedOut w.service.pending h.starting
  have kept := h.keep good e.saving
  unfold GaugeTrace.writeCommand
  dsimp only
  split
  · refine ⟨good.same ⟨rfl, rfl, rfl, rfl⟩ good.final, fun _ => ?_, kept.stored, ?_, ?_, ?_⟩
    · have fresh : Fresh e.now (GaugeTrace.carriedOut w.service.pending w.service.model) := by
        apply Fresh.carriedOut
        intro other
        apply h.fresh
        by_contra bad
        have isCorrupt := Bool.eq_true_of_not_eq_false bad
        cases h.corrupt isCorrupt with
        | inl idle => exact some_ idle
        | inr rest =>
          cases rest with
          | inl clear => exact other clear
          | inr stop => exact ok ⟨isCorrupt, stop⟩
      exact fresh
    · exact fun starts => by cases starts with | inl arm => cases arm | inr resume => cases resume
    · exact nofun
    · exact fun unready => absurd ready (by simp [show w.service.ready = false from unready])
  · refine ⟨h.good, h.fresh, kept.stored, h.starting, h.corrupt, ?_⟩
    exact fun unready => absurd ready (by simp [show w.service.ready = false from unready])

theorem Lawful.writeCheckpoint {e : Tick} (h : Lawful e.now w) (ready : w.service.ready = true) :
    Lawful e.now (writeCheckpoint w e) := by
  have good : Good (w.service.model.attempted e.now) := h.good.same ⟨rfl, rfl, rfl, rfl⟩ h.good.final
  have kept := h.keep good e.saving
  unfold GaugeTrace.writeCheckpoint
  dsimp only
  have isReady (unready : w.service.ready = false) : False := by
    rw [ready] at unready
    cases unready
  split
  · exact ⟨good.same ⟨rfl, rfl, rfl, rfl⟩ good.final, h.fresh, kept.stored, h.starting, h.corrupt,
      fun unready => (isReady unready).elim⟩
  · exact ⟨good, h.fresh, kept.stored, h.starting, h.corrupt, fun unready => (isReady unready).elim⟩

theorem Lawful.work {e : Tick} (h : Lawful e.now w) (ready : w.service.ready = true)
    (ok : ¬ Stranded w) (t : Telemetry) : Lawful e.now (work w e t) := by
  unfold GaugeTrace.work
  dsimp only
  generalize hm : (if w.service.model.due e.now && !w.service.corrupt then
    w.service.model.append (convert t e.epoch e.now) else w.service.model) = m
  have sampled : Good m ∧ (w.service.corrupt = false → Fresh e.now m) ∧
      (w.service.pending = .arm ∨ w.service.pending = .resume →
        m.finalizedChargeAfterLow = false ∧ m.armed = false) := by
    rw [← hm]
    split
    · rename_i sampling
      obtain ⟨isDue, sound⟩ := Bool.and_eq_true_iff.mp sampling
      have fresh := h.fresh (by simpa using sound)
      have appended := h.good.append (s := convert t e.epoch e.now) fresh (convert_flags t e.epoch e.now)
      refine ⟨appended.1, fun _ => appended.2, fun starts => ?_⟩
      -- A trace that waits to be armed takes no samples.
      have idle := (h.starting starts).2
      simp [Model.due, idle] at isDue
    · exact ⟨h.good, h.fresh, h.starting⟩
  have lawful : Lawful e.now { w with service := { w.service with model := m } } :=
    ⟨sampled.1, sampled.2.1, h.stored, sampled.2.2, h.corrupt,
      fun unready => absurd ready (by simp [show w.service.ready = false from unready])⟩
  split
  · exact lawful
  · split
    · rename_i writing
      exact lawful.writeCommand ready writing.1 ok
    · split
      · exact lawful.writeCheckpoint ready
      · exact lawful

theorem Lawful.ready {e : Tick} (h : Lawful e.now w) (isReady : w.service.ready = true)
    (ok : ¬ Stranded w) : Lawful e.now (ready w e) := by
  unfold GaugeTrace.ready
  dsimp only
  split
  · exact h
  · split
    · exact h
    · split
      · exact h
      · split
        · exact h
        · exact h.work isReady ok _

theorem Lawful.nextSession {m : Model} (h : Lawful now w) (unready : w.service.ready = false)
    (good : Good m) : Lawful now { w with service := nextSession w.service m } ∧
      ¬ Stranded { w with service := nextSession w.service m } := by
  have idle := (h.blank unready).2.2
  unfold GaugeTrace.nextSession
  split
  · refine ⟨⟨good, nofun, h.stored, ?_, fun _ => .inl idle, nofun⟩, ?_⟩
    · exact fun starts => by simp [idle] at starts
    · exact fun stranded => by simp [Stranded, idle] at stranded
  · rename_i more
    have larger : m.boot < m.boot + 1 := by
      have known := m.boot.toNat_lt
      simp only [UInt32.lt_iff_toNat_lt, UInt32.toNat_add, ← UInt32.toNat_inj] at more ⊢
      simp at more ⊢
      omega
    have advanced : Good { m with boot := m.boot + 1 } := by
      refine ⟨⟨good.bounded.head, good.bounded.count⟩, ?_, ⟨fun s mem => ?_, good.rows.ordered⟩, good.final⟩
      · intro zero
        rw [show m.boot + 1 = 0 from zero] at larger
        exact absurd larger (by simp [UInt32.lt_iff_toNat_lt])
      · obtain ⟨some_, known, flags⟩ := good.rows.each s mem
        exact ⟨some_, UInt32.le_of_lt (UInt32.lt_of_le_of_lt known larger), flags⟩
    refine ⟨⟨advanced, fun _ s mem here => ?_, h.stored, ?_, fun _ => .inl idle, nofun⟩, ?_⟩
    · have known := (good.rows.each s mem).2.1
      rw [show s.boot = m.boot + 1 from here] at known
      exact absurd (UInt32.lt_of_lt_of_le larger known) (UInt32.lt_irrefl _)
    · exact fun starts => by simp [idle] at starts
    · exact fun stranded => by simp [Stranded, idle] at stranded

theorem Lawful.load {loaded : Loaded} (h : Lawful now w) (unready : w.service.ready = false)
    (durable : ∀ blob, loaded = .found blob → blob ∈ w.stored) :
    Lawful now { w with service := load w.service loaded } ∧
      ¬ Stranded { w with service := load w.service loaded } := by
  have idle := (h.blank unready).2.2
  cases loaded with
  | retry =>
    refine ⟨h, fun stranded => ?_⟩
    have stop : w.service.pending = .stop := stranded.2
    rw [idle] at stop
    cases stop
  | missing => exact h.nextSession unready h.good
  | unreadable =>
    refine ⟨⟨h.good, nofun, h.stored, h.starting, fun _ => .inl idle, nofun⟩, fun stranded => ?_⟩
    have stop : w.service.pending = .stop := stranded.2
    rw [idle] at stop
    cases stop
  | found blob =>
    obtain ⟨m, good, same⟩ := h.stored blob (durable blob rfl)
    have read : decode blob = some m.restored := (congrArg decode same).trans good.read_back
    rw [GaugeTrace.load, read]
    exact h.nextSession unready good.restored

theorem Lawful.retried {s : Service} (h : Lawful now { w with service := s }) (attempt : UInt64) :
    Lawful now { w with service := { s with nextLoadAttempt := attempt } } :=
  ⟨h.good, h.fresh, h.stored, h.starting, h.corrupt, h.blank⟩

theorem Lawful.service {e : Tick} (h : Lawful e.now w) (ok : ¬ Stranded w)
    (durable : ∀ blob, e.loaded = .found blob → blob ∈ w.stored) :
    Lawful e.now (service w e) := by
  unfold GaugeTrace.service
  split
  · exact h
  · split
    · rename_i isReady
      exact h.ready isReady ok
    · rename_i unready
      have notReady : w.service.ready = false := by simpa using unready
      split
      · exact h
      · have loaded := h.load notReady durable
        dsimp only
        split
        · rename_i isReady
          exact loaded.1.ready isReady loaded.2
        · exact loaded.1.retried _

theorem Step.lawful {w' : World} (next : Step w w') (h : Lawful w.clock w) (ok : ¬ Stranded w) :
    Lawful w'.clock w' := by
  cases next with
  | restart =>
    refine ⟨Good.empty (by decide), fun _ s mem => ?_, h.stored, nofun, nofun, fun _ => ⟨rfl, rfl, rfl⟩⟩
    simp [Model.items] at mem
  | request c => exact h.request c
  | format =>
    unfold nandFormatConfirm
    dsimp only
    split
    · exact h.keep h.good .unacknowledged
    · exact h
  | service e le durable =>
    have after := (h.later le).service ok durable
    exact ⟨after.good, after.fresh, after.stored, after.starting, after.corrupt, after.blank⟩

theorem Reach.lawful (reached : Reach (fun w => ¬ Stranded w) w) :
    Lawful w.clock w ∧ ¬ Stranded w := by
  induction reached with
  | start =>
    refine ⟨⟨Good.empty (by decide), fun _ s mem => ?_, nofun, nofun, nofun, fun _ => ⟨rfl, rfl, rfl⟩⟩, ?_⟩
    · simp [Model.items] at mem
    · simp [Stranded]
  | step before next ok ih => exact ⟨next.lawful ih.1 ih.2, ok⟩

/-- What a restart finds of a trace. -/
structure Persisted (m read : Model) : Prop where
  rows : read.items = m.items.map Sample.stored
  boot : read.boot = m.boot
  armed : read.armed = m.armed
  lowSeen : read.lowSeen = m.lowSeen
  final : read.finalizedChargeAfterLow = m.finalizedChargeAfterLow

theorem Good.persisted {m : Model} (h : Good m) :
    ∃ read, decode (encodeInto m) = some read ∧ Persisted m read := by
  obtain ⟨-, -, boot, armed, lowSeen, final⟩ := m.restored_eq
  exact ⟨m.restored, h.read_back, Model.restored_items h.bounded, boot, armed, lowSeen, final⟩

theorem reached_trace_persists (reached : Reach (fun w => ¬ Stranded w) w) :
    (∃ read, decode (encodeInto w.service.model) = some read ∧ Persisted w.service.model read) ∧
      ∀ blob ∈ w.stored, ∃ m read, blob = encodeInto m ∧ decode blob = some read ∧
        Persisted m read := by
  have lawful := reached.lawful.1
  refine ⟨lawful.good.persisted, fun blob mem => ?_⟩
  obtain ⟨m, good, same⟩ := lawful.stored blob mem
  obtain ⟨read, accepted, persisted⟩ := good.persisted
  exact ⟨m, read, same, (congrArg decode same).trans accepted, persisted⟩

end Runs

/-- A low battery that may be written at, with its raw coulomb count; every write is acknowledged. -/
def lowTelemetry : Telemetry := { valid := true, voltageMv := 3400, rawCoulombMah := 1200, rawCoulombValid := true }

def lowTick (now : UInt64) : Tick :=
  { now := now, telemetry := some lowTelemetry, saving := .acknowledged }

section Ticks

variable {w : World} {now : UInt64}

theorem low_writable (now : UInt64) : (convert lowTelemetry none now).writable = true := by
  simp [lowTelemetry, Sample.writable, convert, flag, Sample.valid]
  decide

/-- A tick that finds the task ready takes its sample. -/
theorem service_lowTick (isReady : w.service.ready = true)
    (wanted : w.service.pending ≠ .none ∨ w.service.corrupt = false)
    (dueNow : w.service.model.due now = true ∨
      (w.service.pending ≠ .none ∧ canAttempt w.service now = true)) :
    service w (lowTick now) = work w (lowTick now) lowTelemetry := by
  have open_ : ¬ (w.service.corrupt = true ∧ ¬ w.service.pending ≠ .none) := by
    intro h
    cases wanted with
    | inl some_ => exact h.2 some_
    | inr sound => rw [sound] at h; cases h.1
  have going : ¬ ((!w.service.model.due now) = true ∧ ¬ ((w.service.pending ≠ .none ∨
      finalPending w.service.model = true) ∧ canAttempt w.service now = true)) := by
    intro h
    cases dueNow with
    | inl due => simp [due] at h
    | inr command => exact h.2 ⟨.inl command.1, command.2⟩
  simp only [service, lowTick, isReady, Bool.or_self, Bool.not_true, Bool.false_eq_true, if_false,
    if_true, ready, if_neg open_]
  exact (if_neg going).trans rfl

theorem work_command (pending : w.service.pending ≠ .none)
    (free : canAttempt w.service now = true)
    (quiet : (w.service.model.due now && !w.service.corrupt) = false) :
    work w (lowTick now) lowTelemetry = writeCommand w (lowTick now) := by
  simp only [work, lowTick, quiet, low_writable, Bool.not_true, Bool.or_self, Bool.false_eq_true,
    if_false]
  exact if_pos ⟨pending, free⟩

/-- What an acknowledged command leaves. -/
theorem writeCommand_low (w : World) (now : UInt64) :
    writeCommand w (lowTick now) =
      { service := { w.service with
          lastWriteAttempt := now, writeAttempted := true, corrupt := false, pending := .none
          model := { carriedOut w.service.pending w.service.model with dirty := false } }
        clock := w.clock
        stored := encodeInto (carriedOut w.service.pending w.service.model) :: w.stored } := rfl

def lowSample (now : UInt64) : Sample := convert lowTelemetry none now

def withSample (w : World) (now : UInt64) : World :=
  { w with service := { w.service with model := w.service.model.append (lowSample now) } }

/-- What a tick does that samples while no command waits. -/
theorem work_sample (idle : w.service.pending = .none)
    (sampling : (w.service.model.due now && !w.service.corrupt) = true) :
    work w (lowTick now) lowTelemetry =
      if ((w.service.model.append (lowSample now)).checkpointDue now ||
          finalPending (w.service.model.append (lowSample now))) && canAttempt w.service now then
        writeCheckpoint (withSample w now) (lowTick now)
      else withSample w now := by
  simp only [work, lowTick, sampling, low_writable, Bool.not_true, Bool.or_self, Bool.false_eq_true,
    if_false, if_true]
  rw [if_neg fun command => command.1 idle]
  rfl

theorem service_checkpoint (isReady : w.service.ready = true) (idle : w.service.pending = .none)
    (sampling : (w.service.model.due now && !w.service.corrupt) = true)
    (due : (w.service.model.append (lowSample now)).checkpointDue now = true)
    (free : canAttempt w.service now = true) :
    service w (lowTick now) = writeCheckpoint (withSample w now) (lowTick now) := by
  obtain ⟨sampleDue, sound⟩ := Bool.and_eq_true_iff.mp sampling
  rw [service_lowTick isReady (.inr (by simpa using sound)) (.inl sampleDue),
    work_sample idle sampling, due, free]
  rfl

theorem service_sample (isReady : w.service.ready = true) (idle : w.service.pending = .none)
    (sampling : (w.service.model.due now && !w.service.corrupt) = true)
    (waits : canAttempt w.service now = false) :
    service w (lowTick now) = withSample w now := by
  obtain ⟨sampleDue, sound⟩ := Bool.and_eq_true_iff.mp sampling
  rw [service_lowTick isReady (.inr (by simpa using sound)) (.inl sampleDue),
    work_sample idle sampling, waits, Bool.and_false]
  rfl

end Ticks

section Worlds

variable {allowed : World → Prop} {w : World}

theorem Reach.ticked (h : Reach allowed w) (e : Tick) (le : w.clock ≤ e.now)
    (durable : ∀ blob, e.loaded = .found blob → blob ∈ w.stored)
    (ok : allowed { service := (service w e).service, clock := e.now, stored := (service w e).stored }) :
    Reach allowed { service := (service w e).service, clock := e.now, stored := (service w e).stored } :=
  h.step (.service e le durable) ok

theorem Reach.asked (h : Reach allowed w) (c : Command) (ok : allowed { w with service := request c w.service }) :
    Reach allowed { w with service := request c w.service } := h.step (.request c) ok

def commanded (w : World) (now : UInt64) : World where
  service := { w.service with
    lastWriteAttempt := now, writeAttempted := true, corrupt := false, pending := .none
    model := { carriedOut w.service.pending w.service.model with dirty := false } }
  clock := now
  stored := encodeInto (carriedOut w.service.pending w.service.model) :: w.stored

theorem Reach.carried (h : Reach allowed w) (now : UInt64) (le : w.clock ≤ now) (isReady : w.service.ready = true)
    (pending : w.service.pending ≠ .none) (free : canAttempt w.service now = true)
    (quiet : (w.service.model.due now && !w.service.corrupt) = false) (ok : allowed (commanded w now)) :
    Reach allowed (commanded w now) := by
  have after : service w (lowTick now) = { commanded w now with clock := w.clock } := by
    rw [service_lowTick isReady (.inl pending) (.inr ⟨pending, free⟩), work_command pending free quiet,
      writeCommand_low]
    rfl
  have next : Step w { service w (lowTick now) with clock := now } := .service (lowTick now) le nofun
  rw [after] at next
  exact h.step next ok

end Worlds

section Sampled

attribute [local irreducible] encodeInto decode

def armedTrace : Model := { boot := 2, armed := true }

def savedTrace : Model := { (armedTrace.append (lowSample 60000)).attempted 60000 with dirty := false }

theorem sampled_reached : ∃ w, Reach (fun w => ¬ Stranded w) w ∧
    w.service.model = savedTrace.append (lowSample 70000) ∧
    encodeInto ((armedTrace.append (lowSample 60000)).attempted 60000) ∈ w.stored := by
  have first : Reach (fun w => ¬ Stranded w) { service := { model := { boot := 2 }, ready := true } } :=
    Reach.start.step (.service { now := 0 } (UInt64.le_refl 0) nofun) (fun stranded => nomatch stranded.1)
  have asked : Reach (fun w => ¬ Stranded w)
      { service := { model := { boot := 2 }, ready := true, pending := .arm } } :=
    first.step (.request .arm) (fun stranded => nomatch stranded.1)
  have armed := asked.carried 0 (UInt64.le_refl 0) rfl (by simp) rfl rfl (fun stranded => nomatch stranded.1)
  simp only [commanded, carriedOut] at armed
  have saved := armed.ticked (lowTick 60000) (UInt64.le_of_lt (by simp [lowTick, UInt64.lt_iff_toNat_lt]))
    (fun _ none_ => by cases none_)
  rw [service_checkpoint rfl rfl rfl rfl (by simp [canAttempt])] at saved
  have checkpoint : Reach (fun w => ¬ Stranded w)
      { service := { model := savedTrace, ready := true, lastWriteAttempt := 60000, writeAttempted := true }
        clock := 60000
        stored := [encodeInto ((armedTrace.append (lowSample 60000)).attempted 60000), encodeInto armedTrace] } :=
    saved fun stranded => nomatch stranded.1
  have sampled := checkpoint.ticked (lowTick 70000) (UInt64.le_of_lt (by simp [lowTick, UInt64.lt_iff_toNat_lt]))
    (fun _ none_ => by cases none_)
  rw [service_sample rfl rfl rfl (by simp [canAttempt])] at sampled
  exact ⟨_, sampled (fun stranded => nomatch stranded.1), rfl, List.mem_cons_self⟩

def lowRow (now : UInt64) : Sample := { lowSample now with boot := 2 }

theorem lowRow_stored (now : UInt64) : (lowRow now).stored = lowRow now := by
  have raw : (lowRow now).rawCoulombValid = true := by
    simp [lowRow, lowSample, lowTelemetry, Sample.rawCoulombValid, convert, flag]
    decide
  rw [Sample.stored, if_pos raw]

private theorem armedTrace_bounded : armedTrace.Bounded := ⟨show 0 < 64 by omega, Nat.zero_le _⟩

theorem savedTrace_items : savedTrace.Bounded ∧ savedTrace.items = [lowRow 60000] := by
  obtain ⟨inside, items⟩ := Model.append_spec armedTrace_bounded (lowSample 60000)
  exact ⟨⟨inside.head, inside.count⟩, items⟩

private theorem sampled_items : (savedTrace.append (lowSample 70000)).items = [lowRow 60000, lowRow 70000] := by
  obtain ⟨bounded, saved⟩ := savedTrace_items
  obtain ⟨-, items⟩ := Model.append_spec bounded (lowSample 70000)
  have room : savedTrace.count ≠ 64 := by
    rw [← Model.items_length, saved]
    decide
  rw [if_neg room, saved] at items
  exact items

/-- Two rows with their raw coulomb counts, as they are and as the checkpoint between them saved them. -/
theorem reached_trace_persists_sampled : ∃ w read, Reach (fun w => ¬ Stranded w) w ∧
    w.service.model.items = [lowRow 60000, lowRow 70000] ∧
      decode (encodeInto w.service.model) = some read ∧ read.items = w.service.model.items ∧
        ∃ blob ∈ w.stored, ∃ m read, blob = encodeInto m ∧ m.items = [lowRow 60000] ∧
          decode blob = some read := by
  obtain ⟨w, reached, model, stored⟩ := sampled_reached
  obtain ⟨⟨read, accepted, persisted⟩, blobs⟩ := reached_trace_persists reached
  have items := sampled_items
  rw [← model] at items
  refine ⟨w, read, reached, items, accepted, ?_, _, stored, ?_⟩
  · rw [persisted.rows, items, List.map_cons, List.map_singleton, lowRow_stored, lowRow_stored]
  · obtain ⟨-, read, -, found, -⟩ := blobs _ stored
    exact ⟨_, read, rfl, savedTrace_items.2, found⟩

end Sampled

end Mosaico.Host.GaugeTrace
