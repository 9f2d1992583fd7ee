import Mosaico.Host.HostBridge

/-! The bridge over whole runs: what the order of deliveries guarantees, and how
long an expired sample stays unavailable. -/
namespace Mosaico.Host.HostBridge

open WrapClock

/-- One call of `apply`. -/
structure Delivery where
  network : Bool
  sequence : BitVec 32
  sample : Sample
  deriving DecidableEq, Repr

def Bridge.deliver (bridge : Bridge) (d : Delivery) : Bool × Bridge :=
  apply bridge d.network d.sequence d.sample

/-- The bridge and the accepted deliveries, newest first. -/
structure History where
  bridge : Bridge := {}
  accepted : List Delivery := []

def History.step (s : History) (d : Delivery) : History where
  bridge := (s.bridge.deliver d).2
  accepted := if (s.bridge.deliver d).1 then d :: s.accepted else s.accepted

def History.run (s : History) (deliveries : List Delivery) : History :=
  deliveries.foldl History.step s

def sequences (accepted : List Delivery) : List (BitVec 32) :=
  (accepted.filter fun d => !d.network).map Delivery.sequence

def showing (sample : Sample) (revision : BitVec 32) : Bridge where
  usageReceivedAtMs := sample.receivedAtMs
  resetEpoch := sample.resetEpoch
  capturedEpoch := sample.capturedEpoch
  revision := revision
  remainingBasisPoints := sample.remainingBasisPoints
  resetCredits := sample.resetCredits
  hasUsage := true

/-- The fields a snapshot reads are those of `other`. -/
def Shows (bridge other : Bridge) : Prop :=
  { bridge with lastUsageSequence := 0 } = { other with lastUsageSequence := 0 }

theorem snapshot_congr {bridge other : Bridge} (h : Shows bridge other) (nowMs : BitVec 32) :
    snapshot bridge nowMs = snapshot other nowMs := by
  have same : ∀ b : Bridge, snapshot b nowMs = snapshot { b with lastUsageSequence := 0 } nowMs :=
    fun _ => rfl
  rw [same bridge, same other, h]

/-- An older sample leaves what is shown, any other is shown from now on. -/
theorem store_shows (bridge : Bridge) (sample : Sample) :
    sample.capturedEpoch < bridge.capturedEpoch ∧ Shows (store bridge sample) bridge ∨
      bridge.capturedEpoch ≤ sample.capturedEpoch ∧
        Shows (store bridge sample) (showing sample (bridge.revision + 1)) := by
  unfold store
  split
  · rename_i older
    exact .inl ⟨older, rfl⟩
  · rename_i current
    exact .inr ⟨BitVec.not_lt.mp current, rfl⟩

theorem capturedEpoch_le_store (bridge : Bridge) (sample : Sample) :
    bridge.capturedEpoch ≤ (store bridge sample).capturedEpoch := by
  unfold store
  split
  · exact BitVec.le_refl _
  · rename_i newer
    exact BitVec.not_lt.mp newer

/-- Of the deliveries, newest first, this is the last one that no earlier one was ahead of. -/
def Current (accepted : List Delivery) (d : Delivery) : Prop :=
  ∃ newer older, accepted = newer ++ d :: older ∧
    (∀ e ∈ newer, e.sample.capturedEpoch < d.sample.capturedEpoch) ∧
    ∀ e ∈ older, e.sample.capturedEpoch ≤ d.sample.capturedEpoch

/-- The bridge shows the current delivery and remembers the last BLE sequence. -/
structure Consistent (s : History) : Prop where
  shown : s.accepted = [] ∧ Shows s.bridge {} ∨
    ∃ d, Current s.accepted d ∧ ∃ revision, Shows s.bridge (showing d.sample revision)
  last : s.bridge.lastUsageSequence = (sequences s.accepted).head?.getD 0

theorem Shows.capturedEpoch {bridge other : Bridge} (h : Shows bridge other) :
    bridge.capturedEpoch = other.capturedEpoch := by
  have same := congrArg Bridge.capturedEpoch (show _ = _ from h)
  exact same

/-- An older delivery leaves the current one. -/
theorem Current.older {accepted : List Delivery} {d e : Delivery} (h : Current accepted d)
    (older : e.sample.capturedEpoch < d.sample.capturedEpoch) : Current (e :: accepted) d := by
  obtain ⟨newer, rest, rfl, behind, before⟩ := h
  refine ⟨e :: newer, rest, rfl, ?_, before⟩
  intro f hf
  rcases List.mem_cons.mp hf with rfl | hf
  · exact older
  · exact behind f hf

/-- Any other is current from now on. -/
theorem Current.next {accepted : List Delivery} {d e : Delivery} (h : Current accepted d)
    (current : d.sample.capturedEpoch ≤ e.sample.capturedEpoch) : Current (e :: accepted) e := by
  obtain ⟨newer, rest, rfl, behind, before⟩ := h
  refine ⟨[], newer ++ d :: rest, rfl, fun f hf => (by cases hf), ?_⟩
  intro f hf
  rcases List.mem_append.mp hf with hf | hf
  · exact BitVec.le_trans (BitVec.le_of_lt (behind f hf)) current
  rcases List.mem_cons.mp hf with rfl | hf
  · exact current
  · exact BitVec.le_trans (before f hf) current

theorem Consistent.store {s : History} (h : Consistent s) {bridge : Bridge} {d : Delivery}
    (same : Shows bridge s.bridge)
    (last : bridge.lastUsageSequence = (sequences (d :: s.accepted)).head?.getD 0) :
    Consistent { bridge := store bridge d.sample, accepted := d :: s.accepted } := by
  refine ⟨.inr ?_, ?_⟩
  · have stored := store_shows bridge d.sample
    rcases h.shown with ⟨none, empty⟩ | ⟨e, current, revision, shown⟩
    · have nothing : Shows bridge {} := same.trans empty
      rw [nothing.capturedEpoch] at stored
      rcases stored with ⟨below, -⟩ | ⟨-, new⟩
      · exact absurd below BitVec.not_lt_zero
      · rw [none]
        exact ⟨d, ⟨[], [], rfl, fun f hf => (by cases hf), fun f hf => (by cases hf)⟩, _, new⟩
    · have shows : Shows bridge (showing e.sample revision) := same.trans shown
      rw [shows.capturedEpoch] at stored
      rcases stored with ⟨older, old⟩ | ⟨newer, new⟩
      · exact ⟨e, current.older older, revision, old.trans shows⟩
      · exact ⟨d, current.next newer, _, new⟩
  · rw [store_lastUsageSequence]
    exact last

theorem consistent_step {s : History} (h : Consistent s) (d : Delivery) : Consistent (s.step d) := by
  unfold History.step Bridge.deliver
  rcases apply_cases s.bridge d.network d.sequence d.sample with
    refused | ⟨-, ⟨network, done⟩ | ⟨ble, -, done⟩⟩
  · rw [refused]
    exact h
  · rw [done]
    apply h.store rfl
    rw [h.last, sequences, sequences, List.filter_cons_of_neg (by simp [network])]
  · rw [done]
    let numbered : Bridge := { s.bridge with lastUsageSequence := d.sequence }
    have shown : Shows numbered s.bridge := rfl
    have last : numbered.lastUsageSequence = (sequences (d :: s.accepted)).head?.getD 0 := by
      rw [sequences, List.filter_cons_of_pos (by simp [ble])]
      rfl
    exact h.store shown last

theorem consistent_run {s : History} (h : Consistent s) (deliveries : List Delivery) :
    Consistent (s.run deliveries) := by
  induction deliveries generalizing s with
  | nil => exact h
  | cons d rest ih => exact ih (consistent_step h d)

theorem capturedEpoch_le_step (s : History) (d : Delivery) :
    s.bridge.capturedEpoch ≤ (s.step d).bridge.capturedEpoch := by
  unfold History.step Bridge.deliver
  rcases apply_cases s.bridge d.network d.sequence d.sample with
    refused | ⟨-, ⟨-, done⟩ | ⟨-, -, done⟩⟩
  · rw [refused]
    exact BitVec.le_refl _
  · rw [done]
    exact capturedEpoch_le_store s.bridge d.sample
  · rw [done]
    exact capturedEpoch_le_store { s.bridge with lastUsageSequence := d.sequence } d.sample

theorem capturedEpoch_le_run (s : History) (deliveries : List Delivery) :
    s.bridge.capturedEpoch ≤ (s.run deliveries).bridge.capturedEpoch := by
  induction deliveries generalizing s with
  | nil => exact BitVec.le_refl _
  | cons d rest ih => exact BitVec.le_trans (capturedEpoch_le_step s d) (ih (s.step d))

theorem sequenceNewer_of_accepted {bridge : Bridge} {sequence : BitVec 32} {sample : Sample}
    (accepted : (apply bridge false sequence sample).1 = true) :
    sequenceNewer sequence bridge.lastUsageSequence = true := by
  rcases apply_cases bridge false sequence sample with
    refused | ⟨-, ⟨network, -⟩ | ⟨-, newer, -⟩⟩
  · rw [refused] at accepted
    cases accepted
  · cases network
  · exact newer

theorem apply_network_lastUsageSequence (bridge : Bridge) (sequence : BitVec 32) (sample : Sample) :
    (apply bridge true sequence sample).2.lastUsageSequence = bridge.lastUsageSequence := by
  rcases apply_cases bridge true sequence sample with
    refused | ⟨-, ⟨-, done⟩ | ⟨ble, -, -⟩⟩
  · rw [refused]
  · rw [done]
    exact store_lastUsageSequence bridge sample
  · cases ble

/-- The number the host puts on its next frame is newer, over the wrap too. -/
theorem nextSequence_newer {last next : Nat} (h : nextSequence last = some next) :
    newer (BitVec.ofNat 32 next) (BitVec.ofNat 32 last) = true := by
  unfold nextSequence at h
  split at h
  · cases h
  · rename_i inside
    have value := Option.some.inj h
    rw [← value]
    split
    · rename_i top
      rw [top]
      decide
    · refine newer_iff.mpr ⟨1, by decide, by decide, ?_⟩
      rw [← BitVec.ofNat_add]

/-- What the bridge promises about the order of its two sources. -/
structure Ordered (s : History) : Prop where
  /-- No delivery that follows takes the stored sample back in time. -/
  forward : ∀ later, s.bridge.capturedEpoch ≤ (s.run later).bridge.capturedEpoch
  /-- A snapshot shows nothing before the first accepted delivery, and then all of the
  current one. -/
  single : s.accepted = [] ∧ (∀ nowMs, snapshot s.bridge nowMs = {}) ∨
    ∃ d, Current s.accepted d ∧ ∃ revision, ∀ nowMs,
      snapshot s.bridge nowMs = snapshot (showing d.sample revision) nowMs
  /-- A BLE frame is accepted only less than half a turn ahead of the last one. -/
  newer : ∀ sequence sample last, (sequences s.accepted).head? = some last →
    (apply s.bridge false sequence sample).1 = true →
      ∃ k, 0 < k ∧ 2 * k < 2 ^ 32 ∧ sequence = last + BitVec.ofNat 32 k
  /-- The host's next frame is accepted, also when its number wraps. -/
  next : ∀ last next sample, (sequences s.accepted).head? = some (BitVec.ofNat 32 last) →
    nextSequence last = some next → malformed false (BitVec.ofNat 32 next) sample = false →
      (apply s.bridge false (BitVec.ofNat 32 next) sample).1 = true
  network : ∀ sequence sample,
    (apply s.bridge true sequence sample).2.lastUsageSequence = s.bridge.lastUsageSequence

/-- An accepted BLE frame never has the number zero. -/
theorem sequence_ne_zero_step {s : History} (h : ∀ q ∈ sequences s.accepted, q ≠ 0) (d : Delivery) :
    ∀ q ∈ sequences (s.step d).accepted, q ≠ 0 := by
  unfold History.step Bridge.deliver
  rcases apply_cases s.bridge d.network d.sequence d.sample with
    refused | ⟨wellFormed, ⟨network, done⟩ | ⟨ble, -, done⟩⟩
  · rw [refused]
    exact h
  · rw [done, if_pos rfl, sequences, List.filter_cons_of_neg (by simp [network])]
    exact h
  · rw [done, if_pos rfl, sequences, List.filter_cons_of_pos (by simp [ble])]
    intro q hq
    rcases List.mem_cons.mp hq with rfl | older
    · simp only [malformed, ble, Bool.not_false, Bool.true_and, Bool.or_eq_false_iff,
        beq_eq_false_iff_ne] at wellFormed
      exact wellFormed.1.1.1
    · exact h q older

theorem sequence_ne_zero_run {s : History} (h : ∀ q ∈ sequences s.accepted, q ≠ 0)
    (deliveries : List Delivery) : ∀ q ∈ sequences (s.run deliveries).accepted, q ≠ 0 := by
  induction deliveries generalizing s with
  | nil => exact h
  | cons d rest ih => exact ih (sequence_ne_zero_step h d)

theorem ordered_of_consistent {s : History} (h : Consistent s)
    (nonzero : ∀ q ∈ sequences s.accepted, q ≠ 0) : Ordered s where
  forward := capturedEpoch_le_run s
  single := by
    rcases h.shown with ⟨none, empty⟩ | ⟨d, hd, revision, shown⟩
    · exact .inl ⟨none, fun nowMs => snapshot_congr empty nowMs⟩
    · exact .inr ⟨d, hd, revision, fun nowMs => snapshot_congr shown nowMs⟩
  newer := by
    intro sequence sample last head accepted
    have order := sequenceNewer_of_accepted accepted
    have known : s.bridge.lastUsageSequence = last := by
      rw [h.last, head]
      rfl
    have started : last ≠ 0 := nonzero last (List.mem_of_mem_head? head)
    rw [known, sequenceNewer, beq_eq_false_iff_ne.mpr started, Bool.false_or] at order
    exact newer_iff.mp order
  next := by
    intro last next sample head follows wellFormed
    have known : s.bridge.lastUsageSequence = BitVec.ofNat 32 last := by
      rw [h.last, head]
      rfl
    have order : sequenceNewer (BitVec.ofNat 32 next) s.bridge.lastUsageSequence = true := by
      rw [known, sequenceNewer, nextSequence_newer follows, Bool.or_true]
    unfold apply
    rw [wellFormed, order]
    rfl
  network := apply_network_lastUsageSequence s.bridge

/-- Every run of deliveries from both sources keeps the bridge ordered. -/
theorem host_bridge_ordered (deliveries : List Delivery) :
    Ordered (History.run {} deliveries) := by
  have start : Consistent {} := ⟨.inl ⟨rfl, rfl⟩, rfl⟩
  have none : ∀ q ∈ sequences ({} : History).accepted, q ≠ 0 := by
    intro q hq
    cases hq
  exact ordered_of_consistent (consistent_run start deliveries)
    (sequence_ne_zero_run none deliveries)

/-- A call with the clock it reads; a network result is `ageSeconds` old by then. -/
inductive Call where
  | applyUsage (sequence : BitVec 32) (remainingBasisPoints : BitVec 16)
      (resetEpoch capturedEpoch : BitVec 32) (resetCredits : BitVec 8)
  | applyNetworkUsage (remainingBasisPoints : BitVec 16) (resetEpoch capturedEpoch : BitVec 32)
      (resetCredits : BitVec 8) (ageSeconds : BitVec 32)
  | snapshot
  deriving DecidableEq, Repr

/-- The bridge and the true time, in milliseconds, its sample stands for. -/
structure Watch where
  bridge : Bridge := {}
  sampleAt : Option Int := none

def trueMs (us : Nat) : Int := (us / 1000 : Nat)

def Call.deliver (bridge : Bridge) (us : Nat) : Call → Bridge
  | .applyUsage sequence remaining reset captured credits =>
    (apply bridge false sequence ⟨remaining, reset, captured, credits, millis us⟩).2
  | .applyNetworkUsage remaining reset captured credits ageSeconds =>
    (apply bridge true 0 ⟨remaining, reset, captured, credits, agedMillis us ageSeconds⟩).2
  | .snapshot => bridge

def Call.standsFor (us : Nat) : Call → Int
  | .applyNetworkUsage _ _ _ _ ageSeconds => trueMs us - ageSeconds.toNat * 1000
  | _ => trueMs us

def Watch.step (w : Watch) (us : Nat) (call : Call) : Watch where
  bridge := call.deliver w.bridge us
  sampleAt := if (call.deliver w.bridge us).revision = w.bridge.revision then w.sampleAt
    else some (call.standsFor us)

def snapshots (w : Watch) : List (Nat × Call) → List (Watch × Nat)
  | [] => []
  | (us, .snapshot) :: rest => (w, us) :: snapshots (w.step us .snapshot) rest
  | (us, call) :: rest => snapshots (w.step us call) rest

def Expired (w : Watch) (us : Nat) : Prop :=
  ∃ t, w.sampleAt = some t ∧ (usageUnavailableMs.toNat : Int) < trueMs us - t

/-- Its age has come round to the first ten minutes of another turn of the clock. -/
def Revived (w : Watch) (us : Nat) : Prop :=
  ∃ t, w.sampleAt = some t ∧ 2 ^ 32 ≤ trueMs us - t ∧
    (trueMs us - t) % 2 ^ 32 ≤ (usageUnavailableMs.toNat : Int)

def FreshnessMonotone (calls : List (Nat × Call)) : Prop :=
  ∀ p ∈ snapshots {} calls, Expired p.1 p.2 → (snapshot p.1.bridge (millis p.2)).usageAvailable = false

/-- The stored stamp is the truncation of the true one. -/
def Dated (w : Watch) : Prop :=
  match w.sampleAt with
  | none => w.bridge.hasUsage = false
  | some t => w.bridge.hasUsage = true ∧ w.bridge.usageReceivedAtMs = stamp 32 t

theorem agedMillis_eq (us : Nat) (ageSeconds : BitVec 32) :
    agedMillis us ageSeconds = stamp 32 (trueMs us - ageSeconds.toNat * 1000) := by
  have late : ageSeconds * 1000 = stamp 32 (ageSeconds.toNat * 1000 : Int) := by
    apply BitVec.eq_of_toNat_eq
    have whole := toNat_stamp (w := 32) (ageSeconds.toNat * 1000 : Int)
    have thousand : (1000 : BitVec 32).toNat = 1000 := rfl
    rw [BitVec.toNat_mul, thousand]
    omega
  rw [agedMillis, millis, late, stamp_sub, trueMs]

/-- A revision that moves has taken the sample; one that stays has kept the old one. -/
structure Stamped (old new : Bridge) (receivedAtMs : BitVec 32) : Prop where
  kept : new.revision = old.revision →
    new.hasUsage = old.hasUsage ∧ new.usageReceivedAtMs = old.usageReceivedAtMs
  taken : new.revision ≠ old.revision →
    new.hasUsage = true ∧ new.usageReceivedAtMs = receivedAtMs

private theorem stamped_store (bridge : Bridge) (sample : Sample) :
    Stamped bridge (store bridge sample) sample.receivedAtMs := by
  unfold store
  split
  · exact ⟨fun _ => ⟨rfl, rfl⟩, fun moved => (moved rfl).elim⟩
  · refine ⟨fun same => ?_, fun _ => ⟨rfl, rfl⟩⟩
    have moved : bridge.revision + 1 = bridge.revision := same
    bv_omega

private theorem stamped_apply (bridge : Bridge) (network : Bool) (sequence : BitVec 32) (sample : Sample) :
    Stamped bridge (apply bridge network sequence sample).2 sample.receivedAtMs := by
  rcases apply_cases bridge network sequence sample with
    refused | ⟨-, ⟨-, done⟩ | ⟨-, -, done⟩⟩
  · rw [refused]
    exact ⟨fun _ => ⟨rfl, rfl⟩, fun moved => (moved rfl).elim⟩
  · rw [done]
    exact stamped_store bridge sample
  · rw [done]
    have numbered := stamped_store { bridge with lastUsageSequence := sequence } sample
    exact ⟨numbered.kept, numbered.taken⟩

theorem Call.stamped (bridge : Bridge) (us : Nat) (call : Call) :
    Stamped bridge (call.deliver bridge us) (stamp 32 (call.standsFor us)) := by
  cases call with
  | applyUsage sequence remaining reset captured credits =>
    exact stamped_apply bridge false sequence ⟨remaining, reset, captured, credits, millis us⟩
  | applyNetworkUsage remaining reset captured credits ageSeconds =>
    rw [Call.standsFor, ← agedMillis_eq]
    exact stamped_apply bridge true 0
      ⟨remaining, reset, captured, credits, agedMillis us ageSeconds⟩
  | snapshot => exact ⟨fun _ => ⟨rfl, rfl⟩, fun moved => (moved rfl).elim⟩

theorem dated_step {w : Watch} (h : Dated w) (us : Nat) (call : Call) : Dated (w.step us call) := by
  have stamped := call.stamped w.bridge us
  unfold Watch.step
  by_cases same : (call.deliver w.bridge us).revision = w.bridge.revision
  · rw [if_pos same]
    unfold Dated at h ⊢
    rw [(stamped.kept same).1, (stamped.kept same).2]
    exact h
  · rw [if_neg same]
    exact stamped.taken same

theorem dated_snapshots {w : Watch} (h : Dated w) (calls : List (Nat × Call)) :
    ∀ p ∈ snapshots w calls, Dated p.1 := by
  induction calls generalizing w with
  | nil =>
    intro p hp
    cases hp
  | cons event rest ih =>
    obtain ⟨us, call⟩ := event
    have next := ih (dated_step h us call)
    cases call with
    | snapshot =>
      intro p hp
      rcases List.mem_cons.mp hp with rfl | later
      · exact h
      · exact next p later
    | applyUsage _ _ _ _ _ => exact next
    | applyNetworkUsage _ _ _ _ _ => exact next

/-- An expired sample is shown as available exactly when the clock has come round. -/
theorem usageAvailable_iff_revived {w : Watch} {us : Nat} (h : Dated w) (expired : Expired w us) :
    (snapshot w.bridge (millis us)).usageAvailable = true ↔ Revived w us := by
  obtain ⟨t, ht, late⟩ := expired
  unfold Dated at h
  rw [ht] at h
  obtain ⟨usage, received⟩ := h
  have age : ((usageAge w.bridge (millis us)).toNat : Int) = (trueMs us - t) % 2 ^ 32 := by
    rw [usageAge, if_pos usage, received, millis]
    exact toNat_age _ _
  rw [snapshot_usageAvailable, usage, Bool.true_and, decide_eq_true_eq, BitVec.le_def]
  constructor
  · intro recent
    have recent' : (trueMs us - t) % 2 ^ 32 ≤ (usageUnavailableMs.toNat : Int) := by
      rw [← age]
      exact Int.ofNat_le.mpr recent
    exact ⟨t, ht, period_le_of_recent late recent', recent'⟩
  · rintro ⟨t', ht', -, recent⟩
    rw [ht] at ht'
    rw [← Option.some.inj ht', ← age] at recent
    exact Int.ofNat_le.mp recent

private theorem expired_of_revived {w : Watch} {us : Nat} (h : Revived w us) : Expired w us := by
  obtain ⟨t, ht, turned, -⟩ := h
  exact ⟨t, ht, Int.lt_of_lt_of_le (by decide) turned⟩

/-- Expired samples stay unavailable in exactly the runs that take no snapshot in
the ten minutes after a full turn of the clock. -/
theorem freshness_monotone_iff (calls : List (Nat × Call)) :
    FreshnessMonotone calls ↔ ∀ p ∈ snapshots {} calls, ¬ Revived p.1 p.2 := by
  have start : Dated {} := rfl
  have dated := dated_snapshots start calls
  constructor
  · intro monotone p hp revived
    have expired := expired_of_revived revived
    have shown := (usageAvailable_iff_revived (dated p hp) expired).mpr revived
    rw [monotone p hp expired] at shown
    cases shown
  · intro never p hp expired
    apply Bool.eq_false_iff.mpr
    exact fun shown => never p hp ((usageAvailable_iff_revived (dated p hp) expired).mp shown)

/-- A sample at boot, a poll after eleven minutes, and the next poll fifty days later. -/
def idleGap : List (Nat × Call) :=
  [(0, .applyUsage 1 5000 2000000000 1900000000 3), (660000000, .snapshot),
    (4294967296000, .snapshot)]

theorem freshness_not_monotone :
    idleGap.Pairwise (fun a b => a.1 < b.1) ∧ ¬ FreshnessMonotone idleGap := by
  refine ⟨by decide, fun monotone => ?_⟩
  let stored := showing ⟨5000, 2000000000, 1900000000, 3, 0⟩ 1
  let watch : Watch := { bridge := { stored with lastUsageSequence := 1 }, sampleAt := some 0 }
  have polled : (watch, 4294967296000) ∈ snapshots {} idleGap :=
    List.mem_cons_of_mem _ List.mem_cons_self
  have expired : Expired watch 4294967296000 := ⟨0, rfl, by decide⟩
  have hidden := monotone _ polled expired
  revert hidden
  decide

end Mosaico.Host.HostBridge
