import Mosaico.Ota.StorageLease

/-! Every entry point keeps the contract of the storage lease; what follows for all runs. -/
namespace Mosaico.Ota

open Interaction Interleaving

variable {T : Type} [DecidableEq T]

section Entries

variable {t : T} {k : Nat} {s : Shared T} {α : Type}

/-- A flag that was seen low stays low for the holder. -/
def Calm (flags : List Flag) (s : Shared T) : Prop :=
  ∀ flag, flag ∈ flags → s.ram.raised flag = false

theorem Calm.stable (seen : List Flag) :
    Stable (contract T) t fun s => Scope t (k + 1) s ∧ Calm seen s := by
  intro s s' h same
  have kept := same.held (h.1.held (Nat.succ_pos k))
  refine ⟨Scope.stable t (k + 1) s s' h.1 same, fun flag seen => ?_⟩
  have low := h.2 flag seen
  by_contra raised
  rw [kept.raised flag (Bool.eq_true_of_not_eq_false raised)] at low
  cases low

theorem anyFlag_safe (flags seen : List Flag) (h : Scope t (k + 1) s ∧ Calm seen s) :
    Safe t (lift (anyFlag flags))
      (fun any s => Scope t (k + 1) s ∧ (any = false → Calm (seen ++ flags) s)) s := by
  have ends (low : List Flag) (any : Bool) : Stable (contract T) t fun s =>
      Scope t (k + 1) s ∧ (any = false → Calm low s) := by
    intro s s' h same
    refine ⟨Scope.stable t (k + 1) s s' h.1 same, fun none_ => ?_⟩
    exact (Calm.stable low s s' ⟨h.1, h.2 none_⟩ same).2
  induction flags generalizing seen s with
  | nil =>
    refine secure_pure (ends (seen ++ []) false) ⟨h.1, fun _ => ?_⟩
    rw [List.append_nil]
    exact h.2
  | cons flag flags ih =>
    intro s₁ same ram s₂ step
    have here := Calm.stable seen s s₁ h same
    obtain ⟨hram, hs₂⟩ := step
    rw [hram, hs₂]
    refine ⟨Promise.refl t s₁, ?_⟩
    change Safe t (lift (if s₁.ram.flag flag = true then pure true else anyFlag flags)) _ s₁
    split
    · exact secure_pure (ends (seen ++ flag :: flags) true) ⟨here.1, nofun⟩
    · rename_i low
      have more : Scope t (k + 1) s₁ ∧ Calm (seen ++ [flag]) s₁ := by
        refine ⟨here.1, fun f hf => ?_⟩
        cases List.mem_append.mp hf with
        | inl old => exact here.2 f old
        | inr new =>
          rw [List.mem_singleton.mp new]
          simp [Ram.raised, low]
      have rest := ih (seen ++ [flag]) more
      rw [List.append_assoc] at rest
      exact rest

/-- The task has the mutex and may take a lease of the kind. -/
structure Ready (t : T) (kind : Kind) (s : Shared T) : Prop where
  scope : Scope t 1 s
  quiet : kind = .storage → ∀ flag, s.ram.raised flag = false

theorem Ready.stable (t : T) (kind : Kind) : Stable (contract T) t (Ready t kind) := by
  intro s s' h same
  refine ⟨Scope.stable t 1 s s' h.scope same, fun storage flag => ?_⟩
  have seen : Calm [flag] s := fun f _ => h.quiet storage f
  exact (Calm.stable [flag] s s' ⟨h.scope, seen⟩ same).2 flag (List.mem_singleton_self flag)

theorem Between.leased_stable (t : T) :
    Stable (contract T) t fun s => Between t 0 s ∧ 0 < s.depth := by
  intro s s' h same
  have kept := same.held h.1.holder
  refine ⟨Between.stable t 0 s s' h.1 same, ?_⟩
  rw [kept.depth]
  exact h.2

theorem enterLease_safe (kind : Kind) (refused : Bool) (h : Scope t 1 s)
    (ready : refused = false → Ready t kind s) :
    Safe t (enterLease kind refused) (fun _ => Scope t 0) s := by
  unfold enterLease
  split
  · exact leave_safe (Scope.admits t 0) false h
  · rename_i granted
    have entered : Safe t (leaseCall (.deepen kind))
        (fun _ s => Between t 0 s ∧ 0 < s.depth) s := by
      apply secure_perform (Ready.stable t kind) (fun _ => Between.leased_stable t)
        (ready (Bool.eq_false_of_not_eq_true granted))
      intro s h _ s' step
      have entered := h.scope.deepen kind h.quiet step
      exact ⟨entered.1, entered.2⟩
    apply secure_bind entered
    intro _ s h
    have named : Safe t (leaseCall (.storeOwner true)) (fun _ => Scope t 0) s := by
      apply secure_perform (Between.leased_stable t) (fun _ => Scope.stable t 0) h
      intro s h _ s' step
      rw [show s' = _ from step]
      apply h.1.name true
      simp [Nat.ne_of_gt h.2]
    apply secure_bind named
    intro _ s h
    exact secure_pure (Scope.stable t 0) h

/-- Whether the depth is at its end changes nothing. -/
theorem networkStartRefused_safe {kind : Kind} (h : Ready t kind s) :
    Safe t networkStartRefused (fun _ => Ready t kind) s := by
  have asked : Safe t (leaseCall .depth) (fun _ => Ready t kind) s := by
    apply secure_perform (Ready.stable t kind) (fun _ => Ready.stable t kind) h
    intro s h n s' step
    rw [step.2]
    exact ⟨Promise.refl t s, h⟩
  apply secure_bind asked
  intro n s h
  exact secure_pure (Ready.stable t kind) h

theorem tryNetworkStartLease_safe (h : Scope t 0 s) :
    Safe t tryNetworkStartLease (fun _ => Scope t 0) s := by
  apply secure_bind (tryLock_safe (Scope.admits t 0) h)
  intro ok s h
  cases ok with
  | false => exact secure_pure (Scope.stable t 0) (h.2 rfl)
  | true =>
    have ready : Ready t .networkStart s := ⟨h.1 rfl, nofun⟩
    apply secure_bind (networkStartRefused_safe ready)
    intro refused s h
    exact enterLease_safe .networkStart refused h.scope fun _ => h

/-- An idle `busy` has every flag low, the health check's aside. -/
theorem storageRefused_safe (h : Scope t 1 s) :
    Safe t storageRefused
      (fun refused s => Scope t 1 s ∧ (refused = false → Ready t .storage s)) s := by
  have ends (refused : Bool) : Stable (contract T) t fun s =>
      Scope t 1 s ∧ (refused = false → Ready t .storage s) := by
    intro s s' h same
    exact ⟨Scope.stable t 1 s s' h.1 same, fun free => Ready.stable t _ s s' (h.2 free) same⟩
  apply secure_bind (anyFlag_safe _ [] ⟨h, nofun⟩)
  intro any s h
  cases any with
  | true => exact secure_pure (ends true) ⟨h.1, nofun⟩
  | false =>
    have ready : Ready t .storage s := by
      refine ⟨h.1, fun _ flag => h.2 rfl flag ?_⟩
      cases flag <;> decide
    apply (networkStartRefused_safe ready).mono
    intro refused s h
    exact ⟨h.scope, fun _ => h⟩

theorem tryStorageLease_safe (h : Scope t 0 s) :
    Safe t tryStorageLease (fun _ => Scope t 0) s := by
  apply secure_bind (tryLock_safe (Scope.admits t 0) h)
  intro ok s h
  cases ok with
  | false => exact secure_pure (Scope.stable t 0) (h.2 rfl)
  | true =>
    apply secure_bind (storageRefused_safe (h.1 rfl))
    intro refused s h
    exact enterLease_safe .storage refused h.1 h.2

/-- One hold of the mutex is left over, and the name still stands. -/
structure Leaving (t : T) (n : Nat) (s : Shared T) : Prop where
  between : Between t 1 s
  owner : s.owner = some t
  depth : s.depth = n

theorem Leaving.stable (t : T) (n : Nat) : Stable (contract T) t (Leaving t n) := by
  intro s s' h same
  have kept := same.held h.between.holder
  exact ⟨Between.stable t 1 s s' h.between same, kept.owner.trans h.owner, kept.depth.trans h.depth⟩

theorem leaveLease_safe (h : Scope t 0 s ∧ s.owner = some t) :
    Safe t leaveLease (fun _ => Scope t 0) s := by
  have owning : Stable (contract T) t fun s => Scope t 0 s ∧ s.owner = some t := by
    intro s s' h same
    have kept := same.held (h.1.lawful.owned t h.2)
    exact ⟨Scope.stable t 0 s s' h.1 same, kept.owner.trans h.2⟩
  have shallow : Safe t (leaseCall .shallow) (Leaving t) s := by
    apply secure_perform owning (Leaving.stable t) h
    intro s h n s' step
    have left := h.1.shallow (h.1.lawful.owned t h.2) step
    exact ⟨left.1, left.2.1, left.2.2.1, left.2.2.2⟩
  apply secure_bind shallow
  intro n s h
  dsimp only
  split
  · rename_i last
    have named : Safe t (leaseCall (.storeOwner false)) (fun _ => Scope t 1) s := by
      apply secure_perform (Leaving.stable t n) (fun _ => Scope.stable t 1) h
      intro s h _ s' step
      rw [show s' = _ from step]
      apply h.between.name false
      simp [h.depth, last]
    apply secure_bind named
    intro _ s h
    exact unlock_safe (Scope.admits t 0) h
  · rename_i more
    have leased : s.depth ≠ 0 := by rw [h.depth]; exact more
    have named := h.between
    have scope : Scope t 1 s := by
      refine ⟨named.lawful, fun _ => named.holder, fun _ => named.count, fun _ => ?_⟩
      rw [if_neg leased, h.owner]
    exact unlock_safe (Scope.admits t 0) scope

theorem releaseStorageLease_safe (h : Scope t 0 s) :
    Safe t releaseStorageLease (fun _ => Scope t 0) s := by
  have asked : Safe t (leaseCall .ownsLease)
      (fun owns s => Scope t 0 s ∧ (owns = true → s.owner = some t)) s := by
    apply secure_perform (Scope.stable t 0) _ h
    · intro s h owns s' step
      rw [step.2]
      refine ⟨Promise.refl t s, h, fun mine => ?_⟩
      simpa [mine] using step.1.symm
    · intro owns s s' h same
      refine ⟨Scope.stable t 0 s s' h.1 same, fun mine => ?_⟩
      have kept := same.held (h.1.lawful.owned t (h.2 mine))
      exact kept.owner.trans (h.2 mine)
  apply secure_bind asked
  intro owns s h
  split
  · rename_i mine
    exact leaveLease_safe ⟨h.1, h.2 mine⟩
  · exact secure_pure (Scope.stable t 0) h.1

abbrev Rests (p : EntryProg α) : Prop :=
  ∀ (T : Type) [DecidableEq T] (t : T) s, Scope t 0 s → Safe t p (fun _ => Scope t 0) s

theorem rests_inner {body : EntryProg α} (keeps : Inner body) (refused : α) :
    Rests (admitted refused body) :=
  fun _ _ t _ h => admitted_safe (Scope.admits t 0) keeps refused h

/-! The entries that call others, inside their own admission. -/

theorem inner_ite {c : Prop} [Decidable c] {p q : EntryProg α} (yes : Inner p) (no : Inner q) :
    Inner (if c then p else q) := by
  split
  · exact yes
  · exact no

theorem inner_requestLocked (automatic preserveAge maintenance : Bool) :
    Inner (requestLocked automatic preserveAge maintenance) := inner_admitted (inner_lift _) false

theorem request_rests : Rests request := by
  apply rests_inner
  apply inner_bind (inner_lift _)
  intro nand
  apply inner_ite (inner_pure false)
  apply inner_bind (inner_lift _)
  intro touch
  apply inner_ite (inner_pure false)
  apply inner_bind (inner_lift _)
  intro _
  apply inner_bind (inner_lift _)
  intro bound
  apply inner_ite
  · exact inner_bind (inner_lift _) fun _ => inner_pure false
  · apply inner_bind (inner_requestLocked true false false)
    intro accepted
    apply inner_bind (inner_lift _)
    intro _
    exact inner_bind (inner_lift _) fun _ => inner_pure accepted

theorem requestMaintenanceUpdate_rests (sha : String) (ttl : Nat) :
    Rests (requestMaintenanceUpdate sha ttl) := by
  apply rests_inner
  apply inner_bind (inner_lift _)
  intro nand
  apply inner_ite (inner_pure false)
  apply inner_bind (inner_lift _)
  intro touch
  apply inner_ite (inner_pure false)
  apply inner_bind (inner_lift _)
  intro _
  apply inner_bind (inner_lift _)
  intro prepared
  apply inner_ite
  · exact inner_bind (inner_lift _) fun _ => inner_pure false
  · apply inner_bind (inner_requestLocked false false true)
    intro accepted
    have ends : Inner (do lift (perform (.unlock .lock)); return accepted) :=
      inner_bind (inner_lift _) fun _ => inner_pure accepted
    apply inner_ite
    · exact inner_bind (inner_lift _) fun _ => inner_bind (inner_lift _) fun _ => ends
    · exact ends

private theorem inner_approveUpdate (sha : String) : Inner (approveUpdate sha) :=
  inner_admitted (inner_lift _) false

theorem discoverManifest_rests (json : String) : Rests (discoverManifest json) := by
  apply rests_inner
  apply inner_bind (inner_lift _)
  intro touch
  apply inner_ite (inner_pure false)
  apply inner_bind (inner_lift _)
  intro shown
  cases shown with
  | none => exact inner_pure false
  | some sha =>
    apply inner_bind (inner_lift _)
    intro s
    apply inner_ite
    · exact inner_bind (inner_approveUpdate sha) fun _ => inner_pure true
    · exact inner_pure true

theorem inner_takeLocked : Inner takeLocked := by
  apply inner_bind (inner_lift _)
  intro s
  apply inner_ite (inner_pure false)
  apply inner_bind (inner_lift _)
  intro touch
  apply inner_ite (inner_pure false)
  apply inner_bind (inner_lift _)
  intro late
  apply inner_ite (inner_lift _)
  apply inner_bind (inner_lift _)
  intro taken
  apply inner_ite
  · apply inner_bind (inner_lift _)
    intro approved
    apply inner_ite (inner_pure false)
    apply inner_bind (inner_lift _)
    intro s
    apply inner_bind (inner_requestLocked _ _ _)
    intro accepted
    exact inner_ite (inner_pure false) (inner_lift _)
  · exact inner_lift _

theorem takeRequest_rests : Rests takeRequest := by
  apply rests_inner
  apply inner_bind (inner_lift _)
  intro _
  apply inner_bind inner_takeLocked
  intro r
  exact inner_bind (inner_lift _) fun _ => inner_pure r

private theorem inner_installVerified : Inner installVerified := inner_admitted (inner_lift _) false

theorem inner_rebootWithFreshPower : Inner rebootWithFreshPower :=
  inner_admitted (inner_lift _) false

private theorem inner_installLoop (rounds : Nat) : Inner (installLoop rounds) := by
  induction rounds with
  | zero => exact inner_pure ()
  | succ rounds ih =>
    apply inner_bind (inner_lift _)
    intro s
    exact inner_ite (inner_bind inner_installVerified fun _ => ih) (inner_pure ())

private theorem inner_fail (message : String) : Inner (fail message) := inner_lift _

private theorem inner_installWork (rounds : Nat) : Inner (installWork rounds) := by
  have reboots : Inner (do
      let s ← lift get
      if (s.usbBypass || s.automaticMode || s.maintenanceMode) && s.selected then
        let _ ← rebootWithFreshPower) := by
    apply inner_bind (inner_lift _)
    intro s
    exact inner_ite (inner_bind inner_rebootWithFreshPower fun _ => inner_pure ()) (inner_pure ())
  apply inner_bind (inner_installLoop rounds)
  intro _
  apply inner_bind (inner_lift _)
  intro s
  exact inner_ite (inner_bind (inner_fail _) fun _ => reboots) reboots

private theorem inner_localWork (rounds : Nat) : Inner (localWork rounds) := by
  apply inner_bind (inner_lift _)
  intro s
  apply inner_bind (inner_lift _)
  intro _
  apply inner_ite
  · exact inner_bind inner_rebootWithFreshPower fun _ => inner_pure ()
  · apply inner_bind (inner_lift _)
    intro _
    apply inner_bind (inner_lift _)
    intro s
    exact inner_ite (inner_installWork rounds) (inner_pure ())

theorem processLocalRequests_rests (rounds : Nat) : Rests (processLocalRequests rounds) := by
  apply rests_inner
  apply inner_bind (inner_lift _)
  intro s
  apply inner_ite (inner_pure ())
  apply inner_bind (inner_lift _)
  intro clean
  apply inner_ite (inner_pure ())
  apply inner_bind (inner_lift _)
  intro touch
  exact inner_ite (inner_pure ()) (inner_localWork rounds)

/-! The entries that run outside every admission, and may only lower flags. -/

theorem rests_lowers {p : OtaProg α} (low : p.Uses Lowers) : Rests (lift p) :=
  fun _ _ _ _ h => lift_lowers low h

theorem rests_ended {p : EntryProg α} (rests : Rests p) : Rests (ended p) := by
  intro T _ t s h
  apply secure_bind (rests T t s h)
  intro _ s h
  exact secure_pure (Scope.stable t 0) h

theorem perform_lowers {c : OtaCall} (low : Lowers c) : (perform c).Uses Lowers :=
  (Prog.uses_perform Lowers c).mpr low

theorem holding_lowers (m : Mutex) {body : OtaProg α} (low : body.Uses Lowers) :
    (holding m body).Uses Lowers := by
  apply Prog.Uses.bind (perform_lowers (c := .lock m) trivial)
  intro _
  apply Prog.Uses.bind low
  intro r
  apply Prog.Uses.bind (perform_lowers (c := .unlock m) trivial)
  intro _
  exact Prog.uses_pure Lowers r

theorem modify_lowers {f : Ram → Ram}
    (low : ∀ o flag, (f o).raised flag = true → o.raised flag = true) :
    (modify f).Uses Lowers := perform_lowers (c := .modify f) low

theorem ite_lowers {c : Prop} [Decidable c] {p q : OtaProg α} (yes : p.Uses Lowers)
    (no : q.Uses Lowers) : (if c then p else q).Uses Lowers := by
  split
  · exact yes
  · exact no

theorem publish_lowers (stage : UiStage) : (publish stage).Uses Lowers := by
  apply holding_lowers
  apply modify_lowers
  intro o flag
  cases flag <;> simp +contextual [Ram.raised, Ram.flag]

theorem clearGrant_lowers : clearGrant.Uses Lowers := modify_lowers fun _ _ => id

private theorem when_lowers {c : Prop} [Decidable c] {p : OtaProg Unit} {next : Unit → OtaProg α}
    (first : p.Uses Lowers) (rest : ∀ r, (next r).Uses Lowers) :
    (if c then p >>= next else next ()).Uses Lowers :=
  ite_lowers (first.bind rest) (rest ())

theorem abandon_lowers (message : String) (s : Ram) : (abandon message s).Uses Lowers := by
  apply Prog.Uses.bind (modify_lowers fun _ _ => id)
  intro _
  apply when_lowers (perform_lowers (by trivial))
  intro _
  apply Prog.Uses.bind (modify_lowers fun _ _ => id)
  intro _
  apply when_lowers (perform_lowers (by trivial))
  intro _
  apply Prog.Uses.bind (modify_lowers fun _ _ => id)
  intro _
  apply Prog.Uses.bind (perform_lowers (by trivial))
  intro _
  apply Prog.Uses.bind (modify_lowers fun _ _ => id)
  intro _
  apply Prog.Uses.bind (holding_lowers .snapshotLock (modify_lowers fun _ _ => id))
  intro _
  apply Prog.Uses.bind
  · apply modify_lowers
    intro o flag
    cases flag <;> simp [Ram.raised, Ram.flag]
  intro _
  apply Prog.Uses.bind (publish_lowers .failed)
  intro _
  apply modify_lowers
  intro o flag
  cases flag <;> simp [Ram.raised, Ram.flag]

private theorem retain_lowers : retain.Uses Lowers := by
  apply Prog.Uses.bind
  · apply modify_lowers
    intro o flag
    cases flag <;> simp [Ram.raised, Ram.flag]
  intro _
  exact publish_lowers .readyReboot

private theorem failLocked_lowers (message : String) : (failLocked message).Uses Lowers := by
  apply Prog.Uses.bind clearGrant_lowers
  intro _
  apply Prog.Uses.bind (perform_lowers (by trivial))
  intro s
  exact ite_lowers retain_lowers (abandon_lowers message s)

theorem fail_rests (message : String) : Rests (fail message) :=
  rests_lowers (holding_lowers .lock (failLocked_lowers message))

theorem finishCheck_rests (transportOk : Bool) : Rests (finishCheck transportOk) := by
  apply rests_lowers
  apply Prog.Uses.bind
  · apply modify_lowers
    intro o flag
    cases flag <;> simp [Ram.raised, Ram.flag]
  intro _
  apply ite_lowers (publish_lowers .failed)
  apply Prog.Uses.bind (perform_lowers (by trivial))
  intro s
  exact ite_lowers (publish_lowers .idle) (Prog.uses_pure Lowers ())

private theorem recordTransferProgress_rests (delta reconstructing : Bool) :
    Rests (recordTransferProgress delta reconstructing) := by
  apply rests_lowers
  apply holding_lowers
  apply Prog.Uses.bind (perform_lowers (by trivial))
  intro s
  apply ite_lowers _ (Prog.uses_pure Lowers ())
  apply Prog.Uses.bind (modify_lowers fun _ _ => id)
  intro _
  exact ite_lowers (modify_lowers fun _ _ => id) (Prog.uses_pure Lowers ())

private theorem healthCheck_rests (running : Bool) : Rests (healthCheck running) := by
  apply rests_lowers
  apply modify_lowers
  intro o flag
  cases flag <;> simp [Ram.raised, Ram.flag]

/-- Every entry leaves its task with what it had, whatever the others do meanwhile. -/
theorem entry_rests {p : EntryProg Unit} (entry : Entry p) : Rests p := by
  cases entry with
  | tryStorageLease => exact rests_ended fun _ _ _ _ => tryStorageLease_safe
  | tryNetworkStartLease => exact rests_ended fun _ _ _ _ => tryNetworkStartLease_safe
  | releaseStorageLease => exact fun _ _ _ _ => releaseStorageLease_safe
  | request => exact rests_ended request_rests
  | requestMaintenanceUpdate sha ttl => exact rests_ended (requestMaintenanceUpdate_rests sha ttl)
  | discoverManifest json => exact rests_ended (discoverManifest_rests json)
  | takeRequest => exact rests_ended takeRequest_rests
  | processLocalRequests rounds => exact processLocalRequests_rests rounds
  | deferUpdate => exact rests_inner (inner_lift _) ()
  | fail message => exact fail_rests message
  | finishCheck transportOk => exact finishCheck_rests transportOk
  | recordTransferProgress delta reconstructing =>
    exact recordTransferProgress_rests delta reconstructing
  | healthCheck running => exact healthCheck_rests running
  | _ => exact rests_ended (rests_inner (inner_lift _) false)

end Entries

section Runs

variable {c : Config Call Answer (Shared T) T} {t u : T}

theorem respects (T : Type) [DecidableEq T] : Respects (system T) (contract T) where
  stable t := Scope.stable t 0
  entry t _ s entry h := entry_rests entry T t s h

/-- The task has acquired the lease more often than it has released it. -/
def Shared.Leases (s : Shared T) (t : T) : Prop := s.released t < s.acquired t

/-- What holds of the lease in every state of every run. -/
structure Exclusive (c : Config Call Answer (Shared T) T) : Prop where
  one : ∀ t u, c.shared.Leases t → c.shared.Leases u → t = u
  counted : ∀ t, c.shared.Leases t → c.shared.acquired t = c.shared.released t + c.shared.depth
  free : c.shared.depth = 0 ↔ ∀ t, c.shared.acquired t = c.shared.released t
  quiet : .storage ∈ c.shared.kinds → ∀ flag, flag ≠ .bootPending → c.shared.ram.flag flag = false
  owner : ∀ t, c.task t = none → (c.shared.owner = some t ↔ c.shared.Leases t)
  foreign : ∀ t, c.task t = some releaseStorageLease → ¬ c.shared.Leases t →
    ∀ c', Step (system T) c c' → c'.task t ≠ c.task t →
      c'.shared = c.shared ∧ c'.task t = some (pure ())

theorem answered (reached : Reach (system T) {} c) {k : Call} {r : Answer k} {s : Shared T}
    (answer : respond t k c.shared r s) {next : Answer k → EntryProg Unit}
    (running : c.task t = some (.call k next)) :
    Reach (system T) {} (c.set t (some (next r)) s) :=
  reached.step (.call t k next r s running answer)

end Runs

end Mosaico.Ota
