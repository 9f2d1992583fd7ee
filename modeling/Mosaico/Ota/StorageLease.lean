import Mosaico.Library.Interleaving
import Mosaico.Ota.Entries

/-! The storage lease under every interleaving of the entry points: one holder, counted
acquisitions, and no OTA work beginning while a storage lease is held. -/
namespace Mosaico.Ota

open Interaction Interleaving

variable {T : Type} [DecidableEq T]

/-- The shared state. `acquired`, `released` and `kinds` record what happened to the lease:
`kinds` has every lease obtained since it was last free. -/
structure Shared (T : Type) where
  ram : Ram := {}
  locks : Mutex → Option T := fun _ => none
  holder : Option T := none
  count : Nat := 0
  depth : Nat := 0
  owner : Option T := none
  kinds : List Kind := []
  acquired : T → Nat := fun _ => 0
  released : T → Nat := fun _ => 0

def respondOta (t : T) : Behaviour OtaCall OtaAnswer (Shared T)
  | .get, s, r, s' => r = s.ram ∧ s' = s
  | .modify f, s, _, s' => s' = { s with ram := f s.ram }
  | .exchangeApproved, s, r, s' =>
    r = s.ram.approvedRequest ∧ s' = { s with ram := { s.ram with approvedRequest := false } }
  | .lock m, s, _, s' =>
    s.locks m = none ∧ s' = { s with locks := Function.update s.locks m (some t) }
  | .tryLock m, s, ok, s' =>
    (ok = true ∧ s.locks m = none ∧ s' = { s with locks := Function.update s.locks m (some t) }) ∨
      (ok = false ∧ s' = s)
  | .unlock m, s, _, s' => s' = { s with locks := Function.update s.locks m none }
  | _, s, _, s' => s' = s

/-- A lock that is only tried may also fail for no reason. -/
def respond (t : T) : Behaviour Call Answer (Shared T)
  | .tryLockLease, s, ok, s' =>
    (ok = true ∧ (s.holder = none ∨ s.holder = some t) ∧
      s' = { s with holder := some t, count := s.count + 1 }) ∨ (ok = false ∧ s' = s)
  | .unlockLease, s, _, s' =>
    s' = { s with
      holder := if s.count = 1 then none else s.holder
      count := s.count - 1 }
  | .depth, s, n, s' => n = s.depth ∧ s' = s
  | .deepen kind, s, _, s' =>
    s' = { s with
      depth := s.depth + 1, kinds := kind :: s.kinds
      acquired := Function.update s.acquired t (s.acquired t + 1) }
  | .shallow, s, n, s' =>
    n = s.depth - 1 ∧ s' = { s with
      depth := s.depth - 1, kinds := if s.depth = 1 then [] else s.kinds
      released := Function.update s.released t (s.released t + 1) }
  | .storeOwner mine, s, _, s' => s' = { s with owner := if mine then some t else none }
  | .ownsLease, s, owns, s' => owns = decide (s.owner = some t) ∧ s' = s
  | .ota c, s, r, s' => respondOta t c s r s'

def ended {α : Type} (p : EntryProg α) : EntryProg Unit := do
  let _ ← p

/-- The boot health check, as far as `busy` sees it. -/
def healthCheck (running : Bool) : EntryProg Unit :=
  lift (modify fun s => { s with bootPending := running })

inductive Entry : EntryProg Unit → Prop
  | tryStorageLease : Entry (ended tryStorageLease)
  | tryNetworkStartLease : Entry (ended tryNetworkStartLease)
  | releaseStorageLease : Entry releaseStorageLease
  | request : Entry (ended request)
  | requestMaintenanceUpdate (sha : String) (ttl : Nat) :
      Entry (ended (requestMaintenanceUpdate sha ttl))
  | requestMaintenanceReboot (sha : String) (ttl : Nat) :
      Entry (ended (requestMaintenanceReboot sha ttl))
  | approveUpdate (sha : String) : Entry (ended (approveUpdate sha))
  | discoverManifest (json : String) : Entry (ended (discoverManifest json))
  | deferUpdate : Entry deferUpdate
  | setAutomaticInstall (enabled : Bool) : Entry (ended (setAutomaticInstall enabled))
  | takeRequest : Entry (ended takeRequest)
  | fail (message : String) : Entry (fail message)
  | beginManifest (json : String) : Entry (ended (beginManifest json))
  | writeChunk (offset : Nat) (data : List UInt8) : Entry (ended (writeChunk offset data))
  | finishDownload : Entry (ended finishDownload)
  | installVerified : Entry (ended installVerified)
  | resetDownloadForFullFallback : Entry (ended resetDownloadForFullFallback)
  | requestCheck : Entry (ended requestCheck)
  | takeCheckRequest : Entry (ended takeCheckRequest)
  | finishCheck (transportOk : Bool) : Entry (finishCheck transportOk)
  | approveInstall (sha : String) : Entry (ended (approveInstall sha))
  | requestReboot : Entry (ended requestReboot)
  | rebootWithFreshPower : Entry (ended rebootWithFreshPower)
  | processLocalRequests (rounds : Nat) : Entry (processLocalRequests rounds)
  | recordTransferProgress (delta reconstructing : Bool) :
      Entry (recordTransferProgress delta reconstructing)
  | healthCheck (running : Bool) : Entry (healthCheck running)

def system (T : Type) [DecidableEq T] : System Call Answer (Shared T) T where
  answers := respond
  starts _ := Entry

def Ram.raised (o : Ram) (flag : Flag) : Bool := flag != .bootPending && o.flag flag

/-- The law of the lease, between any two calls. -/
structure Lawful (s : Shared T) : Prop where
  counted : ∀ t, s.acquired t = s.released t + if s.holder = some t then s.depth else 0
  free : s.holder = none → s.depth = 0 ∧ s.count = 0
  kinds : s.depth = 0 → s.kinds = []
  quiet : .storage ∈ s.kinds → ∀ flag, s.ram.raised flag = false
  owned : ∀ t, s.owner = some t → s.holder = some t

/-- Nothing of the lease changed, and no flag was raised. -/
structure Same (s s' : Shared T) : Prop where
  holder : s'.holder = s.holder
  count : s'.count = s.count
  depth : s'.depth = s.depth
  owner : s'.owner = s.owner
  kinds : s'.kinds = s.kinds
  raised : ∀ flag, s'.ram.raised flag = true → s.ram.raised flag = true

structure Promise (t : T) (s s' : Shared T) : Prop where
  lawful : Lawful s → Lawful s'
  held : ∀ u, u ≠ t → s.holder = some u → Same s s'
  others : ∀ u, u ≠ t → s.holder ≠ some u → s'.holder ≠ some u
  counters : ∀ u, u ≠ t → s'.acquired u = s.acquired u ∧ s'.released u = s.released u

structure Relied (u : T) (s s' : Shared T) : Prop where
  lawful : Lawful s → Lawful s'
  held : s.holder = some u → Same s s'
  others : s.holder ≠ some u → s'.holder ≠ some u

omit [DecidableEq T] in
theorem Same.refl (s : Shared T) : Same s s := ⟨rfl, rfl, rfl, rfl, rfl, fun _ => id⟩

omit [DecidableEq T] in
theorem Same.trans {s₁ s₂ s₃ : Shared T} (h : Same s₁ s₂) (h' : Same s₂ s₃) : Same s₁ s₃ :=
  ⟨h'.holder.trans h.holder, h'.count.trans h.count, h'.depth.trans h.depth,
    h'.owner.trans h.owner, h'.kinds.trans h.kinds, fun f r => h.raised f (h'.raised f r)⟩

theorem Relied.trans {u : T} {s₁ s₂ s₃ : Shared T} (h : Relied u s₁ s₂) (h' : Relied u s₂ s₃) :
    Relied u s₁ s₃ where
  lawful := fun l => h'.lawful (h.lawful l)
  held := by
    intro mine
    have first := h.held mine
    exact first.trans (h'.held (first.holder.trans mine))
  others := fun free => h'.others (h.others free)

/-- The task's part of the lease: it holds the mutex `k` times beyond its leases. -/
structure Scope (t : T) (k : Nat) (s : Shared T) : Prop where
  lawful : Lawful s
  held : 0 < k → s.holder = some t
  count : s.holder = some t → s.count = s.depth + k ∧ 0 < s.count
  owner : s.holder = some t → s.owner = if s.depth = 0 then none else some t

def contract (T : Type) [DecidableEq T] : Contract T (Shared T) where
  guar := Promise
  rely := Relied
  idle t := Scope t 0
  rely_refl := fun _ s => ⟨id, fun _ => Same.refl s, id⟩
  rely_trans := fun h h' => h.trans h'
  others := fun {_ u _ _} apart h => ⟨h.lawful, h.held u apart, h.others u apart⟩

/-- Inside an admission: nobody has the lease. -/
structure Within (t : T) (k : Nat) (s : Shared T) : Prop where
  scope : Scope t (k + 1) s
  unleased : s.depth = 0

/-- The mutex is the task's, but its name is not yet or no longer in order. -/
structure Between (t : T) (k : Nat) (s : Shared T) : Prop where
  lawful : Lawful s
  holder : s.holder = some t
  count : s.count = s.depth + k ∧ 0 < s.count

section Assertions

variable {t : T} {k : Nat} {s s' : Shared T}

theorem Scope.stable (t : T) (k : Nat) : Stable (contract T) t (Scope t k) := by
  intro s s' h same
  have was (mine : s'.holder = some t) : s.holder = some t := by
    by_contra free
    exact same.others free mine
  refine ⟨same.lawful h.lawful, fun more => ?_, fun mine => ?_, fun mine => ?_⟩
  · rw [(same.held (h.held more)).holder]
    exact h.held more
  · have kept := same.held (was mine)
    rw [kept.count, kept.depth]
    exact h.count (was mine)
  · have kept := same.held (was mine)
    rw [kept.owner, kept.depth]
    exact h.owner (was mine)

theorem Within.stable (t : T) (k : Nat) : Stable (contract T) t (Within t k) := by
  intro s s' h same
  have kept := same.held (h.scope.held (Nat.succ_pos k))
  exact ⟨Scope.stable t (k + 1) s s' h.scope same, kept.depth.trans h.unleased⟩

theorem Between.stable (t : T) (k : Nat) : Stable (contract T) t (Between t k) := by
  intro s s' h same
  have kept := same.held h.holder
  exact ⟨same.lawful h.lawful, kept.holder.trans h.holder, by rw [kept.count, kept.depth]; exact h.count⟩

theorem Promise.refl (t : T) (s : Shared T) : Promise t s s :=
  ⟨id, fun _ _ _ => Same.refl s, fun _ _ h => h, fun _ _ => ⟨rfl, rfl⟩⟩

/-- A step of the holder is no business of the others. -/
theorem Promise.holder {t : T} {s s' : Shared T} (holder : s.holder = some t)
    (lawful : Lawful s') (kept : ∀ u, u ≠ t → s'.holder ≠ some u)
    (counters : ∀ u, u ≠ t → s'.acquired u = s.acquired u ∧ s'.released u = s.released u) :
    Promise t s s' :=
  ⟨fun _ => lawful, fun _ apart held => absurd (Option.some.inj (held.symm.trans holder)) apart,
    fun u apart _ => kept u apart, counters⟩

theorem Scope.take (h : Scope t k s) (free : s.holder = none ∨ s.holder = some t) :
    Promise t s { s with holder := some t, count := s.count + 1 } ∧
      Scope t (k + 1) { s with holder := some t, count := s.count + 1 } := by
  have depthFree : s.holder = none → k = 0 ∧ s.depth = 0 ∧ s.count = 0 := by
    intro hn
    refine ⟨?_, h.lawful.free hn⟩
    by_contra more
    have := h.held (Nat.pos_of_ne_zero more)
    simp [hn] at this
  have lawful : Lawful { s with holder := some t, count := s.count + 1 } := by
    refine { h.lawful with counted := ?_, free := nofun, owned := ?_ }
    · intro u
      rw [h.lawful.counted u]
      cases free with
      | inl hn => simp [hn, (depthFree hn).2.1]
      | inr mine => simp [mine]
    · intro u owns
      cases free with
      | inl hn => exact absurd (h.lawful.owned u owns) (by simp [hn])
      | inr mine => exact mine.symm.trans (h.lawful.owned u owns)
  constructor
  · refine ⟨fun _ => lawful, fun u apart held => ?_, fun u apart _ => ?_, fun _ _ => ⟨rfl, rfl⟩⟩
    · cases free with
      | inl hn => simp [hn] at held
      | inr mine => exact absurd (Option.some.inj (held.symm.trans mine)) apart
    · exact fun mine => apart (Option.some.inj mine).symm
  · refine ⟨lawful, fun _ => rfl, fun _ => ?_, fun _ => ?_⟩
    · cases free with
      | inl hn =>
        obtain ⟨hk, hd, hc⟩ := depthFree hn
        simp [hk, hd, hc]
      | inr mine =>
        have count := (h.count mine).1
        exact ⟨by dsimp only; omega, Nat.succ_pos _⟩
    · cases free with
      | inl hn =>
        have unowned : s.owner = none := by
          cases howner : s.owner with
          | none => rfl
          | some u => exact absurd (h.lawful.owned u howner) (by simp [hn])
        simp [unowned, (depthFree hn).2.1]
      | inr mine => exact h.owner mine

theorem Scope.leave (h : Scope t (k + 1) s) :
    Promise t s { s with holder := if s.count = 1 then none else s.holder, count := s.count - 1 } ∧
      Scope t k { s with
        holder := if s.count = 1 then none else s.holder, count := s.count - 1 } := by
  have mine := h.held (Nat.succ_pos k)
  have count := (h.count mine).1
  have owner := h.owner mine
  by_cases last : s.count = 1
  · have hd : s.depth = 0 := by omega
    have hk : k = 0 := by omega
    have counted := h.lawful.counted
    rw [mine, hd] at counted
    rw [hd] at owner
    have lawful : Lawful { s with
        holder := if s.count = 1 then none else s.holder, count := s.count - 1 } := by
      rw [if_pos last]
      refine { h.lawful with counted := ?_, free := ?_, owned := ?_ }
      · intro u
        simpa using counted u
      · exact fun _ => ⟨hd, by rw [last]⟩
      · intro u owns
        rw [show s.owner = none from owner] at owns
        cases owns
    refine ⟨Promise.holder mine lawful (fun u _ => by simp [last]) fun _ _ => ⟨rfl, rfl⟩,
      lawful, fun more => by omega, ?_, ?_⟩ <;> simp [last]
  · have lawful : Lawful { s with
        holder := if s.count = 1 then none else s.holder, count := s.count - 1 } := by
      rw [if_neg last]
      exact { h.lawful with free := fun free => by simp [mine] at free }
    refine ⟨Promise.holder mine lawful (fun u apart => ?_) fun _ _ => ⟨rfl, rfl⟩, lawful, ?_, ?_, ?_⟩
    · rw [if_neg last, mine]
      exact fun e => apart (Option.some.inj e).symm
    · intro _
      rw [if_neg last, mine]
    · intro _
      have positive := (h.count mine).2
      constructor <;> dsimp only <;> omega
    · intro _
      exact owner

/-- Any call on the OTA state, inside an admission. -/
theorem Within.touch (h : Within t k s) (ram : Ram) (locks : Mutex → Option T) :
    Promise t s { s with ram := ram, locks := locks } ∧
      Within t k { s with ram := ram, locks := locks } := by
  have mine := h.scope.held (Nat.succ_pos k)
  have none_ := h.scope.lawful.kinds h.unleased
  have lawful : Lawful { s with ram := ram, locks := locks } :=
    { h.scope.lawful with quiet := fun some_ => by simp [none_] at some_ }
  refine ⟨Promise.holder mine lawful ?_ fun _ _ => ⟨rfl, rfl⟩, ⟨?_, h.unleased⟩⟩
  · intro u apart held
    exact apart (Option.some.inj (held.symm.trans mine))
  · exact { h.scope with lawful := lawful }

/-- A call that raises no flag. -/
theorem Scope.lower (h : Scope t k s) {ram : Ram} (locks : Mutex → Option T)
    (lowers : ∀ flag, ram.raised flag = true → s.ram.raised flag = true) :
    Promise t s { s with ram := ram, locks := locks } ∧
      Scope t k { s with ram := ram, locks := locks } := by
  have lawful (l : Lawful s) : Lawful { s with ram := ram, locks := locks } := by
    refine { l with quiet := fun leased flag => ?_ }
    have low := l.quiet leased flag
    cases raised : ram.raised flag with
    | false => rfl
    | true => rw [lowers flag raised] at low; cases low
  exact ⟨⟨lawful, fun _ _ _ => ⟨rfl, rfl, rfl, rfl, rfl, lowers⟩, fun _ _ h => h,
    fun _ _ => ⟨rfl, rfl⟩⟩, { h with lawful := lawful h.lawful }⟩

theorem Scope.deepen (h : Scope t (k + 1) s) (kind : Kind)
    (quiet : kind = .storage → ∀ flag, s.ram.raised flag = false) {s' : Shared T}
    (step : respond t (.deepen kind) s () s') :
    Promise t s s' ∧ Between t k s' ∧ 0 < s'.depth := by
  have mine := h.held (Nat.succ_pos k)
  have count := h.count mine
  rw [show s' = _ from step]
  have lawful : Lawful { s with
      depth := s.depth + 1, kinds := kind :: s.kinds
      acquired := Function.update s.acquired t (s.acquired t + 1) } := by
    refine { h.lawful with counted := ?_, free := ?_, kinds := ?_, quiet := ?_ }
    · intro u
      have counted := h.lawful.counted u
      by_cases same : u = t
      · rw [same, mine] at counted
        simp only [if_true] at counted
        simp only [same, Function.update_self, mine, if_true, counted]
        omega
      · simp only [Function.update_of_ne same, counted, mine, Option.some.injEq,
          if_neg (fun e : t = u => same e.symm)]
    · exact fun free => by simp [mine] at free
    · exact nofun
    · intro leased
      cases List.mem_cons.mp leased with
      | inl new => exact quiet new.symm
      | inr old => exact h.lawful.quiet old
  refine ⟨Promise.holder mine lawful ?_ ?_, ⟨lawful, mine, ?_⟩, Nat.succ_pos _⟩
  · intro u apart held
    exact apart (Option.some.inj (held.symm.trans mine))
  · exact fun u apart => ⟨Function.update_of_ne apart .., rfl⟩
  · exact ⟨by dsimp only; omega, count.2⟩

theorem Scope.shallow (h : Scope t 0 s) (mine : s.holder = some t) {n : Nat} {s' : Shared T}
    (step : respond t .shallow s n s') :
    Promise t s s' ∧ Between t 1 s' ∧ s'.owner = some t ∧ s'.depth = n := by
  have count := h.count mine
  have owner := h.owner mine
  obtain ⟨hn, hs⟩ := step
  rw [if_neg (show s.depth ≠ 0 by omega)] at owner
  rw [hs]
  have lawful : Lawful { s with
      depth := s.depth - 1, kinds := if s.depth = 1 then [] else s.kinds
      released := Function.update s.released t (s.released t + 1) } := by
    refine { h.lawful with counted := ?_, free := ?_, kinds := ?_, quiet := ?_ }
    · intro u
      have counted := h.lawful.counted u
      by_cases same : u = t
      · rw [same, mine] at counted
        simp only [if_true] at counted
        simp only [same, Function.update_self, mine, if_true, counted]
        omega
      · simp only [Function.update_of_ne same, counted, mine, Option.some.injEq,
          if_neg (fun e : t = u => same e.symm)]
    · exact fun free => by simp [mine] at free
    · intro none_
      rw [if_pos (show s.depth = 1 by dsimp only at none_; omega)]
    · intro leased
      dsimp only at leased
      split at leased
      · cases leased
      · exact h.lawful.quiet leased
  refine ⟨Promise.holder mine lawful ?_ ?_, ⟨lawful, mine, ?_⟩, owner, hn.symm⟩
  · intro u apart held
    exact apart (Option.some.inj (held.symm.trans mine))
  · exact fun u apart => ⟨rfl, Function.update_of_ne apart ..⟩
  · exact ⟨by dsimp only; omega, count.2⟩

/-- The name is put in order. -/
theorem Between.name (h : Between t k s) (mine : Bool) (right : mine = decide (s.depth ≠ 0)) :
    Promise t s { s with owner := if mine then some t else none } ∧
      Scope t k { s with owner := if mine then some t else none } := by
  have lawful : Lawful { s with owner := if mine then some t else none } := by
    refine { h.lawful with owned := fun u owns => ?_ }
    cases mine with
    | false => cases owns
    | true => exact h.holder.trans owns
  refine ⟨Promise.holder h.holder lawful ?_ fun _ _ => ⟨rfl, rfl⟩,
    lawful, fun _ => h.holder, fun _ => h.count, fun _ => ?_⟩
  · intro u apart held
    exact apart (Option.some.inj (held.symm.trans h.holder))
  · rw [right]
    by_cases none_ : s.depth = 0 <;> simp [none_]

end Assertions

section Rules

variable {t : T} {k : Nat} {s : Shared T} {α β : Type}

abbrev Safe (t : T) (p : EntryProg α) (post : α → Shared T → Prop) (s : Shared T) : Prop :=
  Secure (contract T) (respond t) t p post s

omit [DecidableEq T] in
theorem respondOta_shape {c : OtaCall} {r : OtaAnswer c} {s' : Shared T}
    (step : respondOta t c s r s') : ∃ ram locks, s' = { s with ram := ram, locks := locks } := by
  cases c <;> first
    | exact ⟨s.ram, s.locks, step⟩
    | exact ⟨_, s.locks, step⟩
    | exact ⟨s.ram, _, step⟩
    | exact ⟨s.ram, s.locks, step.2⟩
    | exact ⟨s.ram, _, step.2⟩
    | exact ⟨_, s.locks, step.2⟩
    | (cases step with
        | inl taken => exact ⟨s.ram, _, taken.2.2⟩
        | inr missed => exact ⟨s.ram, s.locks, missed.2⟩)

def Lowers : OtaCall → Prop
  | .modify f => ∀ o flag, (f o).raised flag = true → o.raised flag = true
  | _ => True

private theorem raised_unapproved (o : Ram) (flag : Flag)
    (h : ({ o with approvedRequest := false } : Ram).raised flag = true) : o.raised flag = true := by
  cases flag <;> simp_all [Ram.raised, Ram.flag]

omit [DecidableEq T] in
private theorem respondOta_lowers {c : OtaCall} {r : OtaAnswer c} {s' : Shared T} (low : Lowers c)
    (step : respondOta t c s r s') : ∃ ram locks, s' = { s with ram := ram, locks := locks } ∧
      ∀ flag, ram.raised flag = true → s.ram.raised flag = true := by
  cases c <;> first
    | exact ⟨s.ram, s.locks, step, fun _ => id⟩
    | exact ⟨_, s.locks, step, low s.ram⟩
    | exact ⟨s.ram, _, step, fun _ => id⟩
    | exact ⟨s.ram, s.locks, step.2, fun _ => id⟩
    | exact ⟨s.ram, _, step.2, fun _ => id⟩
    | exact ⟨_, s.locks, step.2, fun flag => raised_unapproved s.ram flag⟩
    | (cases step with
        | inl taken => exact ⟨s.ram, _, taken.2.2, fun _ => id⟩
        | inr missed => exact ⟨s.ram, s.locks, missed.2, fun _ => id⟩)

/-- Inside an admission a program may do to the OTA state what it likes. -/
theorem lift_within (p : OtaProg α) (h : Within t k s) :
    Safe t (lift p) (fun _ => Within t k) s := by
  induction p generalizing s with
  | done value => exact secure_pure (Within.stable t k) h
  | call c next ih =>
    intro s₁ same r s₂ step
    obtain ⟨ram, locks, hs₂⟩ := respondOta_shape step
    have touched := (Within.stable t k s s₁ h same).touch ram locks
    rw [hs₂]
    exact ⟨touched.1, ih r touched.2⟩

/-- Outside it must not raise a flag. -/
theorem lift_lowers {p : OtaProg α} (low : p.Uses Lowers) (h : Scope t k s) :
    Safe t (lift p) (fun _ => Scope t k) s := by
  induction p generalizing s with
  | done value => exact secure_pure (Scope.stable t k) h
  | call c next ih =>
    intro s₁ same r s₂ step
    obtain ⟨ram, locks, hs₂, lowers⟩ := respondOta_lowers low.1 step
    have touched := (Scope.stable t k s s₁ h same).lower locks lowers
    rw [hs₂]
    exact ⟨touched.1, ih r (low.2 r) touched.2⟩

def Inner (p : EntryProg α) : Prop :=
  ∀ (T : Type) [DecidableEq T] (t : T) k s, Within t k s → Safe t p (fun _ => Within t k) s

theorem inner_lift (p : OtaProg α) : Inner (lift p) := fun _ _ _ _ _ h => lift_within p h

theorem inner_pure (v : α) : Inner (pure v : EntryProg α) :=
  fun _ _ t k _ h => secure_pure (Within.stable t k) h

theorem inner_bind {p : EntryProg α} {next : α → EntryProg β} (first : Inner p)
    (rest : ∀ v, Inner (next v)) : Inner (p >>= next) :=
  fun T _ t k s h => secure_bind (first T t k s h) fun v s h => rest v T t k s h

/-- What an admission turns into what, while it lasts. -/
structure Admits (t : T) (k : Nat) (outer inner : Shared T → Prop) : Prop where
  outside : Stable (contract T) t outer
  inside : Stable (contract T) t inner
  take : ∀ s s', outer s → respond t .tryLockLease s true s' → Promise t s s' ∧ inner s'
  leave : ∀ s s', inner s → respond t .unlockLease s () s' → Promise t s s' ∧ outer s'
  enter : ∀ s, inner s → s.depth = 0 → Within t k s
  exit : ∀ s, Within t k s → inner s

section Admission

variable {outer inner : Shared T → Prop} (A : Admits t k outer inner)

include A

theorem tryLock_safe (h : outer s) :
    Safe t (leaseCall .tryLockLease)
      (fun ok s => (ok = true → inner s) ∧ (ok = false → outer s)) s := by
  apply secure_perform A.outside _ h
  · intro s h ok s' step
    cases ok with
    | true =>
      have entered := A.take s s' h step
      exact ⟨entered.1, fun _ => entered.2, nofun⟩
    | false =>
      cases step with
      | inl taken => cases taken.1
      | inr missed =>
        rw [missed.2]
        exact ⟨Promise.refl t s, nofun, fun _ => h⟩
  · intro ok s s' h same
    exact ⟨fun hok => A.inside s s' (h.1 hok) same, fun hok => A.outside s s' (h.2 hok) same⟩

theorem depth_safe (h : inner s) :
    Safe t (leaseCall .depth) (fun n s => inner s ∧ (n = 0 → Within t k s)) s := by
  apply secure_perform A.inside _ h
  · intro s h n s' step
    obtain ⟨hn, hs⟩ := step
    rw [hs]
    exact ⟨Promise.refl t s, h, fun zero => A.enter s h (hn.symm.trans zero)⟩
  · intro n s s' h same
    exact ⟨A.inside s s' h.1 same, fun zero => Within.stable t k s s' (h.2 zero) same⟩

theorem unlock_safe (h : inner s) : Safe t (leaseCall .unlockLease) (fun _ => outer) s := by
  apply secure_perform A.inside (fun _ => A.outside) h
  intro s h _ s' step
  exact A.leave s s' h step

theorem leave_safe (v : α) (h : inner s) :
    Safe t (do leaseCall .unlockLease; return v) (fun _ => outer) s := by
  apply secure_bind (unlock_safe A h)
  intro _ s h
  exact secure_pure A.outside h

/-- An admission gives back what it took. -/
theorem admitted_safe {body : EntryProg α} (keeps : Inner body) (refused : α) (h : outer s) :
    Safe t (admitted refused body) (fun _ => outer) s := by
  apply secure_bind (tryLock_safe A h)
  intro ok s h
  cases ok with
  | false => exact secure_pure A.outside (h.2 rfl)
  | true =>
    apply secure_bind (depth_safe A (h.1 rfl))
    intro n s h
    split
    · rename_i zero
      apply secure_bind (keeps T t k s (h.2 zero))
      intro v s h
      exact leave_safe A v (A.exit s h)
    · exact leave_safe A refused h.1

end Admission

/-- The admission of a task, from its lease or from nothing. -/
theorem Scope.admits (t : T) (k : Nat) : Admits t k (Scope t k) (Scope t (k + 1)) where
  outside := Scope.stable t k
  inside := Scope.stable t (k + 1)
  take := by
    intro s s' h step
    cases step with
    | inl taken => rw [taken.2.2]; exact h.take taken.2.1
    | inr missed => cases missed.1
  leave := by
    intro s s' h step
    rw [show s' = _ from step]
    exact h.leave
  enter := fun _ h zero => ⟨h, zero⟩
  exit := fun _ h => h.scope

/-- The nested admission of an entry that calls another. -/
theorem Within.admits (t : T) (k : Nat) : Admits t (k + 1) (Within t k) (Within t (k + 1)) where
  outside := Within.stable t k
  inside := Within.stable t (k + 1)
  take := by
    intro s s' h step
    have entered := (Scope.admits t (k + 1)).take s s' h.scope step
    cases step with
    | inl taken => exact ⟨entered.1, entered.2, by rw [taken.2.2]; exact h.unleased⟩
    | inr missed => cases missed.1
  leave := by
    intro s s' h step
    have left := (Scope.admits t (k + 1)).leave s s' h.scope step
    exact ⟨left.1, left.2, by rw [show s' = _ from step]; exact h.unleased⟩
  enter := fun _ h _ => h
  exit := fun _ h => h

theorem inner_admitted {body : EntryProg α} (keeps : Inner body) (refused : α) :
    Inner (admitted refused body) :=
  fun _ _ t k _ h => admitted_safe (Within.admits t k) keeps refused h

end Rules

end Mosaico.Ota
