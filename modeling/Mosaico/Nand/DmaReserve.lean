import Mosaico.Library.Interleaving
import Mathlib.Logic.Relation

/-! `mosaico_nand_dma_reserve_model.h`: one buffer is allocated for the boot and leased to one transfer at a time, in
whatever order tasks prepare, acquire and release it. -/
namespace Mosaico.NandDma

open Interaction Interleaving

inductive Error where
  | unprepared | none | allocation | memory | request | busy | ownership
  deriving DecidableEq

def capacity : Nat := 2112

def alignment : Nat := 64

/-- The operations on the atomics, the allocator's, and what a client does with a leased buffer. -/
inductive Call (P : Type) where
  | exchangeAttempted | loadReady | loadFaulted | storeReady | storeFaulted
  | storeError (e : Error)
  | storeBuffer (p : P) | loadBuffer
  | takeLease | dropLease
  | allocate (alignment size : Nat) | valid (p : Option P) (size alignment : Nat) | free (p : P)
  | enter (p : P) | leave

abbrev Answer {P : Type} : Call P → Type
  | .exchangeAttempted | .loadReady | .loadFaulted | .takeLease | .dropLease | .valid _ _ _ => Bool
  | .loadBuffer | .allocate _ _ => Option P
  | _ => Unit

abbrev DmaProg (P α : Type) := Prog (Call P) Answer α

variable {P T : Type}

def ask (c : Call P) : DmaProg P (Answer c) := Prog.perform c

def isReady : DmaProg P Bool := do
  if !(← ask .loadReady) then return false
  return !(← ask .loadFaulted)

def validRequest (size align : Nat) : Bool :=
  size != 0 && size ≤ capacity && align != 0 && align ≤ alignment && align &&& (align - 1) == 0

def refuse {α : Type} (e : Error) (answer : α) : DmaProg P α := do
  ask (.storeError e)
  return answer

def fault {α : Type} (e : Error) (answer : α) : DmaProg P α := do
  ask .storeFaulted
  refuse e answer

def publish (fresh : P) : DmaProg P Bool := do
  ask (.storeBuffer fresh)
  ask (.storeError .none)
  ask .storeReady
  return true

def adopt (fresh : P) : DmaProg P Bool := do
  if !(← ask (.valid (some fresh) capacity alignment)) then
    ask (.free fresh)
    fault .memory false
  else publish fresh

def prepare : DmaProg P Bool := do
  if ← ask .exchangeAttempted then isReady
  else if ← ask .loadFaulted then return false
  else
    match ← ask (.allocate alignment capacity) with
    | none => fault .allocation false
    | some fresh => adopt fresh

/-- The lease is taken; the buffer is looked at once more. -/
def hand : DmaProg P (Option P) := do
  ask (.storeError .none)
  ask .loadBuffer

def recheck : DmaProg P (Option P) := do
  if ← ask .loadFaulted then fault .memory none
  else
    let buffer ← ask .loadBuffer
    if !(← ask (.valid buffer capacity alignment)) then fault .memory none else hand

def acquire (size align : Nat) : DmaProg P (Option P) := do
  if !(← isReady) then return none
  else if !validRequest size align then refuse .request none
  else if !(← ask .takeLease) then refuse .busy none
  else recheck

def drop : DmaProg P Bool := do
  if !(← ask .dropLease) then fault .ownership false else return true

def release [DecidableEq P] : Option P → DmaProg P Bool
  | none => return true
  | some pointer => do
    if !(← ask .loadReady) then fault .ownership false
    else if some pointer ≠ (← ask .loadBuffer) then fault .ownership false
    else drop

def transfer [DecidableEq P] (size align : Nat) : DmaProg P Unit := do
  match ← acquire size align with
  | none => return ()
  | some p =>
    ask (.enter p)
    ask .leave
    let _ ← release (some p)

/-- What the tasks share; `preparer`, `holder`, `transfers`, `live` and `allocations` record what happened. -/
structure Shared (T P : Type) where
  attempted : Bool := false
  ready : Bool := false
  leased : Bool := false
  faulted : Bool := false
  error : Error := .unprepared
  buffer : Option P := none
  preparer : Option T := none
  holder : Option T := none
  transfers : T → Option P := fun _ => none
  live : P → Prop := fun _ => False
  allocations : Nat := 0

/-- The allocator gives blocks that are not in use, and none of the ones that belong to others. -/
def respond [DecidableEq T] (foreign : P → Prop) (t : T) : Behaviour (Call P) Answer (Shared T P)
  | .exchangeAttempted, s, old, s' =>
    old = s.attempted ∧ s' = { s with attempted := true, preparer := if s.attempted then s.preparer else some t }
  | .loadReady, s, r, s' => r = s.ready ∧ s' = s
  | .loadFaulted, s, r, s' => r = s.faulted ∧ s' = s
  | .storeReady, s, _, s' => s' = { s with ready := true }
  | .storeFaulted, s, _, s' => s' = { s with faulted := true }
  | .storeError e, s, _, s' => s' = { s with error := e }
  | .storeBuffer p, s, _, s' => s' = { s with buffer := some p }
  | .loadBuffer, s, r, s' => r = s.buffer ∧ s' = s
  | .takeLease, s, ok, s' =>
    (ok = true ∧ s.leased = false ∧ s' = { s with leased := true, holder := some t }) ∨
      (ok = false ∧ s.leased = true ∧ s' = s)
  | .dropLease, s, ok, s' =>
    (ok = true ∧ s.leased = true ∧ s' = { s with leased := false, holder := none }) ∨
      (ok = false ∧ s.leased = false ∧ s' = s)
  | .allocate _ _, s, some p, s' => ¬s.live p ∧ ¬foreign p ∧
      s' = { s with live := fun q => q = p ∨ s.live q, allocations := s.allocations + 1 }
  | .allocate _ _, s, none, s' => s' = s
  | .valid _ _ _, s, _, s' => s' = s
  | .free p, s, _, s' => s' = { s with live := fun q => q ≠ p ∧ s.live q }
  | .enter p, s, _, s' => s' = { s with transfers := Function.update s.transfers t (some p) }
  | .leave, s, _, s' => s' = { s with transfers := Function.update s.transfers t none }

inductive Entry [DecidableEq P] (foreign : P → Prop) : DmaProg P Unit → Prop
  | prepare : Entry foreign (prepare >>= fun _ => pure ())
  | transfer (size align : Nat) : Entry foreign (transfer size align)
  | releaseNull : Entry foreign (release none >>= fun _ => pure ())
  | releaseForeign (p : P) (h : foreign p) : Entry foreign (release (some p) >>= fun _ => pure ())

def system [DecidableEq T] [DecidableEq P] (foreign : P → Prop) : System (Call P) Answer (Shared T P) T where
  answers := respond foreign
  starts _ := Entry foreign

section Contract

variable (foreign : P → Prop)

/-- The law of the reservation, between any two operations. -/
structure Lawful (s : Shared T P) : Prop where
  transfers : ∀ t p, s.transfers t = some p → s.holder = some t ∧ s.buffer = some p
  leased : ∀ t, s.holder = some t → s.leased = true
  live : ∀ p, s.buffer = some p → s.live p ∧ ¬foreign p
  ready : s.ready = true → s.buffer ≠ none
  fresh : s.attempted = false → s.preparer = none ∧ s.buffer = none ∧ s.allocations = 0
  once : s.allocations ≤ 1

/-- Nothing of the preparation changed, and no block was freed. -/
structure Undisturbed (s s' : Shared T P) : Prop where
  buffer : s'.buffer = s.buffer
  ready : s'.ready = s.ready
  allocations : s'.allocations = s.allocations
  live : ∀ p, s.live p → s'.live p

/-- What task `u` may count on: a published buffer stays, its own preparation and transfer are its own. -/
structure Relied (u : T) (s s' : Shared T P) : Prop where
  lawful : Lawful foreign s → Lawful foreign s'
  attempted : s.attempted = true → s'.attempted = true
  ready : s.ready = true → s'.ready = true
  buffer : ∀ p, s.buffer = some p → s'.buffer = some p
  preparer : s'.preparer = some u ↔ s.preparer = some u
  preparing : s.preparer = some u → Undisturbed s s'
  holder : s'.holder = some u ↔ s.holder = some u
  transfers : s'.transfers u = s.transfers u

/-- What task `t` promises: the law is kept, nothing published is taken back, and the others may rely on it. -/
structure Promise (t : T) (s s' : Shared T P) : Prop where
  lawful : Lawful foreign s → Lawful foreign s'
  buffer : ∀ p, s.buffer = some p → s'.buffer = some p
  others : ∀ u, u ≠ t → Relied foreign u s s'

variable {foreign} {t u : T} {s s' s₁ s₂ s₃ : Shared T P}

theorem Undisturbed.refl (s : Shared T P) : Undisturbed s s := ⟨rfl, rfl, rfl, fun _ => id⟩

theorem Undisturbed.trans (h : Undisturbed s₁ s₂) (h' : Undisturbed s₂ s₃) : Undisturbed s₁ s₃ :=
  ⟨h'.buffer.trans h.buffer, h'.ready.trans h.ready, h'.allocations.trans h.allocations,
    fun p l => h'.live p (h.live p l)⟩

theorem Relied.refl (u : T) (s : Shared T P) : Relied foreign u s s :=
  ⟨id, id, id, fun _ => id, Iff.rfl, fun _ => .refl s, Iff.rfl, rfl⟩

theorem Relied.trans (h : Relied foreign u s₁ s₂) (h' : Relied foreign u s₂ s₃) : Relied foreign u s₁ s₃ where
  lawful l := h'.lawful (h.lawful l)
  attempted a := h'.attempted (h.attempted a)
  ready r := h'.ready (h.ready r)
  buffer p b := h'.buffer p (h.buffer p b)
  preparer := h'.preparer.trans h.preparer
  preparing mine := (h.preparing mine).trans (h'.preparing (h.preparer.mpr mine))
  holder := h'.holder.trans h.holder
  transfers := h'.transfers.trans h.transfers

theorem Promise.refl (t : T) (s : Shared T P) : Promise foreign t s s := ⟨id, fun _ => id, fun u _ => .refl u s⟩

def Idle (foreign : P → Prop) (t : T) (s : Shared T P) : Prop := Lawful foreign s ∧ s.transfers t = none

def contract (foreign : P → Prop) : Contract T (Shared T P) where
  guar := Promise foreign
  rely := Relied foreign
  idle := Idle foreign
  rely_refl := Relied.refl
  rely_trans := Relied.trans
  others apart h := h.others _ apart

theorem Idle.stable (t : T) : Stable (contract foreign) t (Idle foreign t) :=
  fun _ _ h same => ⟨same.lawful h.1, same.transfers.trans h.2⟩

/-- The one task that prepares, with the candidate that it was given. -/
structure Preparing (foreign : P → Prop) (t : T) (candidate : Option P) (s : Shared T P) : Prop where
  idle : Idle foreign t s
  attempted : s.attempted = true
  mine : s.preparer = some t
  empty : s.buffer = none
  unready : s.ready = false
  allocated : s.allocations = if candidate.isSome then 1 else 0
  candidate : ∀ p, candidate = some p → s.live p ∧ ¬foreign p

theorem Preparing.stable (t : T) (candidate : Option P) :
    Stable (contract foreign) t (Preparing foreign t candidate) := by
  intro s s' h same
  have kept := same.preparing h.mine
  exact ⟨Idle.stable t s s' h.idle same, same.attempted h.attempted, same.preparer.mpr h.mine,
    kept.buffer.trans h.empty, kept.ready.trans h.unready, kept.allocations.trans h.allocated,
    fun p there => ⟨kept.live p (h.candidate p there).1, (h.candidate p there).2⟩⟩

/-- The task has the lease. -/
structure Holding (foreign : P → Prop) (t : T) (s : Shared T P) : Prop where
  idle : Idle foreign t s
  ready : s.ready = true
  held : s.holder = some t

theorem Holding.stable (t : T) : Stable (contract foreign) t (Holding foreign t) :=
  fun s s' h same => ⟨Idle.stable t s s' h.idle same, same.ready h.ready, same.holder.mpr h.held⟩

theorem Holding.buffer_stable (t : T) (p : Option P) :
    Stable (contract foreign) t fun s => Holding foreign t s ∧ s.buffer = p := by
  intro s s' h same
  refine ⟨Holding.stable t s s' h.1 same, ?_⟩
  cases p with
  | none => exact absurd h.2 (h.1.idle.1.ready h.1.ready)
  | some p => exact same.buffer p h.2

/-- The transfer is under way. -/
structure Using (foreign : P → Prop) (t : T) (p : P) (s : Shared T P) : Prop where
  lawful : Lawful foreign s
  ready : s.ready = true
  transfers : s.transfers t = some p

theorem Using.stable (t : T) (p : P) : Stable (contract foreign) t (Using foreign t p) :=
  fun _ _ h same => ⟨same.lawful h.lawful, same.ready h.ready, same.transfers.trans h.transfers⟩

def Quiet (s s' : Shared T P) : Prop := ∃ e f, s' = { s with error := e, faulted := f }

theorem Quiet.lawful (h : Quiet s s') (l : Lawful foreign s) : Lawful foreign s' := by
  obtain ⟨e, f, rfl⟩ := h
  exact { l with }

theorem Quiet.relied (h : Quiet s s') (u : T) : Relied foreign u s s' := by
  have lawful : Lawful foreign s → Lawful foreign s' := h.lawful
  obtain ⟨e, f, rfl⟩ := h
  exact { @Relied.refl P T foreign u s with lawful := lawful, preparing := fun _ => { Undisturbed.refl s with } }

theorem Quiet.promise (h : Quiet s s') (t : T) : Promise foreign t s s' :=
  ⟨h.lawful, (show Relied foreign t s s' from h.relied t).buffer, fun u _ => h.relied u⟩

/-- A step in the task's own preparation. -/
theorem Preparing.promise {candidate : Option P} (h : Preparing foreign t candidate s) (lawful : Lawful foreign s')
    (attempted : s'.attempted = true) (preparer : s'.preparer = s.preparer) (holder : s'.holder = s.holder)
    (transfers : s'.transfers = s.transfers) : Promise foreign t s s' := by
  have none_ : ∀ p, s.buffer ≠ some p := fun p there => by rw [h.empty] at there; cases there
  refine ⟨fun _ => lawful, fun p there => absurd there (none_ p), fun u apart => ?_⟩
  refine ⟨fun _ => lawful, fun _ => attempted, fun ready => ?_, fun p there => absurd there (none_ p),
    by rw [preparer], fun other => ?_, by rw [holder], by rw [transfers]⟩
  · rw [h.unready] at ready
    cases ready
  · rw [h.mine] at other
    exact absurd (Option.some.inj other).symm apart

end Contract

section Programs

variable [DecidableEq T] [DecidableEq P] {foreign : P → Prop} {t : T} {s s' : Shared T P} {α : Type}
    {A : Shared T P → Prop}

abbrev Safe (foreign : P → Prop) (t : T) (p : DmaProg P α) (post : α → Shared T P → Prop) (s : Shared T P) : Prop :=
  Secure (contract foreign) (respond foreign t) t p post s

omit [DecidableEq P] in
/-- A call that only looks, or only tells of an error, keeps what the task may count on. -/
theorem quiet_safe (c : Call P) (stable : Stable (contract foreign) t A)
    (quiet : ∀ s r s', respond foreign t c s r s' → Quiet s s') (h : A s) :
    Safe foreign t (ask c) (fun _ => A) s := by
  apply secure_perform stable (fun _ => stable) h
  intro s h r s' step
  have same := quiet s r s' step
  exact ⟨same.promise t, stable s s' h (same.relied t)⟩

omit [DecidableEq P] in
theorem refuse_safe (stable : Stable (contract foreign) t A) (e : Error) (answer : α) (h : A s) :
    Safe foreign t (refuse e answer) (fun r s => r = answer ∧ A s) s := by
  apply secure_bind (quiet_safe (.storeError e) stable (fun s _ s' step => ⟨e, s.faulted, step⟩) h)
  intro _ s h
  exact secure_pure (fun s s' h same => ⟨h.1, stable s s' h.2 same⟩) ⟨rfl, h⟩

omit [DecidableEq P] in
theorem fault_safe (stable : Stable (contract foreign) t A) (e : Error) (answer : α) (h : A s) :
    Safe foreign t (fault e answer) (fun r s => r = answer ∧ A s) s := by
  apply secure_bind (quiet_safe .storeFaulted stable (fun s _ s' step => ⟨s.error, true, step⟩) h)
  intro _ s h
  exact refuse_safe stable e answer h

omit [DecidableEq P] in
/-- A flag that is never lowered, once seen high. -/
theorem loadReady_safe (stable : Stable (contract foreign) t A) (h : A s) :
    Safe foreign t (ask .loadReady) (fun (r : Bool) s => A s ∧ (r = true → s.ready = true)) s := by
  apply secure_perform stable _ h
  · intro s h r s' step
    obtain ⟨rfl, rfl⟩ := step
    exact ⟨Promise.refl t _, h, id⟩
  · exact fun r s s' h same => ⟨stable s s' h.1 same, fun yes => same.ready (h.2 yes)⟩

omit [DecidableEq P] in
theorem isReady_safe (stable : Stable (contract foreign) t A) (h : A s) :
    Safe foreign t isReady (fun r s => A s ∧ (r = true → s.ready = true)) s := by
  have ends (r : Bool) : Stable (contract foreign) t fun s => A s ∧ (r = true → s.ready = true) :=
    fun s s' h same => ⟨stable s s' h.1 same, fun yes => same.ready (h.2 yes)⟩
  apply secure_bind (loadReady_safe stable h)
  intro ready s h
  cases ready with
  | false => exact secure_pure (ends false) ⟨h.1, fun no => by cases no⟩
  | true =>
    have kept : Stable (contract foreign) t fun s => A s ∧ s.ready = true :=
      fun s s' h same => ⟨stable s s' h.1 same, same.ready h.2⟩
    apply secure_bind (quiet_safe .loadFaulted kept (fun s _ s' step => ⟨s.error, s.faulted, step.2⟩)
      ⟨h.1, h.2 rfl⟩)
    intro faulted s h
    exact secure_pure (ends (!faulted)) ⟨h.1, fun _ => h.2⟩

omit [DecidableEq P] in
theorem publish_safe {fresh : P} (h : Preparing foreign t (some fresh) s) :
    Safe foreign t (publish fresh) (fun _ => Idle foreign t) s := by
  have kept : Stable (contract foreign) t fun s => Idle foreign t s ∧ s.preparer = some t ∧ s.buffer = some fresh :=
    fun s s' h same => ⟨Idle.stable t s s' h.1 same, same.preparer.mpr h.2.1, same.buffer fresh h.2.2⟩
  have stored : Safe foreign t (ask (.storeBuffer fresh))
      (fun _ s => Idle foreign t s ∧ s.preparer = some t ∧ s.buffer = some fresh) s := by
    apply secure_perform (Preparing.stable t (some fresh)) (fun _ => kept) h
    intro s h _ s' step
    rw [show s' = { s with buffer := some fresh } from step]
    have lawful : Lawful foreign { s with buffer := some fresh } := by
      refine { h.idle.1 with transfers := ?_, live := ?_, ready := ?_, fresh := ?_ }
      · intro u p other
        have there := (h.idle.1.transfers u p other).2
        rw [h.empty] at there
        cases there
      · exact fun p same => h.candidate p same
      · exact fun _ bad => by cases bad
      · intro no
        rw [show s.attempted = true from h.attempted] at no
        cases no
    exact ⟨h.promise lawful h.attempted rfl rfl rfl, ⟨lawful, h.idle.2⟩, h.mine, rfl⟩
  apply secure_bind stored
  intro _ s h
  apply secure_bind (quiet_safe (.storeError .none) kept (fun s _ s' step => ⟨Error.none, s.faulted, step⟩) h)
  intro _ s h
  have readied : Safe foreign t (ask .storeReady) (fun _ => Idle foreign t) s := by
    apply secure_perform kept (fun _ => Idle.stable t) h
    intro s h _ s' step
    rw [show s' = { s with ready := true } from step]
    have lawful (l : Lawful foreign s) : Lawful foreign { s with ready := true } :=
      { l with ready := fun _ none_ => by rw [show s.buffer = none from none_] at h; cases h.2.2 }
    refine ⟨⟨lawful, fun _ => id, fun u apart => ?_⟩, lawful h.1.1, h.1.2⟩
    refine { @Relied.refl P T foreign u s with lawful := lawful, ready := fun _ => rfl, preparing := fun other => ?_ }
    rw [h.2.1] at other
    exact absurd (Option.some.inj other).symm apart
  apply secure_bind readied
  intro _ s h
  exact secure_pure (Idle.stable t) h

omit [DecidableEq P] in
theorem adopt_safe {fresh : P} (h : Preparing foreign t (some fresh) s) :
    Safe foreign t (adopt fresh) (fun _ => Idle foreign t) s := by
  apply secure_bind (quiet_safe (.valid (some fresh) capacity alignment) (Preparing.stable t (some fresh))
    (fun s _ s' step => ⟨s.error, s.faulted, step⟩) h)
  intro valid s h
  cases valid with
  | true => exact publish_safe h
  | false =>
    have freed : Safe foreign t (ask (.free fresh)) (fun _ => Idle foreign t) s := by
      apply secure_perform (Preparing.stable t (some fresh)) (fun _ => Idle.stable t) h
      intro s h _ s' step
      rw [show s' = { s with live := fun q => q ≠ fresh ∧ s.live q } from step]
      have lawful : Lawful foreign { s with live := fun q => q ≠ fresh ∧ s.live q } := by
        refine { h.idle.1 with live := fun p there => ?_ }
        rw [show s.buffer = none from h.empty] at there
        cases there
      exact ⟨h.promise lawful h.attempted rfl rfl rfl, lawful, h.idle.2⟩
    apply secure_bind freed
    intro _ s h
    exact (fault_safe (Idle.stable t) .memory false h).mono fun _ _ => And.right

omit [DecidableEq P] in
/-- Only one task ever passes the exchange. -/
theorem exchange_safe (h : Idle foreign t s) :
    Safe foreign t (ask .exchangeAttempted)
      (fun (old : Bool) s => Idle foreign t s ∧ (old = false → Preparing foreign t none s)) s := by
  apply secure_perform (Idle.stable t) _ h
  · intro s h old s' step
    obtain ⟨rfl, rfl⟩ := step
    cases attempted : s.attempted with
    | true =>
      have same : { s with attempted := true, preparer := s.preparer } = s := by rw [← attempted]
      simp only [if_true]
      rw [same]
      exact ⟨Promise.refl t s, h, fun no => by cases no⟩
    | false =>
      obtain ⟨unclaimed, empty, unallocated⟩ := h.1.fresh attempted
      have unready : s.ready = false := by
        cases ready : s.ready with
        | false => rfl
        | true => exact absurd empty (h.1.ready ready)
      simp only [Bool.false_eq_true, if_false]
      have lawful (l : Lawful foreign s) : Lawful foreign { s with attempted := true, preparer := some t } :=
        { l with fresh := fun no => by cases no }
      have mine : Idle foreign t { s with attempted := true, preparer := some t } := ⟨lawful h.1, h.2⟩
      refine ⟨⟨lawful, fun _ => id, fun u apart => ?_⟩, mine, fun _ => ?_⟩
      · refine { @Relied.refl P T foreign u s with
          lawful := lawful, attempted := fun _ => rfl, preparer := ?_, preparing := fun other => ?_ }
        · rw [unclaimed]
          exact ⟨fun same => absurd (Option.some.inj same).symm apart, fun bad => by cases bad⟩
        · rw [unclaimed] at other
          cases other
      · exact ⟨mine, rfl, rfl, empty, unready, unallocated, fun p bad => by cases bad⟩
  · intro old s s' h same
    exact ⟨Idle.stable t s s' h.1 same, fun first => Preparing.stable t none s s' (h.2 first) same⟩

omit [DecidableEq P] in
theorem allocate_step (s : Shared T P) (h : Preparing foreign t none s) (fresh : Option P) (s' : Shared T P)
    (step : respond foreign t (.allocate alignment capacity) s fresh s') :
    Promise foreign t s s' ∧ Preparing foreign t fresh s' := by
  cases fresh with
  | none =>
    rw [show s' = s from step]
    exact ⟨Promise.refl t s, h⟩
  | some p =>
    obtain ⟨unused, own, rfl⟩ := step
    have allocated : s.allocations = 0 := h.allocated
    have lawful : Lawful foreign { s with live := fun q => q = p ∨ s.live q, allocations := s.allocations + 1 } := by
      refine { h.idle.1 with live := fun q there => ?_, fresh := fun no => ?_, once := ?_ }
      · rw [show s.buffer = none from h.empty] at there
        cases there
      · rw [show s.attempted = true from h.attempted] at no
        cases no
      · show s.allocations + 1 ≤ 1
        exact Nat.le_of_eq (congrArg (· + 1) allocated)
    refine ⟨h.promise lawful h.attempted rfl rfl rfl, ⟨lawful, h.idle.2⟩, h.attempted, h.mine,
      h.empty, h.unready, ?_, ?_⟩
    · rw [allocated]
      rfl
    · intro q same
      cases same
      exact ⟨Or.inl rfl, own⟩

omit [DecidableEq P] in
theorem allocate_safe (h : Preparing foreign t none s) :
    Safe foreign t (ask (.allocate alignment capacity)) (fun (fresh : Option P) => Preparing foreign t fresh) s := by
  apply secure_perform (Preparing.stable t none) _ h
  · exact allocate_step
  · exact fun fresh => Preparing.stable t fresh

omit [DecidableEq P] in
theorem prepare_safe (h : Idle foreign t s) : Safe foreign t prepare (fun _ => Idle foreign t) s := by
  apply secure_bind (exchange_safe h)
  intro old s h
  cases old with
  | true => exact (isReady_safe (Idle.stable t) h.1).mono fun _ _ => And.left
  | false =>
    apply secure_bind (quiet_safe .loadFaulted (Preparing.stable t none)
      (fun s _ s' step => ⟨s.error, s.faulted, step.2⟩)
      (h.2 rfl))
    intro faulted s h
    cases faulted with
    | true => exact secure_pure (Idle.stable t) h.idle
    | false =>
      apply secure_bind (allocate_safe h)
      intro fresh s h
      cases fresh with
      | none => exact (fault_safe (Idle.stable t) .allocation false h.idle).mono fun _ _ => And.right
      | some fresh => exact adopt_safe h

/-- What `acquire` gives: nothing, or the buffer with the lease. -/
def Acquired (foreign : P → Prop) (t : T) (r : Option P) (s : Shared T P) : Prop :=
  Idle foreign t s ∧ ∀ p, r = some p → Holding foreign t s ∧ s.buffer = some p

omit [DecidableEq T] [DecidableEq P] in
theorem Acquired.stable (r : Option P) : Stable (contract foreign) t (Acquired foreign t r) :=
  fun s s' h same => ⟨Idle.stable t s s' h.1 same,
    fun p there => Holding.buffer_stable t (some p) s s' (h.2 p there) same⟩

omit [DecidableEq P] in
theorem acquired_none {p : DmaProg P (Option P)} (h : Safe foreign t p (fun r s => r = none ∧ Idle foreign t s) s) :
    Safe foreign t p (Acquired foreign t) s :=
  h.mono fun _ _ ended => ⟨ended.2, fun p some_ => by rw [ended.1] at some_; cases some_⟩

omit [DecidableEq P] in
theorem loadBuffer_safe (h : Holding foreign t s) :
    Safe foreign t (ask .loadBuffer) (fun (r : Option P) s => Holding foreign t s ∧ s.buffer = r) s := by
  apply secure_perform (Holding.stable t) _ h
  · intro s h r s' step
    obtain ⟨rfl, rfl⟩ := step
    exact ⟨Promise.refl t _, h, rfl⟩
  · exact fun r => Holding.buffer_stable t r

omit [DecidableEq P] in
theorem recheck_safe (h : Holding foreign t s) : Safe foreign t recheck (Acquired foreign t) s := by
  apply secure_bind (quiet_safe .loadFaulted (Holding.stable t) (fun s _ s' step => ⟨s.error, s.faulted, step.2⟩) h)
  intro faulted s h
  have refused (s : Shared T P) (h : Holding foreign t s) :
      Safe foreign t (fault .memory none) (Acquired foreign t) s :=
    acquired_none ((fault_safe (Holding.stable t) .memory none h).mono fun _ _ ended => ⟨ended.1, ended.2.idle⟩)
  cases faulted with
  | true => exact refused s h
  | false =>
    apply secure_bind (loadBuffer_safe h)
    intro buffer s h
    apply secure_bind (quiet_safe (.valid buffer capacity alignment) (Holding.stable t)
      (fun s _ s' step => ⟨s.error, s.faulted, step⟩) h.1)
    intro valid s h
    cases valid with
    | false => exact refused s h
    | true =>
      apply secure_bind (quiet_safe (.storeError .none) (Holding.stable t)
        (fun s _ s' step => ⟨Error.none, s.faulted, step⟩) h)
      intro _ s h
      exact (loadBuffer_safe h).mono fun r s ended => ⟨ended.1.idle, fun p same => ⟨ended.1, ended.2.trans same⟩⟩

omit [DecidableEq P] in
/-- A lease is taken only when nobody uses the buffer. -/
theorem takeLease_step (s : Shared T P) (h : Idle foreign t s ∧ s.ready = true) (ok : Bool) (s' : Shared T P)
    (step : respond foreign t .takeLease s ok s') :
    Promise foreign t s s' ∧ Idle foreign t s' ∧ (ok = true → Holding foreign t s') := by
  rcases step with ⟨rfl, free, rfl⟩ | ⟨rfl, -, rfl⟩
  · have unheld : s.holder = none := by
      cases held : s.holder with
      | none => rfl
      | some u =>
        rw [h.1.1.leased u held] at free
        cases free
    have lawful (l : Lawful foreign s) : Lawful foreign { s with leased := true, holder := some t } := by
      refine { l with transfers := fun u p there => ?_, leased := fun _ _ => rfl }
      have held := (l.transfers u p there).1
      rw [unheld] at held
      cases held
    have idle : Idle foreign t { s with leased := true, holder := some t } := ⟨lawful h.1.1, h.1.2⟩
    refine ⟨⟨lawful, fun _ => id, fun u apart => ?_⟩, idle, fun _ => ⟨idle, h.2, rfl⟩⟩
    refine { @Relied.refl P T foreign u s with
      lawful := lawful, preparing := fun _ => { Undisturbed.refl s with }, holder := ?_ }
    rw [unheld]
    exact ⟨fun same => absurd (Option.some.inj same).symm apart, fun bad => by cases bad⟩
  · exact ⟨Promise.refl t _, h.1, fun no => by cases no⟩

omit [DecidableEq P] in
theorem acquire_safe (size align : Nat) (h : Idle foreign t s) :
    Safe foreign t (acquire size align) (Acquired foreign t) s := by
  apply secure_bind (isReady_safe (Idle.stable t) h)
  intro ready s h
  cases ready with
  | false => exact secure_pure (Acquired.stable none) ⟨h.1, fun p bad => by cases bad⟩
  | true =>
    have readied := h.2 rfl
    change Safe foreign t (if !validRequest size align then refuse .request none else _) _ s
    split
    · exact acquired_none (refuse_safe (Idle.stable t) .request none h.1)
    · have kept : Stable (contract foreign) t fun s => Idle foreign t s ∧ s.ready = true :=
        fun s s' h same => ⟨Idle.stable t s s' h.1 same, same.ready h.2⟩
      have taken : Safe foreign t (ask .takeLease)
          (fun (ok : Bool) s => Idle foreign t s ∧ (ok = true → Holding foreign t s)) s := by
        apply secure_perform kept _ ⟨h.1, readied⟩
        · exact takeLease_step
        · intro ok s s' h same
          exact ⟨Idle.stable t s s' h.1 same, fun yes => Holding.stable t s s' (h.2 yes) same⟩
      apply secure_bind taken
      intro ok s h
      cases ok with
      | false => exact acquired_none (refuse_safe (Idle.stable t) .busy none h.1)
      | true => exact recheck_safe (h.2 rfl)

omit [DecidableEq P] in
theorem dropLease_step (s : Shared T P) (h : Holding foreign t s) (ok : Bool) (s' : Shared T P)
    (step : respond foreign t .dropLease s ok s') : Promise foreign t s s' ∧ Idle foreign t s' := by
  rcases step with ⟨-, -, rfl⟩ | ⟨-, -, rfl⟩
  · have alone : ∀ u p, s.transfers u ≠ some p := by
      intro u p there
      have held := (h.idle.1.transfers u p there).1
      rw [h.held] at held
      rw [← Option.some.inj held, h.idle.2] at there
      cases there
    have lawful (l : Lawful foreign s) : Lawful foreign { s with leased := false, holder := none } :=
      { l with transfers := fun u p there => absurd there (alone u p), leased := fun _ bad => by cases bad }
    refine ⟨⟨lawful, fun _ => id, fun u apart => ?_⟩, lawful h.idle.1, h.idle.2⟩
    refine { @Relied.refl P T foreign u s with
      lawful := lawful, preparing := fun _ => { Undisturbed.refl s with }, holder := ?_ }
    rw [h.held]
    exact ⟨(fun bad => by cases bad), fun same => absurd (Option.some.inj same).symm apart⟩
  · exact ⟨Promise.refl t _, h.idle⟩

/-- The buffer is given back by the task that has the lease. -/
theorem release_safe {p : P} (h : Holding foreign t s ∧ s.buffer = some p) :
    Safe foreign t (release (some p)) (fun _ => Idle foreign t) s := by
  have faulted {s : Shared T P} (h : Idle foreign t s) :
      Safe foreign t (fault .ownership false) (fun _ => Idle foreign t) s :=
    (fault_safe (Idle.stable t) .ownership false h).mono fun _ _ => And.right
  apply secure_bind (loadReady_safe (Holding.stable t) h.1)
  intro ready s h
  cases ready with
  | false => exact faulted h.1.idle
  | true =>
    apply secure_bind (loadBuffer_safe h.1)
    intro buffer s h
    change Safe foreign t (if some p ≠ buffer then fault .ownership false else drop) _ s
    split
    · exact faulted h.1.idle
    · have dropped : Safe foreign t (ask .dropLease) (fun _ => Idle foreign t) s :=
        secure_perform (Holding.stable t) (fun _ => Idle.stable t) h.1 dropLease_step
      apply secure_bind dropped
      intro ok s h
      cases ok with
      | false => exact faulted h
      | true => exact secure_pure (Idle.stable t) h

omit [DecidableEq P] in
theorem enter_step {p : P} (s : Shared T P) (h : Holding foreign t s ∧ s.buffer = some p) (r : Unit) (s' : Shared T P)
    (step : respond foreign t (.enter p) s r s') : Promise foreign t s s' ∧ Using foreign t p s' := by
  rw [show s' = { s with transfers := Function.update s.transfers t (some p) } from step]
  have lawful (l : Lawful foreign s) : Lawful foreign
      { s with transfers := Function.update s.transfers t (some p) } := by
    refine { l with transfers := fun u q there => ?_ }
    change Function.update s.transfers t (some p) u = some q at there
    by_cases mine : u = t
    · rw [mine, Function.update_self] at there
      rw [mine]
      exact ⟨h.1.held, h.2.trans there⟩
    · rw [Function.update_of_ne mine] at there
      exact l.transfers u q there
  refine ⟨⟨lawful, fun _ => id, fun u apart => ?_⟩, lawful h.1.idle.1, h.1.ready, Function.update_self ..⟩
  exact { @Relied.refl P T foreign u s with
    lawful := lawful, preparing := fun _ => { Undisturbed.refl s with }, transfers := Function.update_of_ne apart .. }

omit [DecidableEq P] in
theorem leave_step {p : P} (s : Shared T P) (h : Using foreign t p s) (r : Unit) (s' : Shared T P)
    (step : respond foreign t .leave s r s') : Promise foreign t s s' ∧ Holding foreign t s' ∧
    s'.buffer = some p := by
  obtain ⟨held, there⟩ := h.lawful.transfers t p h.transfers
  rw [show s' = { s with transfers := Function.update s.transfers t none } from step]
  have lawful (l : Lawful foreign s) : Lawful foreign { s with transfers := Function.update s.transfers t none } := by
    refine { l with transfers := fun u q other => ?_ }
    change Function.update s.transfers t none u = some q at other
    by_cases mine : u = t
    · rw [mine, Function.update_self] at other
      cases other
    · rw [Function.update_of_ne mine] at other
      exact l.transfers u q other
  refine ⟨⟨lawful, fun _ => id, fun u apart => ?_⟩,
    ⟨⟨lawful h.lawful, Function.update_self ..⟩, h.ready, held⟩, there⟩
  exact { @Relied.refl P T foreign u s with
    lawful := lawful, preparing := fun _ => { Undisturbed.refl s with }, transfers := Function.update_of_ne apart .. }

theorem transfer_safe (size align : Nat) (h : Idle foreign t s) :
    Safe foreign t (transfer size align) (fun _ => Idle foreign t) s := by
  apply secure_bind (acquire_safe size align h)
  intro r s h
  cases r with
  | none => exact secure_pure (Idle.stable t) h.1
  | some p =>
    have entered : Safe foreign t (ask (.enter p)) (fun _ => Using foreign t p) s :=
      secure_perform (Holding.buffer_stable t (some p)) (fun _ => Using.stable t p) (h.2 p rfl) enter_step
    apply secure_bind entered
    intro _ s h
    have left : Safe foreign t (ask .leave) (fun _ s => Holding foreign t s ∧ s.buffer = some p) s :=
      secure_perform (Using.stable t p) (fun _ => Holding.buffer_stable t (some p)) h leave_step
    apply secure_bind left
    intro _ s h
    apply secure_bind (release_safe h)
    intro _ s h
    exact secure_pure (Idle.stable t) h

/-- A pointer of another allocation does not reach the lease. -/
theorem releaseForeign_safe {p : P} (other : foreign p) (h : Idle foreign t s) :
    Safe foreign t (release (some p)) (fun _ => Idle foreign t) s := by
  have faulted {s : Shared T P} (h : Idle foreign t s) :
      Safe foreign t (fault .ownership false) (fun _ => Idle foreign t) s :=
    (fault_safe (Idle.stable t) .ownership false h).mono fun _ _ => And.right
  apply secure_bind (loadReady_safe (Idle.stable t) h)
  intro ready s h
  cases ready with
  | false => exact faulted h.1
  | true =>
    have read : Safe foreign t (ask .loadBuffer) (fun (r : Option P) s => Idle foreign t s ∧ r ≠ some p) s := by
      apply secure_perform (Idle.stable t) _ h.1
      · intro s h r s' step
        obtain ⟨rfl, rfl⟩ := step
        exact ⟨Promise.refl t _, h, fun there => (h.1.live p there).2 other⟩
      · exact fun r s s' h same => ⟨Idle.stable t s s' h.1 same, h.2⟩
    apply secure_bind read
    intro buffer s h
    change Safe foreign t (if some p ≠ buffer then fault .ownership false else drop) _ s
    rw [if_pos h.2.symm]
    exact faulted h.1

theorem entry_safe {p : DmaProg P Unit} (entry : Entry foreign p) (h : Idle foreign t s) :
    Safe foreign t p (fun _ => Idle foreign t) s := by
  have rest {β : Type} {q : DmaProg P β} (safe : Safe foreign t q (fun _ => Idle foreign t) s) :
      Safe foreign t (q >>= fun _ => pure ()) (fun _ => Idle foreign t) s :=
    secure_bind safe fun _ s h => secure_pure (Idle.stable t) h
  cases entry with
  | prepare => exact rest (prepare_safe h)
  | transfer size align => exact transfer_safe size align h
  | releaseNull => exact rest (secure_pure (Idle.stable t) h)
  | releaseForeign q other => exact rest (releaseForeign_safe other h)

theorem system_respects : Respects (system foreign) (contract foreign : Contract T (Shared T P)) where
  stable := Idle.stable
  entry _ _ _ entry idle := entry_safe entry idle

end Programs

section Runs

variable [DecidableEq T] [DecidableEq P] {foreign : P → Prop} {c c' : Config (Call P) Answer (Shared T P) T}

omit [DecidableEq T] [DecidableEq P] in
theorem initial_lawful : Lawful foreign ({} : Shared T P) where
  transfers _ _ bad := by cases bad
  leased _ bad := by cases bad
  live _ bad := by cases bad
  ready bad := by cases bad
  fresh _ := ⟨rfl, rfl, rfl⟩
  once := Nat.zero_le 1

omit [DecidableEq T] [DecidableEq P] in
theorem initial_idle (t : T) : Idle foreign t ({} : Shared T P) := ⟨initial_lawful, rfl⟩

/-- Whatever the tasks do and in whatever order: one allocation at most, one transfer at a time, always in
the buffer that was published and is never freed. -/
structure Exclusive (s : Shared T P) : Prop where
  alone : ∀ t u p q, s.transfers t = some p → s.transfers u = some q → t = u
  published : ∀ t p, s.transfers t = some p → s.buffer = some p
  live : ∀ p, s.buffer = some p → s.live p
  once : s.allocations ≤ 1

omit [DecidableEq T] [DecidableEq P] in
theorem Lawful.exclusive {s : Shared T P} (h : Lawful foreign s) : Exclusive s where
  alone t u p q mine other := by
    have held := (h.transfers t p mine).1
    rw [(h.transfers u q other).1] at held
    exact (Option.some.inj held).symm
  published t p there := (h.transfers t p there).2
  live p there := (h.live p there).1
  once := h.once

private theorem reach_lawful (reached : Reach (system foreign) {} c) : Lawful foreign c.shared :=
  reached.invariant system_respects initial_idle initial_lawful fun _ _ _ promised => promised.lawful

/-- Later steps keep the published buffer. -/
private theorem steps_buffer (reached : Reach (system foreign) {} c)
    (steps : Relation.ReflTransGen (Step (system foreign)) c c') :
    Reach (system foreign) {} c' ∧ ∀ p, c.shared.buffer = some p → c'.shared.buffer = some p := by
  induction steps with
  | refl => exact ⟨reached, fun _ => id⟩
  | tail _ next ih =>
    refine ⟨ih.1.step next, fun p there => ?_⟩
    rcases (next.sound system_respects (ih.1.sound system_respects initial_idle)).2 with same | ⟨t, promised⟩
    · rw [same]
      exact ih.2 p there
    · exact promised.buffer p (ih.2 p there)

theorem reservation_exclusive (reached : Reach (system foreign) {} c)
    (steps : Relation.ReflTransGen (Step (system foreign)) c c') :
    Exclusive c'.shared ∧ ∀ p, c.shared.buffer = some p → c'.shared.buffer = some p ∧ c'.shared.live p := by
  obtain ⟨later, kept⟩ := steps_buffer reached steps
  have lawful := reach_lawful later
  exact ⟨lawful.exclusive, fun p there => ⟨kept p there, (lawful.live p (kept p there)).1⟩⟩

theorem reach_call (reached : Reach (system foreign) {} c) (t : T) (k : Call P) (next : Answer k → DmaProg P Unit)
    (r : Answer k) (s : Shared T P) (at_ : c.task t = some (.call k next))
    (answer : respond foreign t k c.shared r s) :
    Reach (system foreign) {} (c.set t (some (next r)) s) :=
  reached.step (.call t k next r s at_ answer)

private theorem steps_start (_ : Reach (system foreign) {} c) (t : T) (p : DmaProg P Unit) (idle : c.task t = none)
    (entry : Entry foreign p) : Relation.ReflTransGen (Step (system foreign)) c (c.set t (some p) c.shared) :=
  .single (.start t p idle entry)

private theorem steps_call (steps : Relation.ReflTransGen (Step (system foreign)) c c') (t : T) (k : Call P)
    (next : Answer k → DmaProg P Unit) (r : Answer k) (s : Shared T P) (at_ : c'.task t = some (.call k next))
    (answer : respond foreign t k c'.shared r s) :
    Relation.ReflTransGen (Step (system foreign)) c (c'.set t (some (next r)) s) :=
  steps.tail (.call t k next r s at_ answer)

/-- One task prepares with block 7; then another one uses it, and the first is refused. -/
theorem reservation_exclusive_prepared : ∃ c c' : Config (Call Nat) Answer (Shared Bool Nat) Bool,
    Reach (system fun p => p = 3) {} c ∧ Relation.ReflTransGen (Step (system fun p => p = 3)) c c' ∧
      c.shared.buffer = some 7 ∧ c'.shared.transfers true = some 7 ∧ c'.shared.error = .busy ∧ Exclusive c'.shared ∧
      ∀ p, c.shared.buffer = some p → c'.shared.buffer = some p ∧ c'.shared.live p := by
  have reached := @Reach.start (Call Nat) Answer (Shared Bool Nat) Bool _ (system fun p => p = 3) {}
  have reached := reached.step (.start false _ rfl .prepare)
  have reached := reach_call reached false .exchangeAttempted _ false _ rfl ⟨rfl, rfl⟩
  have reached := reach_call reached false .loadFaulted _ false _ rfl ⟨rfl, rfl⟩
  have reached := reach_call reached false (.allocate alignment capacity) _ (some 7) _ rfl ⟨id, (by decide), rfl⟩
  have reached := reach_call reached false (.valid (some 7) capacity alignment) _ true _ rfl rfl
  have reached := reach_call reached false (.storeBuffer 7) _ () _ rfl rfl
  have reached := reach_call reached false (.storeError .none) _ () _ rfl rfl
  have reached := reach_call reached false .storeReady _ () _ rfl rfl
  have reached := reached.step (.stop false rfl)
  have steps := steps_start reached true _ rfl (.transfer 100 4)
  have steps := steps_call steps true .loadReady _ true _ rfl ⟨rfl, rfl⟩
  have steps := steps_call steps true .loadFaulted _ false _ rfl ⟨rfl, rfl⟩
  have steps := steps_call steps true .takeLease _ true _ rfl (.inl ⟨rfl, rfl, rfl⟩)
  have steps := steps_call steps true .loadFaulted _ false _ rfl ⟨rfl, rfl⟩
  have steps := steps_call steps true .loadBuffer _ (some 7) _ rfl ⟨rfl, rfl⟩
  have steps := steps_call steps true (.valid (some 7) capacity alignment) _ true _ rfl rfl
  have steps := steps_call steps true (.storeError .none) _ () _ rfl rfl
  have steps := steps_call steps true .loadBuffer _ (some 7) _ rfl ⟨rfl, rfl⟩
  have steps := steps_call steps true (.enter 7) _ () _ rfl rfl
  have steps := steps.tail (.start false _ rfl (.transfer 2112 64))
  have steps := steps_call steps false .loadReady _ true _ rfl ⟨rfl, rfl⟩
  have steps := steps_call steps false .loadFaulted _ false _ rfl ⟨rfl, rfl⟩
  have steps := steps_call steps false .takeLease _ false _ rfl (.inr ⟨rfl, rfl, rfl⟩)
  have steps := steps_call steps false (.storeError .busy) _ () _ rfl rfl
  exact ⟨_, _, reached, steps, rfl, rfl, rfl, reservation_exclusive reached steps⟩

end Runs

end Mosaico.NandDma
