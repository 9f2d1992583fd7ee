import Mosaico.Host.SystemLog

/-! Every interleaving of the producers with the worker keeps the log in order: at least once,
first in first out, whole groups. -/
namespace Mosaico.Host.SystemLog

open Interaction Interleaving Nand.StoreModel Nand.LogModel RingBuffer

/-- Every page is the batch that followed what had been acknowledged before it. -/
def InOrder (accepted : List Encoded) (journal : List Appended) : Prop :=
  ∀ before e after, journal = before ++ e :: after →
    e.records <+: accepted.drop (acknowledgedIn before).length

/-- What holds of the log between any two calls. -/
structure Kept (s : Log) : Prop where
  room : s.queue.ring.count ≤ capacity
  queued : s.queue.items = s.accepted.drop s.consumed
  covered : s.consumed ≤ (acknowledgedIn s.journal).length
  acknowledged : acknowledgedIn s.journal <+: s.accepted
  inOrder : InOrder s.accepted s.journal
  whole : ∀ part ∈ s.sections, part.pushed = [] ∨ part.pushed = part.offered
  inside : s.current <+: s.offered
  outside : s.lock = none → s.current = []

/-- What only the worker changes, and that the queue has only grown at its end. -/
structure Untouched (s s' : Log) : Prop where
  journal : s'.journal = s.journal
  pending : s'.pendingConsume = s.pendingConsume
  consumed : s'.consumed = s.consumed
  grown : s.queue.items <+: s'.queue.items

/-- What the lock protects. -/
structure Guarded (s s' : Log) : Prop where
  queue : s'.queue = s.queue
  current : s'.current = s.current
  offered : s'.offered = s.offered

structure Promise (t : Task) (s s' : Log) : Prop where
  kept : Kept s → Kept s'
  locked : ∀ u, u ≠ t → s.lock = some u → s'.lock = some u ∧ Guarded s s'
  unlocked : ∀ u, u ≠ t → s.lock ≠ some u → s'.lock ≠ some u
  worker : t ≠ .worker → Kept s → Untouched s s'

structure Relied (u : Task) (s s' : Log) : Prop where
  kept : Kept s → Kept s'
  locked : s.lock = some u → s'.lock = some u ∧ Guarded s s'
  unlocked : s.lock ≠ some u → s'.lock ≠ some u
  worker : u = .worker → Kept s → Untouched s s'

theorem Untouched.refl (s : Log) : Untouched s s := ⟨rfl, rfl, rfl, List.prefix_rfl⟩

theorem Untouched.trans {s₁ s₂ s₃ : Log} (h : Untouched s₁ s₂) (h' : Untouched s₂ s₃) :
    Untouched s₁ s₃ :=
  ⟨h'.journal.trans h.journal, h'.pending.trans h.pending, h'.consumed.trans h.consumed,
    h.grown.trans h'.grown⟩

theorem Guarded.trans {s₁ s₂ s₃ : Log} (h : Guarded s₁ s₂) (h' : Guarded s₂ s₃) :
    Guarded s₁ s₃ :=
  ⟨h'.queue.trans h.queue, h'.current.trans h.current, h'.offered.trans h.offered⟩

theorem Relied.trans {u : Task} {s₁ s₂ s₃ : Log} (h : Relied u s₁ s₂) (h' : Relied u s₂ s₃) :
    Relied u s₁ s₃ where
  kept := fun k => h'.kept (h.kept k)
  locked := by
    intro held
    have first := h.locked held
    have second := h'.locked first.1
    exact ⟨second.1, first.2.trans second.2⟩
  unlocked := fun free => h'.unlocked (h.unlocked free)
  worker := fun mine k => (h.worker mine k).trans (h'.worker mine (h.kept k))

/-- Every append that was acknowledged is removed or waits to be. -/
def Settled (s : Log) : Prop :=
  (acknowledgedIn s.journal).length = s.consumed + s.pendingConsume

/-- The state outside the lock; `W` is what the worker knows of its own part. -/
structure Outside (t : Task) (W : Log → Prop) (s : Log) : Prop where
  kept : Kept s
  free : s.lock ≠ some t
  work : t = .worker → W s

def contract : Contract Task Log where
  guar := Promise
  rely := Relied
  idle t := Outside t Settled
  rely_refl := fun _ s => ⟨id, fun h => ⟨h, rfl, rfl, rfl⟩, id, fun _ _ => Untouched.refl s⟩
  rely_trans := fun h h' => h.trans h'
  others := fun {_ u _ _} apart h =>
    ⟨h.kept, h.locked u apart, h.unlocked u apart, fun mine => h.worker (mine ▸ apart.symm)⟩

/-- The state inside the lock: what was offered, what is pushed, how long the queue is. -/
structure Inside (t : Task) (W : Log → Prop) (offer done : List Encoded) (n : Nat) (s : Log) :
    Prop where
  kept : Kept s
  held : s.lock = some t
  offered : s.offered = offer
  current : s.current = done
  length : s.queue.ring.count = n
  work : t = .worker → W s

/-- The worker's own part, which the others leave alone. -/
def Own (W : Log → Prop) : Prop := ∀ s s', W s → Untouched s s' → W s'

section Assertions

variable {t : Task} {W : Log → Prop} {offer done : List Encoded} {n : Nat} {s s' : Log}

theorem Outside.stable (own : Own W) : Stable contract t (Outside t W) := by
  intro s s' h same
  exact ⟨same.kept h.kept, same.unlocked h.free,
    fun mine => own s s' (h.work mine) (same.worker mine h.kept)⟩

theorem Inside.stable (own : Own W) : Stable contract t (Inside t W offer done n) := by
  intro s s' h same
  have guarded := (same.locked h.held).2
  exact ⟨same.kept h.kept, (same.locked h.held).1, guarded.offered.trans h.offered,
    guarded.current.trans h.current, by rw [guarded.queue, h.length],
    fun mine => own s s' (h.work mine) (same.worker mine h.kept)⟩

theorem settled_own : Own Settled := by
  intro s s' h same
  rw [Settled, same.journal, same.consumed, same.pending]
  exact h

theorem Promise.refl (t : Task) (s : Log) : Promise t s s :=
  ⟨id, fun _ _ h => ⟨h, rfl, rfl, rfl⟩, fun _ _ h => h, fun _ _ => Untouched.refl s⟩

/-- A step that nobody else can see. -/
theorem Promise.drop (t : Task) (s : Log) : Promise t s { s with drops := s.drops + 1 } :=
  ⟨fun k => { k with room := k.room }, fun _ _ h => ⟨h, rfl, rfl, rfl⟩, fun _ _ h => h,
    fun _ _ => ⟨rfl, rfl, rfl, List.prefix_rfl⟩⟩

theorem acknowledgedIn_append (before after : List Appended) :
    acknowledgedIn (before ++ after) = acknowledgedIn before ++ acknowledgedIn after := by
  simp [acknowledgedIn]

theorem InOrder.append {accepted : List Encoded} {journal : List Appended} (xs : List Encoded)
    (h : InOrder accepted journal) (acknowledged : acknowledgedIn journal <+: accepted) :
    InOrder (accepted ++ xs) journal := by
  intro before e after split
  have reach : (acknowledgedIn before).length ≤ accepted.length := by
    have whole := acknowledged.length_le
    rw [split, acknowledgedIn_append, List.length_append] at whole
    omega
  rw [List.drop_append_of_le_length reach]
  exact (h before e after split).trans (List.prefix_append ..)

theorem Outside.take (h : Outside t W s) (own : Own W) (free : s.lock = none)
    (offer : List Encoded) :
    Promise t s { s with lock := some t, offered := offer, current := [] } ∧
      Inside t W offer [] s.queue.ring.count
        { s with lock := some t, offered := offer, current := [] } := by
  have empty := h.kept.outside free
  have same : (Log.accepted { s with lock := some t, offered := offer, current := [] }) =
      s.accepted := by
    simp only [Log.accepted, empty]
  have kept : Kept { s with lock := some t, offered := offer, current := [] } :=
    { h.kept with
      queued := by rw [same]; exact h.kept.queued
      acknowledged := by rw [same]; exact h.kept.acknowledged
      inOrder := by rw [same]; exact h.kept.inOrder
      inside := List.nil_prefix
      outside := nofun }
  have untouched : Untouched s { s with lock := some t, offered := offer, current := [] } :=
    ⟨rfl, rfl, rfl, List.prefix_rfl⟩
  refine ⟨⟨fun _ => kept, ?_, ?_, fun _ _ => untouched⟩,
    ⟨kept, rfl, rfl, rfl, rfl, fun mine => own _ _ (h.work mine) untouched⟩⟩
  · intro u _ held
    rw [free] at held
    cases held
  · intro u apart _ mine
    exact apart (Option.some.inj mine).symm

/-- The section is closed: nothing of what it offered was pushed, or all of it. -/
theorem Inside.leave (h : Inside t W offer done n s) (own : Own W)
    (whole : done = [] ∨ done = offer) :
    Promise t s { s with
      lock := none, offered := [], current := []
      sections := s.sections ++ [⟨s.offered, s.current⟩] } ∧
    Outside t W { s with
      lock := none, offered := [], current := []
      sections := s.sections ++ [⟨s.offered, s.current⟩] } := by
  have same : (Log.accepted { s with
      lock := none, offered := [], current := []
      sections := s.sections ++ [⟨s.offered, s.current⟩] }) = s.accepted := by
    simp [Log.accepted]
  have kept : Kept { s with
      lock := none, offered := [], current := []
      sections := s.sections ++ [⟨s.offered, s.current⟩] } :=
    { h.kept with
      queued := by rw [same]; exact h.kept.queued
      acknowledged := by rw [same]; exact h.kept.acknowledged
      inOrder := by rw [same]; exact h.kept.inOrder
      whole := by
        intro part hpart
        cases List.mem_append.mp hpart with
        | inl old => exact h.kept.whole part old
        | inr new =>
          rw [List.mem_singleton.mp new, h.offered, h.current]
          exact whole
      inside := List.nil_prefix
      outside := fun _ => rfl }
  refine ⟨⟨fun _ => kept, ?_, ?_, fun _ _ => ⟨rfl, rfl, rfl, List.prefix_rfl⟩⟩,
    ⟨kept, nofun, fun mine => own _ _ (h.work mine) ⟨rfl, rfl, rfl, List.prefix_rfl⟩⟩⟩
  · intro u apart held
    exact absurd (Option.some.inj (held.symm.trans h.held)) apart
  · exact fun u _ _ => nofun

/-- More of the offer is pushed, inside the lock. -/
theorem Inside.extend (h : Inside t W offer done n s) (own : Own W) (q : Queue)
    (xs : List Encoded) (items : q.items = s.queue.items ++ xs) (room : q.ring.count ≤ capacity)
    (more : done ++ xs <+: offer) :
    Promise t s { s with queue := q, current := s.current ++ xs } ∧
      Inside t W offer (done ++ xs) (n + xs.length)
        { s with queue := q, current := s.current ++ xs } := by
  have longer : (Log.accepted { s with queue := q, current := s.current ++ xs }) =
      s.accepted ++ xs := by
    simp [Log.accepted]
  have reach : s.consumed ≤ s.accepted.length :=
    h.kept.covered.trans h.kept.acknowledged.length_le
  have kept : Kept { s with queue := q, current := s.current ++ xs } :=
    { h.kept with
      room := room
      queued := by
        rw [longer, List.drop_append_of_le_length reach, ← h.kept.queued]
        exact items
      acknowledged := by
        rw [longer]
        exact h.kept.acknowledged.trans (List.prefix_append ..)
      inOrder := by
        rw [longer]
        exact h.kept.inOrder.append xs h.kept.acknowledged
      inside := by
        rw [h.offered, h.current]
        exact more
      outside := by
        intro free
        rw [h.held] at free
        cases free }
  have untouched : Untouched s { s with queue := q, current := s.current ++ xs } :=
    ⟨rfl, rfl, rfl, by rw [items]; exact List.prefix_append ..⟩
  have count : q.ring.count = n + xs.length := by
    rw [← Queue.items_length, items, List.length_append, Queue.items_length, h.length]
  refine ⟨⟨fun _ => kept, ?_, fun _ _ notHeld => notHeld, fun _ _ => untouched⟩,
    ⟨kept, h.held, h.offered, by rw [h.current], count,
      fun mine => own _ _ (h.work mine) untouched⟩⟩
  intro u apart held
  exact absurd (Option.some.inj (held.symm.trans h.held)) apart

/-- A push that finds the queue full leaves what is queued. -/
theorem Inside.refused (h : Inside t W offer done n s) (own : Own W) {q : Queue}
    (items : q.items = s.queue.items) :
    Promise t s { s with queue := q } ∧ Inside t W offer done n { s with queue := q } := by
  have room : q.ring.count ≤ capacity := by
    rw [← Queue.items_length, items, Queue.items_length]
    exact h.kept.room
  have inside : done ++ [] <+: offer := by
    rw [List.append_nil, ← h.offered, ← h.current]
    exact h.kept.inside
  simpa using h.extend own q [] (by rw [items, List.append_nil]) room inside

end Assertions

section Calls

variable {t : Task} {W : Log → Prop} {offer done : List Encoded} {n : Nat} {s s' : Log} {α : Type}

abbrev Safe (t : Task) (p : LogProg α) (post : α → Log → Prop) (s : Log) : Prop :=
  Secure contract (respond t) t p post s

theorem stable_and {P Q : Log → Prop} (hp : Stable contract t P) (hq : Stable contract t Q) :
    Stable contract t fun s => P s ∧ Q s :=
  fun s s' h same => ⟨hp s s' h.1 same, hq s s' h.2 same⟩

theorem stable_imp {P : Log → Prop} (a : Prop) (hp : Stable contract t P) :
    Stable contract t fun s => a → P s :=
  fun s s' h same ha => hp s s' (h ha) same

theorem stable_exists {β : Type} {P : β → Log → Prop} (hp : ∀ b, Stable contract t (P b)) :
    Stable contract t fun s => ∃ b, P b s := by
  rintro s s' ⟨b, h⟩ same
  exact ⟨b, hp b s s' h same⟩

/-- A call that only looks. -/
theorem look_safe {c : Call} {P : Log → Prop} (stable : Stable contract t P) (h : P s)
    (looks : ∀ s r s', respond t c s r s' → s' = s) :
    Safe t (Prog.perform c) (fun _ => P) s := by
  apply secure_perform stable (fun _ => stable) h
  intro s h r s' step
  rw [looks s r s' step]
  exact ⟨Promise.refl t s, h⟩

theorem ask_safe (own : Own W) (h : Outside t W s) (g : Gate) :
    Safe t (ask g) (fun _ => Outside t W) s :=
  look_safe (Outside.stable own) h fun _ _ _ step => step

theorem drop_safe {P : Log → Prop} (stable : Stable contract t P) (h : P s)
    (blind : ∀ s, P s → P { s with drops := s.drops + 1 }) : Safe t drop (fun _ => P) s := by
  apply secure_perform stable (fun _ => stable) h
  intro s h r s' step
  rw [show s' = _ from step]
  exact ⟨Promise.drop t s, blind s h⟩

theorem Outside.dropped (own : Own W) (h : Outside t W s) :
    Outside t W { s with drops := s.drops + 1 } :=
  ⟨(Promise.drop t s).kept h.kept, h.free,
    fun mine => own _ _ (h.work mine) ⟨rfl, rfl, rfl, List.prefix_rfl⟩⟩

theorem Inside.dropped (own : Own W) (h : Inside t W offer done n s) :
    Inside t W offer done n { s with drops := s.drops + 1 } :=
  ⟨(Promise.drop t s).kept h.kept, h.held, h.offered, h.current, h.length,
    fun mine => own _ _ (h.work mine) ⟨rfl, rfl, rfl, List.prefix_rfl⟩⟩

/-- The lock is only tried: it was taken, or the section begins. -/
theorem testAndSet_safe (own : Own W) (h : Outside t W s) (offer : List Encoded) :
    Safe t (testAndSet offer)
      (fun taken s => (taken = true → Outside t W s) ∧
        (taken = false → ∃ n, Inside t W offer [] n s)) s := by
  apply secure_perform (Outside.stable own) _ h
  · intro s h taken s' step
    obtain ⟨htaken, hs'⟩ := step
    cases free : s.lock with
    | none =>
      have entered := h.take own free offer
      simp only [free, Option.isSome_none, Bool.false_eq_true, if_false] at htaken hs'
      rw [htaken, hs']
      exact ⟨entered.1, nofun, fun _ => ⟨_, entered.2⟩⟩
    | some u =>
      simp only [free, Option.isSome_some, if_true] at htaken hs'
      rw [htaken, hs']
      exact ⟨Promise.refl t s, fun _ => h, nofun⟩
  · intro taken
    apply stable_and (stable_imp _ (Outside.stable own))
    exact stable_imp _ (stable_exists fun n => Inside.stable own)

theorem clear_safe (own : Own W) (h : Inside t W offer done n s)
    (whole : done = [] ∨ done = offer) : Safe t clear (fun _ => Outside t W) s := by
  apply secure_perform (Inside.stable own) (fun _ => Outside.stable own) h
  intro s h r s' step
  rw [show s' = _ from step]
  exact h.leave own whole

theorem count_safe (own : Own W) (h : Inside t W offer done n s) :
    Safe t count (fun m s => m = n ∧ Inside t W offer done n s) s := by
  apply secure_perform (Inside.stable own) _ h
  · intro s h m s' step
    rw [step.1, step.2]
    exact ⟨Promise.refl t s, h.length, h⟩
  · intro m s s' h same
    exact ⟨h.1, Inside.stable own s s' h.2 same⟩

/-- A push succeeds unless the queue is full. -/
theorem push_safe (own : Own W) (h : Inside t W offer done n s) (r : Record)
    (more : done ++ [encode r] <+: offer) :
    Safe t (push r)
      (fun ok s => (ok = true → Inside t W offer (done ++ [encode r]) (n + 1) s) ∧
        (ok = false → n = capacity ∧ Inside t W offer done n s)) s := by
  apply secure_perform (Inside.stable own) _ h
  · intro s h ok s' step
    by_cases full : s.queue.ring.count = capacity
    · have pushed := Queue.push_full r full
      rw [step.2, step.1, pushed.1]
      have same := h.refused own pushed.2
      exact ⟨same.1, fun bad => absurd bad Bool.false_ne_true, fun _ => ⟨by rw [← h.length, full], same.2⟩⟩
    · have room : s.queue.ring.count < capacity := Nat.lt_of_le_of_ne h.kept.room full
      have pushed := Queue.push_items r room
      rw [step.2, step.1, pushed.1]
      have longer := h.extend own (s.queue.push r).2 [encode r] pushed.2
        (by rw [Queue.push, if_neg full]; exact room) more
      exact ⟨longer.1, fun _ => longer.2, fun bad => absurd bad.symm Bool.false_ne_true⟩
  · intro ok
    apply stable_and (stable_imp _ (Inside.stable own))
    apply stable_imp
    intro s s' h same
    exact ⟨h.1, Inside.stable own s s' h.2 same⟩

theorem pushGroup_safe (own : Own W) (h : Inside t W offer [] n s) (group : List Record) (m : Nat)
    (all : (group.take m).map encode = offer) :
    Safe t (pushGroup group m)
      (fun ok s => (ok = true → ∃ k, Inside t W offer offer k s) ∧
        (ok = false → Inside t W offer [] n s)) s := by
  apply secure_perform (Inside.stable own) _ h
  · intro s h ok s' step
    cases s.queue.pushGroup_items group m with
    | inl refused =>
      have same := h.refused own refused.2
      rw [step.2, step.1, refused.1]
      exact ⟨same.1, nofun, fun _ => same.2⟩
    | inr pushed =>
      rw [all] at pushed
      have room : (s.queue.pushGroup group m).2.ring.count ≤ capacity := by
        rw [← Queue.items_length, pushed.2.2, List.length_append, Queue.items_length, ← all,
          List.length_map]
        exact pushed.2.1
      have longer := h.extend own _ offer pushed.2.2 room (by simp)
      rw [step.2, step.1, pushed.1, all]
      exact ⟨longer.1, fun _ => ⟨_, longer.2⟩, nofun⟩
  · intro ok
    apply stable_and (stable_imp _ (stable_exists fun k => Inside.stable own))
    exact stable_imp _ (Inside.stable own)

end Calls

section Producers

variable {t : Task} {W : Log → Prop} {offer done : List Encoded} {n : Nat} {s : Log}

abbrev Leaves (t : Task) (W : Log → Prop) (p : LogProg Bool) (s : Log) : Prop :=
  Safe t p (fun _ => Outside t W) s

theorem answer_safe (own : Own W) (h : Outside t W s) (b : Bool) : Leaves t W (pure b) s :=
  secure_pure (Outside.stable own) h

theorem dropped_safe (own : Own W) (h : Outside t W s) : Leaves t W dropped s := by
  apply secure_bind (drop_safe (Outside.stable own) h fun _ h => h.dropped own)
  intro _ s h
  exact answer_safe own h false

theorem cleared_safe (own : Own W) (h : Inside t W offer done n s)
    (whole : done = [] ∨ done = offer) (b : Bool) :
    Leaves t W (do clear; return b) s := by
  apply secure_bind (clear_safe own h whole)
  intro _ s h
  exact answer_safe own h b

theorem pushed_safe (own : Own W) (r : Record) (h : Inside t W [encode r] [] n s) :
    Leaves t W (pushed r) s := by
  apply secure_bind (push_safe own h r List.prefix_rfl)
  intro ok s h
  cases ok with
  | true => exact cleared_safe own (h.1 rfl) (.inr rfl) true
  | false =>
    have inside := (h.2 rfl).2
    apply secure_bind (drop_safe (Inside.stable own) inside fun _ h => h.dropped own)
    intro _ s h
    exact cleared_safe own h (.inl rfl) false

theorem enqueue_safe (own : Own W) (h : Outside t W s) (r : Record) :
    Leaves t W (enqueue r) s := by
  apply secure_bind (ask_safe own h .storage)
  intro ok s h
  cases ok with
  | false => exact dropped_safe own h
  | true =>
    apply secure_bind (testAndSet_safe own h [encode r])
    intro taken s h
    cases taken with
    | true => exact dropped_safe own (h.1 rfl)
    | false =>
      obtain ⟨n, inside⟩ := h.2 rfl
      exact pushed_safe own r inside

/-- With two free places neither push fails. -/
theorem pushPair_safe (own : Own W) (context r : Record)
    (h : Inside t W [encode context, encode r] [] n s) (room : n ≤ capacity - 2) :
    Safe t (pushPair context r)
      (fun _ s => ∃ k, Inside t W [encode context, encode r] [encode context, encode r] k s) s := by
  apply secure_bind (push_safe own h context ⟨[encode r], rfl⟩)
  intro ok s h
  cases ok with
  | false =>
    have full := (h.2 rfl).1
    simp only [capacity] at full room
    omega
  | true =>
    apply Secure.mono (push_safe own (h.1 rfl) r List.prefix_rfl)
    intro ok s h
    cases ok with
    | true => exact ⟨_, h.1 rfl⟩
    | false =>
      have full := (h.2 rfl).1
      simp only [capacity] at full room
      omega

theorem pushedBoth_safe (own : Own W) (context r : Record)
    (h : Inside t W [encode context, encode r] [] n s) : Leaves t W (pushedBoth context r) s := by
  apply secure_bind (count_safe own h)
  rintro m s ⟨rfl, h⟩
  split
  · apply secure_bind (drop_safe (Inside.stable own) h fun _ h => h.dropped own)
    intro _ s h
    exact cleared_safe own h (.inl rfl) false
  · rename_i room
    apply secure_bind (pushPair_safe own context r h (by omega))
    rintro ok s ⟨k, h⟩
    exact cleared_safe own h (.inr rfl) ok

theorem enqueueWithUnits_safe (own : Own W) (h : Outside t W s) (units : Tag)
    (clock : Option UInt64) (r : Record) : Leaves t W (enqueueWithUnits units clock r) s := by
  apply secure_bind (ask_safe own h .storage)
  intro ok s h
  cases ok with
  | false => exact dropped_safe own h
  | true =>
    apply secure_bind (testAndSet_safe own h _)
    intro taken s h
    cases taken with
    | true => exact dropped_safe own (h.1 rfl)
    | false =>
      obtain ⟨n, inside⟩ := h.2 rfl
      exact pushedBoth_safe own _ r inside

theorem enqueueDerpGroup_safe (own : Own W) (h : Outside t W s) (group : List Record) (m : Nat) :
    Leaves t W (enqueueDerpGroup group m) s := by
  apply secure_bind (ask_safe own h .storage)
  intro ok s h
  cases ok with
  | false => exact answer_safe own h false
  | true =>
    simp only [Bool.not_true, Bool.false_eq_true, if_false]
    split
    · exact answer_safe own h false
    · apply secure_bind (testAndSet_safe own h _)
      intro taken s h
      cases taken with
      | true => exact answer_safe own (h.1 rfl) false
      | false =>
        obtain ⟨n, inside⟩ := h.2 rfl
        apply secure_bind (pushGroup_safe own inside group m rfl)
        intro ok s h
        cases ok with
        | false => exact cleared_safe own (h.2 rfl) (.inl rfl) false
        | true =>
          obtain ⟨k, inside⟩ := h.1 rfl
          exact cleared_safe own inside (.inr rfl) true

end Producers

section Worker

variable {W W' : Log → Prop} {n : Nat} {s : Log}

/-- What the worker knows on its way: what is acknowledged and not removed, and what it noted. -/
def Owes (k m : Nat) (s : Log) : Prop :=
  (acknowledgedIn s.journal).length = s.consumed + k ∧ s.pendingConsume = m

theorem owes_own (k m : Nat) : Own (Owes k m) := by
  intro s s' h same
  rw [Owes, same.journal, same.consumed, same.pending]
  exact h

/-- The batch that was copied still heads the queue. -/
def Copied (batch : List Encoded) (s : Log) : Prop := Owes 0 0 s ∧ batch <+: s.queue.items

theorem copied_own (batch : List Encoded) : Own (Copied batch) :=
  fun s s' h same => ⟨owes_own 0 0 s s' h.1 same, h.2.trans same.grown⟩

theorem Outside.weaken {t : Task} (h : Outside t W s) (weaker : W s → W' s) : Outside t W' s :=
  ⟨h.kept, h.free, fun mine => weaker (h.work mine)⟩

theorem settled_iff (s : Log) : Settled s ↔ Owes s.pendingConsume s.pendingConsume s :=
  ⟨fun h => ⟨h, rfl⟩, fun h => h.1⟩

theorem pendingConsume_safe (h : Outside .worker Settled s) :
    Safe .worker pendingConsume (fun m => Outside .worker (Owes m m)) s := by
  apply secure_perform (Outside.stable settled_own) _ h
  · intro s h m s' step
    rw [step.1, step.2]
    exact ⟨Promise.refl _ s, h.weaken (settled_iff s).mp⟩
  · exact fun m => Outside.stable (owes_own m m)

/-- Steps of the worker on its own variables. -/
theorem setPending_promise (s : Log) (m : Nat) :
    Promise .worker s { s with pendingConsume := m } :=
  ⟨fun k => { k with room := k.room }, fun _ _ h => ⟨h, rfl, rfl, rfl⟩, fun _ _ h => h,
    fun other => absurd rfl other⟩

theorem setPending_inside {k m : Nat} {offer done : List Encoded}
    (h : Inside .worker (Owes k m) offer done n s) (j : Nat) :
    Safe .worker (setPending j) (fun _ => Inside .worker (Owes k j) offer done n) s := by
  apply secure_perform (Inside.stable (owes_own k m)) (fun _ => Inside.stable (owes_own k j)) h
  intro s h r s' step
  rw [show s' = _ from step]
  have promise := setPending_promise s j
  exact ⟨promise, promise.kept h.kept, h.held, h.offered, h.current, h.length,
    fun mine => ⟨(h.work mine).1, rfl⟩⟩

theorem setPending_outside {k m : Nat} (h : Outside .worker (Owes k m) s) (j : Nat) :
    Safe .worker (setPending j) (fun _ => Outside .worker (Owes k j)) s := by
  apply secure_perform (Outside.stable (owes_own k m)) (fun _ => Outside.stable (owes_own k j)) h
  intro s h r s' step
  rw [show s' = _ from step]
  have promise := setPending_promise s j
  exact ⟨promise, promise.kept h.kept, h.free, fun mine => ⟨(h.work mine).1, rfl⟩⟩

/-- Only what was acknowledged is removed. -/
theorem consume_safe {k m : Nat} (h : Inside .worker (Owes k m) [] [] n s) :
    Safe .worker (consume k) (fun _ s => ∃ j, Inside .worker (Owes 0 m) [] [] j s) s := by
  apply secure_perform (Inside.stable (owes_own k m))
    (fun _ => stable_exists fun j => Inside.stable (owes_own 0 m)) h
  intro s h ok s' step
  have owes := h.work rfl
  have reach := h.kept.acknowledged.length_le
  have enough : k ≤ s.queue.ring.count := by
    rw [← Queue.items_length, h.kept.queued, List.length_drop]
    have := owes.1
    omega
  have consumed := Queue.consume_items enough
  have kept : Kept { s with queue := (s.queue.consume k).2, consumed := s.consumed + k } :=
    { h.kept with
      room := by
        rw [← Queue.items_length, consumed.2, List.length_drop, Queue.items_length]
        exact (Nat.sub_le ..).trans h.kept.room
      queued := by
        rw [consumed.2, h.kept.queued, List.drop_drop]
        rfl
      covered := Nat.le_of_eq owes.1.symm }
  rw [step.2, step.1, consumed.1]
  refine ⟨⟨fun _ => kept, ?_, fun _ _ free => free, fun other => absurd rfl other⟩,
    ⟨_, kept, h.held, h.offered, h.current, rfl, fun _ => ⟨owes.1, owes.2⟩⟩⟩
  intro u apart held
  exact absurd (Option.some.inj (held.symm.trans h.held)) apart

theorem consumeLocked_safe {k : Nat} (h : Inside .worker (Owes k k) [] [] n s) :
    Safe .worker (consumeLocked k) (fun _ => Outside .worker (Owes 0 0)) s := by
  apply secure_bind (consume_safe h)
  rintro _ s ⟨j, h⟩
  apply secure_bind (setPending_inside h 0)
  intro _ s h
  exact cleared_safe (owes_own 0 0) h (.inl rfl) true

theorem owes_settled {k : Nat} (h : Outside .worker (Owes k k) s) : Outside .worker Settled s :=
  h.weaken fun w => by rw [Settled, w.1, w.2]

/-- Either nothing is owed any more, or the lock was missed. -/
theorem consumeDurable_safe (h : Outside .worker Settled s) :
    Safe .worker consumeDurable
      (fun ok s => Outside .worker Settled s ∧ (ok = true → Outside .worker (Owes 0 0) s)) s := by
  have ends (ok : Bool) : Stable contract .worker fun s =>
      Outside .worker Settled s ∧ (ok = true → Outside .worker (Owes 0 0) s) :=
    stable_and (Outside.stable settled_own) (stable_imp _ (Outside.stable (owes_own 0 0)))
  apply secure_bind (pendingConsume_safe h)
  intro m s h
  split
  · rename_i none_
    rw [none_] at h
    exact secure_pure (ends true) ⟨owes_settled h, fun _ => h⟩
  · apply secure_bind (testAndSet_safe (owes_own m m) h [])
    intro taken s h
    cases taken with
    | true => exact secure_pure (ends false) ⟨owes_settled (h.1 rfl), nofun⟩
    | false =>
      obtain ⟨n, inside⟩ := h.2 rfl
      apply Secure.mono (consumeLocked_safe inside)
      exact fun _ s h => ⟨owes_settled h, fun _ => h⟩

theorem copy_safe (h : Inside .worker (Owes 0 0) [] [] n s) (maximum : Nat) :
    Safe .worker (copy maximum)
      (fun batch s => batch.length ≤ maximum ∧ Inside .worker (Copied batch) [] [] n s) s := by
  apply secure_perform (Inside.stable (owes_own 0 0)) _ h
  · intro s h batch s' step
    rw [step.1, step.2, peek_eq]
    refine ⟨Promise.refl _ s, List.length_take_le .., h.kept, h.held, h.offered, h.current, h.length,
      fun mine => ⟨h.work mine, List.take_prefix ..⟩⟩
  · intro batch s s' h same
    exact ⟨h.1, Inside.stable (copied_own batch) s s' h.2 same⟩

theorem acknowledgedIn_snoc (journal : List Appended) (page : Page) (ok : Bool) :
    acknowledgedIn (journal ++ [⟨page, ok⟩]) =
      acknowledgedIn journal ++ if ok then recordsOf page else [] := by
  cases ok <;> simp [acknowledgedIn, Appended.records]

theorem InOrder.snoc {accepted : List Encoded} {journal : List Appended} (h : InOrder accepted journal)
    (last : Appended) (next : last.records <+: accepted.drop (acknowledgedIn journal).length) :
    InOrder accepted (journal ++ [last]) := by
  intro before e after split
  cases List.eq_nil_or_concat after with
  | inl nothing =>
    rw [nothing] at split
    have ends := List.append_inj' split rfl
    rw [← List.singleton_inj.mp ends.2, ← ends.1]
    exact next
  | inr more =>
    obtain ⟨rest, x, hrest⟩ := more
    rw [hrest, List.concat_eq_append, ← List.cons_append, ← List.append_assoc] at split
    exact h before e rest (List.append_inj' split rfl).1

private theorem prefix_extend {xs ys zs : List Encoded} (h : xs <+: zs) (next : ys <+: zs.drop xs.length) :
    xs ++ ys <+: zs := by
  obtain ⟨rest, hrest⟩ := h
  rw [← hrest, List.drop_left] at next
  rw [← hrest]
  exact (List.prefix_append_right_inj xs).mpr next

/-- The page is the next batch of the queue, whatever becomes of it. -/
theorem logAppend_safe {batch : List Encoded} (bootId : UInt32) (room : batch.length ≤ recordsPerPage)
    (h : Outside .worker (Copied batch) s) :
    Safe .worker (logAppend (compose bootId batch))
      (fun ok => Outside .worker (Owes (if ok then batch.length else 0) 0)) s := by
  apply secure_perform (Outside.stable (copied_own batch))
    (fun ok => Outside.stable (owes_own _ 0)) h
  intro s h ok s' step
  have copied := h.work rfl
  have read := recordsOf_compose bootId batch room
  cases step with
  | inr refused =>
    rw [refused.1, refused.2]
    exact ⟨Promise.refl _ s, h.weaken fun w => w.1⟩
  | inl durable =>
    have balance : (acknowledgedIn s.journal).length = s.consumed := copied.1.1
    have next : batch <+: s.accepted.drop (acknowledgedIn s.journal).length := by
      rw [balance, ← h.kept.queued]
      exact copied.2
    have more := acknowledgedIn_snoc s.journal (compose bootId batch) ok
    rw [read] at more
    have kept : Kept { s with journal := s.journal ++ [⟨compose bootId batch, ok⟩] } :=
      { h.kept with
        covered := by
          rw [more, List.length_append]
          exact Nat.le_add_right_of_le h.kept.covered
        acknowledged := by
          rw [more]
          apply prefix_extend h.kept.acknowledged
          cases ok with
          | false => exact List.nil_prefix
          | true => exact next
        inOrder := h.kept.inOrder.snoc _ (by rw [Appended.records, read]; exact next) }
    rw [durable]
    refine ⟨⟨fun _ => kept, fun u _ held => ⟨held, rfl, rfl, rfl⟩, fun _ _ free => free,
      fun other => absurd rfl other⟩, kept, h.free, fun _ => ⟨?_, copied.1.2⟩⟩
    rw [more, List.length_append, balance]
    cases ok <;> rfl

theorem flushBatch_safe (bootId : UInt32) {batch : List Encoded}
    (room : batch.length ≤ recordsPerPage) (h : Outside .worker (Copied batch) s) :
    Safe .worker (flushBatch bootId batch) (fun _ => Outside .worker Settled) s := by
  have settled {s : Log} (h : Outside .worker (Copied batch) s) : Outside .worker Settled s :=
    owes_settled (h.weaken fun w => w.1)
  have rests {s : Log} (h : Outside .worker Settled s) :
      Safe .worker (pure ()) (fun _ => Outside .worker Settled) s :=
    secure_pure (Outside.stable settled_own) h
  unfold flushBatch
  split
  · exact rests (settled h)
  · apply secure_bind (ask_safe (copied_own batch) h .admitted)
    intro ok s h
    cases ok with
    | false => exact rests (settled h)
    | true =>
      apply secure_bind (logAppend_safe bootId room h)
      intro ok s h
      cases ok with
      | false => exact rests (owes_settled h)
      | true =>
        apply secure_bind (setPending_outside h batch.length)
        intro _ s h
        apply secure_bind (consumeDurable_safe (owes_settled h))
        intro _ s h
        exact rests h.1

theorem flush_safe (bootId : UInt32) (h : Outside .worker Settled s) :
    Safe .worker (flush bootId) (fun _ => Outside .worker Settled) s := by
  have rests {s : Log} (h : Outside .worker (Owes 0 0) s) :
      Safe .worker (pure ()) (fun _ => Outside .worker Settled) s :=
    secure_pure (Outside.stable settled_own) (owes_settled h)
  apply secure_bind (consumeDurable_safe h)
  intro ok s h
  cases ok with
  | false => exact secure_pure (Outside.stable settled_own) h.1
  | true =>
    apply secure_bind (ask_safe (owes_own 0 0) (h.2 rfl) .due)
    intro ok s h
    cases ok with
    | false => exact rests h
    | true =>
      apply secure_bind (ask_safe (owes_own 0 0) h .loaded)
      intro ok s h
      cases ok with
      | false => exact rests h
      | true =>
        apply secure_bind (testAndSet_safe (owes_own 0 0) h [])
        intro taken s h
        cases taken with
        | true => exact rests (h.1 rfl)
        | false =>
          obtain ⟨n, inside⟩ := h.2 rfl
          apply secure_bind (copy_safe inside recordsPerPage)
          intro batch s h
          apply secure_bind (clear_safe (copied_own batch) h.2 (.inl rfl))
          intro _ s outside
          exact flushBatch_safe bootId h.1 outside

end Worker

section Runs

variable {bootId : UInt32} {c : Config Call Answer Log Task}

theorem ended_safe {t : Task} {α : Type} {p : LogProg α} {s : Log}
    (h : Safe t p (fun _ => Outside t Settled) s) :
    Safe t (do let _ ← p) (fun _ => Outside t Settled) s :=
  secure_bind h fun _ _ h => secure_pure (Outside.stable settled_own) h

theorem respects : Respects (system bootId) contract where
  stable := fun t => Outside.stable settled_own
  entry := by
    intro t p s entry h
    cases entry with
    | enqueue _ r => exact ended_safe (enqueue_safe settled_own h r)
    | enqueueWithUnits _ units clock r =>
      exact ended_safe (enqueueWithUnits_safe settled_own h units clock r)
    | enqueueDerpGroup _ group n => exact ended_safe (enqueueDerpGroup_safe settled_own h group n)
    | consumeDurable =>
      apply ended_safe
      exact Secure.mono (consumeDurable_safe h) fun _ _ h => h.1
    | flush => exact flush_safe bootId h

/-- The page after `before` holds the accepted record of this number. -/
def Holds (before : List Appended) (e : Appended) (i : Nat) : Prop :=
  (acknowledgedIn before).length ≤ i ∧ i < (acknowledgedIn before).length + e.records.length

/-- At least once, first in first out, whole groups. -/
structure Delivered (s : Log) : Prop where
  remaining : ∃ removed, s.accepted = removed ++ s.queue.items ∧
    removed <+: acknowledgedIn s.journal
  acknowledged : acknowledgedIn s.journal <+: s.accepted
  inOrder : InOrder s.accepted s.journal
  groups : ∀ part ∈ s.sections, part.pushed = [] ∨ part.pushed = part.offered
  pushing : s.current <+: s.offered ∧ (s.lock = none → s.current = [])
  twice : ∀ before e between e' after i, s.journal = before ++ e :: between ++ e' :: after →
    Holds before e i → Holds (before ++ e :: between) e' i → e.acknowledged = false

end Runs

/-! ## Calls that nobody interrupts -/

/-- A log at rest: what was accepted, what waits, and what its pages hold. -/
structure Rests (s : Log) (accepted waiting : List Encoded) (pages : List (List Encoded × Bool)) :
    Prop where
  free : s.lock = none
  settled : s.pendingConsume = 0
  idle : s.current = []
  accepted : s.accepted = accepted
  waiting : s.queue.items = waiting
  pages : s.journal.map (fun e => (e.records, e.acknowledged)) = pages

section Alone

variable {s : Log} {accepted waiting : List Encoded} {pages : List (List Encoded × Bool)} {t : Task}

theorem Rests.count (h : Rests s accepted waiting pages) : s.queue.ring.count = waiting.length := by
  rw [← h.waiting, Queue.items_length]

end Alone

def note (n : UInt64) : Record := { type := .warning, monotonicMs := n }

end Mosaico.Host.SystemLog
