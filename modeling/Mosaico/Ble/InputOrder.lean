import Mosaico.Ble.InputQueue

/-! The order in which critical events go out, recovered from the queues and from what
the input task has in hand, and the barrier that a neutral joystick event is. -/
namespace Mosaico.Ble.InputQueue

def criticalOf (events : List Queued) : List Queued := events.filter fun q => critical q.event

def hand : Task → List Queued
  | .sendingCritical q _ => [q]
  | _ => []

@[simp] theorem hand_sendingCritical (q : Queued) (n : Nat) :
    hand (.sendingCritical q n) = [q] := rfl

@[simp] theorem hand_sendingJoystick (q : Queued) : hand (.sendingJoystick q) = [] := rfl

@[simp] theorem hand_sendingEncoder (q : Queued) (n : Nat) :
    hand (.sendingEncoder q n) = [] := rfl

@[simp] theorem hand_polling : hand .polling = [] := rfl

def line (s : Input) : List Queued := criticalOf s.sent ++ hand s.task ++ s.criticalQueue

/-- Every neutral event of the list was accepted before `q`. -/
def NeutralsBefore (events : List Queued) (q : Queued) : Prop :=
  ∀ n ∈ events, joystickNeutral n.event = true → n.seq < q.seq

/-- An event of the encoder: a key that is not critical. -/
def PlainKey (e : InputEvent) : Prop := e.kind = .key ∧ critical e = false

structure Inv (s : Input) : Prop where
  order : (line s).Sublist (criticalOf s.accepted)
  kept : s.interrupted = false → line s = criticalOf s.accepted
  live : s.interrupted = false → s.current = true
  critical : ∀ q ∈ hand s.task ++ s.criticalQueue, critical q.event = true
  numbered : s.accepted.Pairwise (·.seq < ·.seq)
  fresh : ∀ q ∈ s.accepted, q.seq < s.accepted.length
  barrier : s.sent.Pairwise fun a b =>
    joystickNeutral a.event = true → b.event.kind = .joystick → a.seq < b.seq
  slot : ∀ q, s.joystick = some q → NeutralsBefore s.accepted q
  flying : ∀ q, s.task = .sendingJoystick q → NeutralsBefore s.sent q
  cleared : ∀ e, s.producer = .enqueuing e → joystickNeutral e = true → s.joystick = none
  keys : (∀ q ∈ s.inputQueue, PlainKey q.event) ∧
    (∀ q, s.encoder = some q → PlainKey q.event) ∧
    (∀ q n, s.task = .sendingEncoder q n → PlainKey q.event)
  positions : ∀ q, s.joystick = some q ∨ s.task = .sendingJoystick q →
    InputQueue.critical q.event = false

@[simp] theorem criticalOf_append (xs ys : List Queued) :
    criticalOf (xs ++ ys) = criticalOf xs ++ criticalOf ys := List.filter_append ..

@[simp] theorem criticalOf_nil : criticalOf [] = [] := rfl

theorem criticalOf_one {q : Queued} (h : critical q.event = true) : criticalOf [q] = [q] := by
  simp [criticalOf, h]

theorem criticalOf_none {q : Queued} (h : critical q.event = false) : criticalOf [q] = [] := by
  simp [criticalOf, h]

theorem critical_of_neutral {e : InputEvent} (h : joystickNeutral e = true) :
    critical e = true := by
  simp [critical, h]

theorem mem_criticalOf {q : Queued} {events : List Queued} :
    q ∈ criticalOf events ↔ q ∈ events ∧ critical q.event = true := List.mem_filter

variable {s : Input}

/-- A sent neutral event was accepted. -/
private theorem accepted_of_sent_neutral (h : Inv s) {n : Queued} (hn : n ∈ s.sent)
    (neutral : joystickNeutral n.event = true) : n ∈ s.accepted := by
  have mem : n ∈ line s := by
    simp only [line, List.mem_append]
    exact .inl (.inl (mem_criticalOf.mpr ⟨hn, critical_of_neutral neutral⟩))
  exact (mem_criticalOf.mp (h.order.mem mem)).1

theorem neutralsBefore_sent (h : Inv s) {q : Queued} (hq : NeutralsBefore s.accepted q) :
    NeutralsBefore s.sent q :=
  fun n hn neutral => hq n (accepted_of_sent_neutral h hn neutral) neutral

/-- The critical events go out one after the other. -/
theorem neutralsBefore_hand (h : Inv s) {q : Queued} {n : Nat}
    (held : s.task = .sendingCritical q n) : NeutralsBefore s.sent q := by
  intro a ha neutral
  have increasing : (line s).Pairwise (·.seq < ·.seq) :=
    (h.numbered.filter _).sublist h.order
  have mem : a ∈ criticalOf s.sent := mem_criticalOf.mpr ⟨ha, critical_of_neutral neutral⟩
  simp only [line, held, hand, List.append_assoc] at increasing
  exact (List.pairwise_append.mp increasing).2.2 a mem q (by simp)

theorem barrier_snoc (h : Inv s) {q : Queued}
    (later : q.event.kind = .joystick → NeutralsBefore s.sent q) :
    (s.sent ++ [q]).Pairwise fun a b =>
      joystickNeutral a.event = true → b.event.kind = .joystick → a.seq < b.seq := by
  rw [List.pairwise_append]
  refine ⟨h.barrier, List.pairwise_singleton _ _, ?_⟩
  intro a ha b hb neutral kind
  have same : b = q := by simpa using hb
  subst same
  exact later kind a ha neutral

theorem inv_start : Inv {} where
  order := by simp [line, hand]
  kept := by simp [line, hand]
  live := by simp [Input.current]
  critical := by simp [hand]
  numbered := by simp
  fresh := by simp
  barrier := by simp
  slot := by simp
  flying := by simp
  cleared := by simp
  keys := by simp
  positions := by simp

/-! ## The producer -/

theorem inv_refuse (h : Inv s) (e : InputEvent) : Inv (s.refuse e) := by
  have idle : Inv { s with producer := .idle } := { h with cleared := by simp }
  unfold Input.refuse
  dsimp only
  split
  · exact { idle with kept := by simp [Input.fail], live := by simp [Input.fail] }
  · exact idle

theorem inv_offer (h : Inv s) (e : InputEvent) : Inv (offer s e) := by
  unfold offer
  cases producer : s.producer with
  | idle =>
    dsimp only
    split
    · exact { h with cleared := by simp; grind }
    · exact h
  | _ => exact h

theorem numbered_snoc (h : Inv s) (e : InputEvent) :
    (s.accepted ++ [s.next e]).Pairwise (·.seq < ·.seq) := by
  rw [List.pairwise_append]
  refine ⟨h.numbered, List.pairwise_singleton _ _, ?_⟩
  intro a ha b hb
  have same : b = s.next e := by simpa using hb
  rw [same]
  exact h.fresh a ha

theorem fresh_snoc (h : Inv s) (e : InputEvent) :
    ∀ q ∈ s.accepted ++ [s.next e], q.seq < (s.accepted ++ [s.next e]).length := by
  intro q hq
  rw [List.length_append, List.length_singleton]
  cases List.mem_append.mp hq with
  | inl old => exact Nat.lt_succ_of_lt (h.fresh q old)
  | inr new =>
    have same : q = s.next e := by simpa using new
    rw [same]
    exact Nat.lt_succ_self _

/-- A non-critical event joins the accepted ones; no neutral one was added. -/
theorem neutralsBefore_snoc {q : Queued} {e : InputEvent} (hq : NeutralsBefore s.accepted q)
    (plain : joystickNeutral e = false) : NeutralsBefore (s.accepted ++ [s.next e]) q := by
  intro n hn neutral
  cases List.mem_append.mp hn with
  | inl old => exact hq n old neutral
  | inr new =>
    have same : n = s.next e := by simpa using new
    rw [same] at neutral
    simp [Input.next, plain] at neutral

theorem neutral_of_not_critical {e : InputEvent} (h : critical e = false) :
    joystickNeutral e = false := by
  cases neutral : joystickNeutral e with
  | false => rfl
  | true => exact absurd (critical_of_neutral neutral) (by simp [h])

theorem criticalOf_accept {e : InputEvent} (h : critical e = false) :
    criticalOf (s.accepted ++ [s.next e]) = criticalOf s.accepted := by
  rw [criticalOf_append, criticalOf_none (q := s.next e) h, List.append_nil]

theorem inv_acceptPosition (h : Inv s) {e : InputEvent} (plain : critical e = false) :
    Inv { s.accept e with joystick := some (s.next e) } :=
  { h with
    order := by
      change (line s).Sublist (criticalOf (s.accepted ++ [s.next e]))
      rw [criticalOf_accept plain]
      exact h.order
    kept := by
      intro quiet
      change line s = criticalOf (s.accepted ++ [s.next e])
      rw [criticalOf_accept plain]
      exact h.kept quiet
    numbered := numbered_snoc h e
    fresh := fresh_snoc h e
    slot := by
      intro q hq n hn neutral
      simp only [Option.some.injEq] at hq
      subst hq
      cases List.mem_append.mp hn with
      | inl old => exact h.fresh n old
      | inr new =>
        have same : n = s.next e := by simpa using new
        rw [same] at neutral
        simp [Input.next, neutral_of_not_critical plain] at neutral
    cleared := by simp [Input.accept]
    positions := by
      intro q hq
      cases hq with
      | inl slot =>
        simp only [Option.some.injEq] at slot
        subst slot
        exact plain
      | inr flying => exact h.positions q (.inr flying) }

theorem inv_acceptNormal (h : Inv s) {e : InputEvent} (plain : critical e = false)
    (key : e.kind = .key) :
    Inv { s.accept e with inputQueue := s.inputQueue ++ [s.next e] } :=
  { h with
    order := by
      change (line s).Sublist (criticalOf (s.accepted ++ [s.next e]))
      rw [criticalOf_accept plain]
      exact h.order
    kept := by
      intro quiet
      change line s = criticalOf (s.accepted ++ [s.next e])
      rw [criticalOf_accept plain]
      exact h.kept quiet
    numbered := numbered_snoc h e
    fresh := fresh_snoc h e
    slot := fun q hq => neutralsBefore_snoc (h.slot q hq) (neutral_of_not_critical plain)
    cleared := by simp [Input.accept]
    keys := by
      refine ⟨?_, h.keys.2⟩
      intro q hq
      cases List.mem_append.mp hq with
      | inl old => exact h.keys.1 q old
      | inr new =>
        have same : q = s.next e := by simpa using new
        rw [same]
        exact ⟨key, plain⟩ }

theorem inv_acceptCritical (h : Inv s) {e : InputEvent} (crit : critical e = true)
    (held : s.producer = .enqueuing e) :
    Inv { s.accept e with criticalQueue := s.criticalQueue ++ [s.next e] } :=
  have longer : criticalOf (s.accepted ++ [s.next e]) = criticalOf s.accepted ++ [s.next e] := by
    rw [criticalOf_append, criticalOf_one (q := s.next e) crit]
  have grown : line { s.accept e with criticalQueue := s.criticalQueue ++ [s.next e] } =
      line s ++ [s.next e] := by
    simp [line, Input.accept]
  { h with
    order := by
      rw [grown]
      change (line s ++ [s.next e]).Sublist (criticalOf (s.accepted ++ [s.next e]))
      rw [longer]
      exact h.order.append (List.Sublist.refl _)
    kept := by
      intro quiet
      rw [grown]
      change line s ++ [s.next e] = criticalOf (s.accepted ++ [s.next e])
      rw [longer, h.kept quiet]
    critical := by
      intro q hq
      have split : q ∈ (hand s.task ++ s.criticalQueue) ++ [s.next e] := by
        simpa [Input.accept] using hq
      cases List.mem_append.mp split with
      | inl old => exact h.critical q old
      | inr new =>
        have same : q = s.next e := by simpa using new
        rw [same]
        exact crit
    numbered := numbered_snoc h e
    fresh := fresh_snoc h e
    slot := by
      intro q hq
      cases neutral : joystickNeutral e with
      | false => exact neutralsBefore_snoc (h.slot q hq) neutral
      | true =>
        -- the reset before a neutral event left no position behind
        have empty := h.cleared e held neutral
        simp [Input.accept, empty] at hq
    cleared := by simp [Input.accept] }

/-- An empty joystick queue holds no position to be ordered. -/
theorem inv_reset (h : Inv s) (producer : Producer) :
    Inv { s with joystick := none, producer := producer } :=
  { h with
    slot := by simp
    cleared := by simp
    positions := fun q hq => h.positions q (.inr (by simpa using hq)) }

theorem inv_produce (h : Inv s) (gaveUp : Bool) : Inv (produce s gaveUp) := by
  unfold produce
  cases producer : s.producer with
  | idle => exact h
  | resetting e =>
    exact inv_reset h (.enqueuing e)
  | enqueuing e =>
    dsimp only
    cases crit : critical e with
    | true =>
      simp only [if_true, enqueueCritical]
      split
      · exact inv_acceptCritical h crit producer
      · split
        · exact inv_refuse h e
        · exact h
    | false =>
      simp only [Bool.false_eq_true, if_false]
      split
      · exact inv_acceptPosition h crit
      · rename_i kind
        have key : e.kind = .key := by
          cases hk : e.kind with
          | key => rfl
          | joystick => exact absurd hk kind
        simp only [enqueueNormal]
        split
        · exact inv_refuse h e
        · split
          · exact inv_acceptNormal h crit key
          · split
            · exact inv_refuse h e
            · exact h

/-! ## The input task -/

def handFree : Task → Bool
  | .sendingCritical _ _ | .sendingJoystick _ | .sendingEncoder _ _ => false
  | _ => true

private theorem hand_of_free {t : Task} (h : handFree t = true) : hand t = [] := by
  cases t <;> simp_all [handFree, hand]

theorem inv_free (h : Inv s) {t : Task} (free : handFree t = true)
    (before : hand s.task = []) : Inv { s with task := t } := by
  have same : line { s with task := t } = line s := by simp [line, hand_of_free free, before]
  exact
    { h with
      order := by rw [same]; exact h.order
      kept := by
        intro quiet
        rw [same]
        exact h.kept quiet
      critical := by
        intro q hq
        apply h.critical
        simpa [hand_of_free free, before] using hq
      flying := by
        intro q flying
        subst flying
        simp [handFree] at free
      keys := ⟨h.keys.1, h.keys.2.1, by
        intro q n sending
        subst sending
        simp [handFree] at free⟩
      positions := by
        intro q hq
        cases hq with
        | inl slot => exact h.positions q (.inl slot)
        | inr flying =>
          subst flying
          simp [handFree] at free }

/-- The batch at work does not take part in the order of critical events. -/
theorem inv_encoder (h : Inv s) (encoder : Option Queued)
    (key : ∀ q, encoder = some q → PlainKey q.event) : Inv { s with encoder := encoder } :=
  { h with keys := ⟨h.keys.1, key, h.keys.2.2⟩ }

/-- The event in hand or at the head of the line is given up; only an interruption does that. -/
theorem inv_giveUp (h : Inv s) {q : Queued} {rest : List Queued} (held : hand s.task = [])
    (queue : s.criticalQueue = q :: rest) (down : s.current = false) :
    Inv { s with criticalQueue := rest, task := .polling } := by
  have shorter : (line { s with criticalQueue := rest, task := .polling }).Sublist (line s) := by
    simp only [line, held, queue, hand_polling, List.append_nil]
    exact (List.Sublist.refl _).append (List.sublist_cons_self ..)
  exact
    { h with
      order := shorter.trans h.order
      kept := by
        intro quiet
        have live := h.live quiet
        simp [down] at live
      critical := by
        intro p hp
        apply h.critical
        rw [queue]
        have mem : p ∈ rest := by simpa using hp
        exact List.mem_append_right _ (List.mem_cons_of_mem _ mem)
      flying := by simp
      keys := ⟨h.keys.1, h.keys.2.1, by simp⟩
      positions := fun p hp => h.positions p (.inl (by simpa using hp)) }

theorem inv_take (h : Inv s) {q : Queued} {rest : List Queued} (held : hand s.task = [])
    (queue : s.criticalQueue = q :: rest) :
    Inv { s with criticalQueue := rest, task := .sendingCritical q 0 } := by
  have same : line { s with criticalQueue := rest, task := .sendingCritical q 0 } = line s := by
    simp [line, held, queue]
  exact
    { h with
      order := by rw [same]; exact h.order
      kept := by
        intro quiet
        rw [same]
        exact h.kept quiet
      critical := by
        intro p hp
        apply h.critical
        simpa [held, queue] using hp
      flying := by simp
      keys := ⟨h.keys.1, h.keys.2.1, by simp⟩
      positions := fun p hp => h.positions p (.inl (by simpa using hp)) }

theorem inv_poll (h : Inv s) (held : hand s.task = []) : Inv (poll s) := by
  unfold poll
  split
  · have asleep : Inv { s with task := .sleeping } := inv_free h (by rfl) held
    exact inv_encoder asleep none (by simp)
  · cases queue : s.criticalQueue with
    | nil =>
      have next : Inv { s with task := .pollRpc } := inv_free h rfl held
      simpa only [queue] using next
    | cons q rest =>
      dsimp only
      cases current : s.current with
      | true => exact inv_take h held queue
      | false => exact inv_giveUp h held queue current

theorem inv_pollLink (h : Inv s) (held : hand s.task = []) : Inv (pollLink s) := by
  unfold pollLink
  split
  · exact inv_free h (by rfl) held
  · have asleep : Inv { s with task := .sleeping } := inv_free h (by rfl) held
    apply inv_encoder asleep
    intro q hq
    split at hq
    · exact h.keys.2.1 q hq
    · cases hq

theorem inv_pollJoystick (h : Inv s) (held : hand s.task = []) : Inv (pollJoystick s) := by
  unfold pollJoystick
  cases slot : s.joystick with
  | none =>
    have next : Inv { s with task := .pollEncoder } := inv_free h rfl held
    simpa only [slot] using next
  | some q =>
    dsimp only
    have reset : Inv { s with joystick := none } := inv_reset h s.producer
    cases current : s.current with
    | false => exact inv_free reset (by rfl) held
    | true =>
      have same : line { s with joystick := none, task := .sendingJoystick q } = line s := by
        simp [line, held]
      exact
        { reset with
          order := by rw [if_pos rfl, same]; exact h.order
          kept := by
            intro quiet
            rw [if_pos rfl, same]
            exact h.kept quiet
          critical := by
            intro p hp
            apply h.critical
            simpa [held] using hp
          flying := by
            intro p hp
            have mine : q = p := by simpa using hp
            subst mine
            exact neutralsBefore_sent h (h.slot q slot)
          keys := ⟨h.keys.1, h.keys.2.1, by simp⟩
          positions := by
            intro p hp
            have mine : q = p := by simpa using hp
            subst mine
            exact h.positions q (.inl slot) }

theorem nextBatch_key (h : Inv s) :
    (∀ q, (nextBatch s).1 = some q → PlainKey q.event) ∧
      ∀ q ∈ (nextBatch s).2, PlainKey q.event := by
  unfold nextBatch
  cases pending : s.encoder with
  | some q =>
    constructor
    · intro p hp
      cases hp
      exact h.keys.2.1 q pending
    · exact h.keys.1
  | none =>
    constructor
    · intro p hp
      exact h.keys.1 p (List.mem_of_head? hp)
    · intro p hp
      exact h.keys.1 p (List.mem_of_mem_tail hp)

theorem inv_pollEncoder (h : Inv s) (held : hand s.task = []) : Inv (pollEncoder s) := by
  obtain ⟨key, queued⟩ := nextBatch_key h
  have taken : Inv { s with inputQueue := (nextBatch s).2 } := { h with keys := ⟨queued, h.keys.2⟩ }
  unfold pollEncoder
  dsimp only
  cases batch : (nextBatch s).1 with
  | none =>
    have asleep : Inv { s with inputQueue := (nextBatch s).2, task := .sleeping } :=
      inv_free taken rfl held
    exact asleep
  | some q =>
    dsimp only
    split
    · have polling : Inv { s with inputQueue := (nextBatch s).2, task := .polling } :=
        inv_free taken rfl held
      have pending := inv_encoder polling (some q) fun p hp => key p (by rw [batch, hp])
      exact
        { pending with
          flying := by simp
          keys := ⟨queued, fun p hp => key p (by rw [batch]; exact hp), by
            intro p n hp
            simp only [Task.sendingEncoder.injEq] at hp
            exact key p (by rw [batch, hp.1])⟩
          positions := fun p hp => h.positions p (.inl (by simpa using hp)) }
    · have polling : Inv { s with inputQueue := (nextBatch s).2, task := .polling } :=
        inv_free taken rfl held
      exact inv_encoder polling none (by simp)

/-- A failure closes the link and gives up what the task has in hand. -/
theorem inv_failed (h : Inv s) : Inv { s.fail with task := .polling } := by
  have shorter : (line { s.fail with task := .polling }).Sublist (line s) := by
    simp only [line, hand_polling, List.append_nil]
    exact (List.sublist_append_left _ _).append (List.Sublist.refl _)
  exact
    { h with
      order := shorter.trans h.order
      kept := by simp [Input.fail]
      live := by simp [Input.fail]
      critical := fun q hq => h.critical q (List.mem_append_right _ (by simpa [Input.fail] using hq))
      flying := by simp
      keys := ⟨h.keys.1, h.keys.2.1, by simp⟩
      positions := fun q hq => h.positions q (.inl (by simpa [Input.fail] using hq)) }

theorem inv_dropped (h : Inv s) (down : s.current = false) : Inv { s with task := .polling } := by
  have shorter : (line { s with task := .polling }).Sublist (line s) := by
    simp only [line, hand_polling, List.append_nil]
    exact (List.sublist_append_left _ _).append (List.Sublist.refl _)
  exact
    { h with
      order := shorter.trans h.order
      kept := by
        intro quiet
        have live := h.live quiet
        simp [down] at live
      critical := fun q hq => h.critical q (List.mem_append_right _ (by simpa using hq))
      flying := by simp
      keys := ⟨h.keys.1, h.keys.2.1, by simp⟩
      positions := fun q hq => h.positions q (.inl (by simpa using hq)) }

theorem inv_sentCritical (h : Inv s) {q : Queued} {n : Nat}
    (held : s.task = .sendingCritical q n) :
    Inv { s with sent := s.sent ++ [q], task := .polling } := by
  have crit : critical q.event = true := h.critical q (by simp [held])
  have same : line { s with sent := s.sent ++ [q], task := .polling } = line s := by
    simp [line, held, criticalOf_one crit]
  exact
    { h with
      order := by rw [same]; exact h.order
      kept := by
        intro quiet
        rw [same]
        exact h.kept quiet
      critical := fun p hp => h.critical p (List.mem_append_right _ (by simpa using hp))
      barrier := barrier_snoc h fun _ => neutralsBefore_hand h held
      flying := by simp
      keys := ⟨h.keys.1, h.keys.2.1, by simp⟩
      positions := fun p hp => h.positions p (.inl (by simpa using hp)) }

theorem inv_sendCritical (h : Inv s) {q : Queued} {n : Nat}
    (held : s.task = .sendingCritical q n) (ok : Bool) : Inv (sendCritical s q n ok) := by
  unfold sendCritical
  split
  · split
    · split
      · exact inv_sentCritical h held
      · have same : line { s with task := .sendingCritical q (n + 1) } = line s := by
          simp [line, held]
        exact
          { h with
            order := by rw [same]; exact h.order
            kept := by
              intro quiet
              rw [same]
              exact h.kept quiet
            critical := by
              intro p hp
              apply h.critical
              simpa [held] using hp
            flying := by simp
            keys := ⟨h.keys.1, h.keys.2.1, by simp⟩
            positions := fun p hp => h.positions p (.inl (by simpa using hp)) }
    · exact inv_failed h
  · exact inv_dropped h (by simpa using ‹¬s.current = true›)

/-- A send of something that is not critical leaves the line as it is. -/
theorem inv_sentPlain (h : Inv s) {q : Queued} (held : hand s.task = [])
    (plain : q.event.kind = .joystick → NeutralsBefore s.sent q)
    (quiet : critical q.event = false) :
    Inv { s with sent := s.sent ++ [q], task := .polling } := by
  have same : line { s with sent := s.sent ++ [q], task := .polling } = line s := by
    simp [line, held, criticalOf_none quiet]
  exact
    { h with
      order := by rw [same]; exact h.order
      kept := by
        intro quiet
        rw [same]
        exact h.kept quiet
      critical := fun p hp => h.critical p (List.mem_append_right _ (by simpa using hp))
      barrier := barrier_snoc h plain
      flying := by simp
      keys := ⟨h.keys.1, h.keys.2.1, by simp⟩
      positions := fun p hp => h.positions p (.inl (by simpa using hp)) }

theorem inv_sendJoystick (h : Inv s) {q : Queued} (held : s.task = .sendingJoystick q)
    (ok : Bool) : Inv (sendJoystick s q ok) := by
  have free : hand s.task = [] := by simp [held]
  unfold sendJoystick
  split
  · exact inv_sentPlain h free (fun _ => h.flying q held) (h.positions q (.inr held))
  · exact inv_free h rfl free

private theorem remaining_key {q p : Queued} (key : PlainKey q.event) (h : remaining q = some p) :
    PlainKey p.event := by
  obtain ⟨-, same⟩ := Option.ite_none_right_eq_some.mp h
  rw [← Option.some.inj same]
  exact key

theorem inv_finishEncoder (h : Inv s) {q : Queued} (held : hand s.task = [])
    (key : PlainKey q.event) : Inv (finishEncoder s q) := by
  have polling : Inv { s with task := .polling } := inv_free h rfl held
  exact inv_encoder polling _ fun _ => remaining_key key

theorem inv_sendEncoder (h : Inv s) {q : Queued} {n : Nat}
    (held : s.task = .sendingEncoder q n) (ok : Bool) : Inv (sendEncoder s q n ok) := by
  have free : hand s.task = [] := by simp [held]
  have key := h.keys.2.2 q n held
  have plain : q.event.kind = .joystick → NeutralsBefore s.sent q := by simp [key.1]
  have sent := inv_sentPlain h free plain key.2
  have failed := inv_failed h
  unfold sendEncoder
  split
  · split
    · split
      · exact inv_finishEncoder sent rfl key
      · have same : line { s with task := .sendingEncoder q (n + 1) } = line s := by
          simp [line, held]
        exact
          { h with
            order := by rw [same]; exact h.order
            kept := by
              intro quiet
              rw [same]
              exact h.kept quiet
            critical := by
              intro p hp
              apply h.critical
              simpa [held] using hp
            flying := by simp
            keys := ⟨h.keys.1, h.keys.2.1, by
              intro p m hp
              simp only [Task.sendingEncoder.injEq] at hp
              exact hp.1 ▸ key⟩
            positions := fun p hp => h.positions p (.inl (by simpa using hp)) }
    · split
      · exact inv_finishEncoder h free key
      · exact inv_finishEncoder failed rfl key
  · exact inv_finishEncoder h free key

theorem inv_runTask (h : Inv s) (ok rpc : Bool) : Inv (runTask s ok rpc) := by
  unfold runTask
  cases task : s.task with
  | sleeping => exact inv_free h rfl (by rw [task]; rfl)
  | polling => exact inv_poll h (by rw [task]; rfl)
  | pollRpc =>
    cases rpc with
    | true => exact inv_free h rfl (by rw [task]; rfl)
    | false => exact inv_free h rfl (by rw [task]; rfl)
  | pollLink => exact inv_pollLink h (by rw [task]; rfl)
  | pollJoystick => exact inv_pollJoystick h (by rw [task]; rfl)
  | pollEncoder => exact inv_pollEncoder h (by rw [task]; rfl)
  | sendingCritical q n => exact inv_sendCritical h task ok
  | sendingJoystick q => exact inv_sendJoystick h task ok
  | sendingEncoder q n => exact inv_sendEncoder h task ok

theorem inv_step (h : Inv s) (e : Event) : Inv (step s e) := by
  cases e with
  | offer e => exact inv_offer h e
  | produce gaveUp => exact inv_produce h gaveUp
  | task ok rpc => exact inv_runTask h ok rpc
  | requestRadioIdle value =>
    exact
      { h with
        kept := by
          intro quiet
          simp only [step, Bool.or_eq_false_iff] at quiet
          exact h.kept quiet.1
        live := by
          intro quiet
          simp only [step, Bool.or_eq_false_iff] at quiet
          have live := h.live quiet.1
          simp_all [step, Input.current] }
  | linkLost => exact { h with kept := by simp [step], live := by simp [step] }

theorem inv_run (events : List Event) : Inv (run events) := by
  suffices ∀ s, Inv s → Inv (events.foldl step s) from this {} inv_start
  induction events with
  | nil => exact fun _ h => h
  | cons e rest ih => exact fun s h => ih _ (inv_step h e)

/-- What a run shows of its critical events and of its joystick positions. -/
structure InOrder (s : Input) : Prop where
  /-- acceptance numbers the events -/
  numbered : s.accepted.Pairwise (·.seq < ·.seq)
  /-- sent in the order of acceptance, and none twice -/
  order : (criticalOf s.sent).Sublist (criticalOf s.accepted)
  /-- none is skipped: those accepted were sent or are still in hand or queued -/
  complete : s.interrupted = false →
    criticalOf s.accepted = criticalOf s.sent ++ (hand s.task ++ s.criticalQueue)
  /-- after a neutral event no position accepted before it is sent -/
  barrier : s.sent.Pairwise fun a b =>
    joystickNeutral a.event = true → b.event.kind = .joystick → a.seq < b.seq

theorem critical_in_order (events : List Event) : InOrder (run events) := by
  have h := inv_run events
  exact
    { numbered := h.numbered
      order := by
        apply List.Sublist.trans _ h.order
        simp only [line, List.append_assoc]
        exact List.sublist_append_left _ _
      complete := by
        intro quiet
        rw [← h.kept quiet, line, List.append_assoc]
      barrier := h.barrier }

/-- A key is accepted and radio idle is requested for a moment while the task takes it. -/
def idled : List Event :=
  [.offer { action := .press }, .produce false, .requestRadioIdle true, .task true false,
    .task true false, .requestRadioIdle false]

/-- The link is as it was, yet the key is neither sent nor anywhere in line. -/
theorem idled_skips :
    (run idled).connected = true ∧ (run idled).ready = true ∧
      criticalOf (run idled).accepted ≠ [] ∧ (run idled).sent = [] ∧
      hand (run idled).task ++ (run idled).criticalQueue = [] := by
  refine ⟨rfl, rfl, ?_, rfl, rfl⟩
  simp [idled, run, step, offer, produce, Input.current, joystickNeutral, critical, encoderOrdered,
    enqueueCritical, Input.accept, Input.next, runTask, poll, criticalOf]

end Mosaico.Ble.InputQueue
