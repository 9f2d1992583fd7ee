import Mosaico.Gauge.OcvQualification

/-! Whole runs of the OCV diagnostic: when the command is sent, what a confirmation has seen, and that
the loops end. -/
namespace Mosaico.Gauge.OcvDiagnostic

/-- The snapshots of a trace with the clock after each, failed ones included. -/
def readings : List Event → List (Option Sample × Int)
  | .nowUs now :: .snapshot sample :: older => (sample, now) :: readings older
  | _ :: older => readings older
  | [] => []

def all (samples : List Reading) : List (Option Sample × Int) := samples.map fun x => (some x.1, x.2)

def Silent (trace : List Event) : Prop := ∀ q, .sendOcv q ∉ trace

/-- What was seen before the latch: a window of readings, the identity again, and one more reading. -/
def Qualified (checked : List Event) : Prop :=
  ∃ window samples fresh now, checked = .nowUs now :: .snapshot (some fresh) :: .identity true :: window ∧
    readings window = all samples ∧ Spans 120000000 samples ∧ Steady ((fresh, now) :: samples)

def Disciplined (trace : List Event) : Prop :=
  Silent trace ∨ ∃ after q checked, trace = after ++ .sendOcv q :: .latchAttempt true :: checked ∧
    Silent after ∧ Silent checked ∧ Qualified checked

/-- The command was acknowledged, and the readings went on within the bounds of the first window for
five seconds, in which the completion bit was clear and later set. -/
def Confirming (trace : List Event) : Prop :=
  ∃ after postStart wire wired q checked samples posts,
    trace = after ++ .nowUs postStart :: .transmit true :: .runtimeGate true :: .nowUs wired ::
      .snapshot (some wire) :: .sendOcv q :: .latchAttempt true :: checked ∧
    readings checked = all samples ∧ readings after = all posts ∧ Steady (posts ++ (wire, wired) :: samples) ∧
    (∃ last ∈ posts.head?, 5000000 ≤ last.2 - postStart) ∧
    ∃ later earlier, [later, earlier].Sublist posts ∧ later.1.comp = true ∧ earlier.1.comp = false

def Exit.Meets (next : Coordinator → Prop) : Exit → Prop
  | .spent c => Disciplined c.trace
  | .finished c => Disciplined c.trace ∧ (c.r.result = .confirmed → Confirming c.trace)
  | .on c => Disciplined c.trace ∧ next c

theorem Exit.Meets.andThen {e : Exit} {next next' : Coordinator → Prop} {part : Coordinator → Exit}
    (h : e.Meets next) (step : ∀ c, Disciplined c.trace → next c → (part c).Meets next') :
    (e.andThen part).Meets next' := by
  cases e with
  | spent c => exact h
  | finished c => exact h
  | on c => exact step c h.1 h.2

variable {b : Backend} {c : Coordinator} {samples posts : List Reading}

theorem finish_meets {value : Result} {next : Coordinator → Prop} (h : Disciplined c.trace)
    (other : value ≠ .confirmed) : (c.finish value).Meets next :=
  ⟨h, fun same => absurd same other⟩

theorem Silent.cons {trace : List Event} {e : Event} (h : Silent trace) (other : ∀ q, e ≠ .sendOcv q) :
    Silent (e :: trace) := by
  intro q mem
  rcases List.mem_cons.mp mem with same | old
  · exact other q same.symm
  · exact h q old

/-- Before the command. -/
structure Opening (c : Coordinator) (samples : List Reading) : Prop where
  tracked : Tracked c.q samples
  seen : readings c.trace = all samples
  edge : c.r.edge = false
  silent : Silent c.trace

theorem reading_trace (b : Backend) (trace : List Event) : (b.reading trace).2.2 =
    .nowUs (b.reading trace).2.1 :: .snapshot (b.reading trace).1 :: trace := rfl

/-- One reading, accepted or not. -/
theorem observe_opening (h : Opening c samples) :
    Silent (c.observe b).1.trace ∧ ((c.observe b).2.2 = true → ∃ s,
      Opening (c.observe b).1 ((s, (c.observe b).2.1) :: samples) ∧
      (c.observe b).1.trace = .nowUs (c.observe b).2.1 :: .snapshot (some s) :: c.trace) := by
  unfold Coordinator.observe
  have grown := reading_trace b c.trace
  generalize b.reading c.trace = read at grown ⊢
  obtain ⟨sample, now, trace⟩ := read
  dsimp only at grown
  subst grown
  have silent : Silent (.nowUs now :: .snapshot sample :: c.trace) := (h.silent.cons (by simp)).cons (by simp)
  cases sample with
  | none => exact ⟨silent, nofun⟩
  | some s =>
    refine ⟨silent, fun held => ⟨s, ⟨tracked_sample h.tracked held, ?_, h.edge, silent⟩, rfl⟩⟩
    exact congrArg ((some s, now) :: ·) h.seen

theorem qualify_meets (b : Backend) (fuel : Nat) (h : Opening c samples) :
    (qualify b fuel c).Meets fun c' => ∃ samples', Opening c' samples' ∧ Spans 120000000 samples' := by
  induction fuel generalizing c samples with
  | zero => exact .inl h.silent
  | succ fuel ih =>
    unfold qualify
    obtain ⟨silent, held⟩ := observe_opening (b := b) h
    generalize c.observe b = observed at silent held
    obtain ⟨c', now, ok⟩ := observed
    cases ok with
    | false => exact finish_meets (.inl silent) (by decide)
    | true =>
      obtain ⟨s, opening, -⟩ := held rfl
      dsimp only
      split
      · rename_i ready
        exact ⟨.inl silent, _, opening, spans_of_ready opening.tracked ready⟩
      · exact ih ⟨opening.tracked, opening.seen, opening.edge, silent.cons (by simp)⟩

theorem reconfirm_meets (b : Backend) (h : Opening c samples) (spans : Spans 120000000 samples) :
    (reconfirm b c).Meets fun c' => ∃ samples', Opening c' samples' ∧ Qualified c'.trace := by
  unfold reconfirm
  dsimp only
  generalize b.identity c.trace = again
  have opening : Opening (c.called (.identity again)) samples :=
    ⟨h.tracked, h.seen, h.edge, h.silent.cons (by simp)⟩
  split
  · exact finish_meets (.inl opening.silent) (by decide)
  · rename_i same
    obtain ⟨silent, held⟩ := observe_opening (b := b) opening
    generalize (c.called (.identity again)).observe b = observed at silent held
    obtain ⟨c', now, ok⟩ := observed
    cases ok with
    | false => exact finish_meets (.inl silent) (by decide)
    | true =>
      obtain ⟨s, fresh, trace⟩ := held rfl
      dsimp only at trace ⊢
      split
      · refine ⟨.inl silent, _, fresh, c.trace, samples, s, now, ?_, h.seen, spans, fresh.tracked.steady⟩
        rw [trace]
        simp only [Coordinator.called, Bool.not_eq_false] at same ⊢
        rw [same]
      · exact finish_meets (.inl silent) (by decide)

/-- A command that was put on the wire. -/
structure Command where
  q : Qualification
  wire : Reading
  ack : Bool
  checked : List Event
  samples : List Reading
  seen : readings checked = all samples
  silent : Silent checked
  qualified : Qualified checked

def Command.trace (k : Command) : List Event :=
  .transmit k.ack :: .runtimeGate true :: .nowUs k.wire.2 :: .snapshot (some k.wire.1) :: .sendOcv k.q ::
    .latchAttempt true :: k.checked

theorem Silent.append {newer older : List Event} (h : Silent newer) (h' : Silent older) :
    Silent (newer ++ older) := by
  intro q mem
  rcases List.mem_append.mp mem with new | old
  · exact h q new
  · exact h' q old

theorem disciplined_of_send {after checked : List Event} (q : Qualification) (silent : Silent after)
    (silent' : Silent checked) (qualified : Qualified checked) :
    Disciplined (after ++ .sendOcv q :: .latchAttempt true :: checked) :=
  .inr ⟨after, q, checked, rfl, silent, silent', qualified⟩

theorem Command.disciplined (k : Command) {after : List Event} (silent : Silent after) :
    Disciplined (after ++ k.trace) := by
  have wire : Silent [.transmit k.ack, .runtimeGate true, .nowUs k.wire.2, .snapshot (some k.wire.1)] := by
    intro q mem
    simp at mem
  have whole := disciplined_of_send k.q (silent.append wire) k.silent k.qualified
  rwa [List.append_assoc] at whole

/-- The answer of the command, with what it left in the coordinator. -/
theorem sendOcv_spec (h : Opening c samples) (qualified : Qualified c.trace) :
    let latched := c.called (.latchAttempt true)
    Disciplined (sendOcv b latched).1.trace ∧ (sendOcv b latched).1.r = c.r ∧
      ((sendOcv b latched).2.result ≠ .guardRefused → ∃ k : Command,
        (sendOcv b latched).1.trace = k.trace ∧ Tracked (sendOcv b latched).1.q (k.wire :: k.samples) ∧
        (sendOcv b latched).2.result = if k.ack then .acked else .ackFailed) := by
  dsimp only
  unfold sendOcv Coordinator.called
  dsimp only
  have grown := reading_trace b (.sendOcv c.q :: .latchAttempt true :: c.trace)
  generalize b.reading (.sendOcv c.q :: .latchAttempt true :: c.trace) = read at grown ⊢
  obtain ⟨sample, now, trace⟩ := read
  dsimp only at grown
  subst grown
  have unsent : Disciplined (.nowUs now :: .snapshot sample :: .sendOcv c.q :: .latchAttempt true :: c.trace) := by
    have quiet : Silent [.nowUs now, .snapshot sample] := by
      intro q mem
      simp at mem
    exact disciplined_of_send c.q quiet h.silent qualified
  cases sample with
  | none => exact ⟨unsent, rfl, fun sent => absurd rfl sent⟩
  | some s =>
    dsimp only
    split
    · exact ⟨unsent, rfl, fun sent => absurd rfl sent⟩
    · rename_i fit
      simp only [not_or, Bool.not_eq_false] at fit
      generalize b.runtimeGate (.nowUs now :: .snapshot (some s) :: .sendOcv c.q :: .latchAttempt true ::
        c.trace) = gate
      cases gate with
      | false =>
        have quiet : Silent [.runtimeGate false, .nowUs now, .snapshot (some s)] := by
          intro q mem
          simp at mem
        exact ⟨disciplined_of_send c.q quiet h.silent qualified, rfl, fun sent => absurd rfl sent⟩
      | true =>
        rw [if_neg nofun]
        generalize b.transmit (.runtimeGate true :: .nowUs now :: .snapshot (some s) :: .sendOcv c.q ::
          .latchAttempt true :: c.trace) = ack
        have quiet : Silent [.transmit ack, .runtimeGate true, .nowUs now, .snapshot (some s)] := by
          intro q mem
          simp at mem
        refine ⟨disciplined_of_send c.q quiet h.silent qualified, rfl, fun _ =>
          ⟨⟨c.q, (s, now), ack, c.trace, samples, h.seen, h.silent, qualified⟩, rfl,
            tracked_sample h.tracked fit.1, rfl⟩⟩

/-- After the command: the readings before it, its own and the later ones are one list. -/
structure Settling (k : Command) (postStart : Int) (c : Coordinator) (posts : List Reading) (postClear : Bool) :
    Prop where
  trace : ∃ after, c.trace = after ++ .nowUs postStart :: k.trace ∧ readings after = all posts ∧ Silent after
  tracked : Tracked c.q (posts ++ k.wire :: k.samples)
  ack : c.r.ack = k.ack
  clear : postClear = true → ∃ earlier ∈ posts, earlier.1.comp = false
  edge : c.r.edge = true →
    ∃ later earlier, [later, earlier].Sublist posts ∧ later.1.comp = true ∧ earlier.1.comp = false

theorem Command.disciplined_later (k : Command) (postStart : Int) {after : List Event} (silent : Silent after) :
    Disciplined (after ++ .nowUs postStart :: k.trace) := by
  have quiet : Silent [.nowUs postStart] := by
    intro q mem
    simp at mem
  have whole := k.disciplined (silent.append quiet)
  rwa [List.append_assoc, List.singleton_append] at whole

/-- Only a set bit after a clear one makes the edge. -/
theorem post_spec {k : Command} {postStart : Int} {postClear : Bool} (h : Settling k postStart c posts postClear)
    (post : Sample) (now : Int) :
    (c.r.post postClear post).1.ack = k.ack ∧
    ((c.r.post postClear post).2 = true → ∃ earlier ∈ (post, now) :: posts, earlier.1.comp = false) ∧
    ((c.r.post postClear post).1.edge = true → ∃ later earlier, [later, earlier].Sublist ((post, now) :: posts) ∧
      later.1.comp = true ∧ earlier.1.comp = false) := by
  have kept : c.r.edge = true → ∃ later earlier, [later, earlier].Sublist ((post, now) :: posts) ∧
      later.1.comp = true ∧ earlier.1.comp = false := by
    intro edge
    obtain ⟨later, earlier, sub, set, clear⟩ := h.edge edge
    exact ⟨later, earlier, sub.cons _, set, clear⟩
  unfold Report.post
  dsimp only
  split
  · rename_i clear
    exact ⟨h.ack, fun _ => ⟨_, List.mem_cons_self, clear⟩, kept⟩
  · rename_i set
    split
    · rename_i cleared
      obtain ⟨earlier, mem, clear⟩ := h.clear cleared
      refine ⟨h.ack, fun _ => ⟨earlier, List.mem_cons_of_mem _ mem, clear⟩,
        fun _ => ⟨(post, now), earlier, ?_, ?_, clear⟩⟩
      · exact (List.singleton_sublist.mpr mem).cons_cons _
      · simpa using set
    · rename_i never
      exact ⟨h.ack, fun cleared => absurd cleared never, kept⟩

theorem settle_meets {k : Command} {postStart : Int} {postClear : Bool} (b : Backend) (fuel : Nat)
    (h : Settling k postStart c posts postClear) :
    (settle b postStart fuel postClear c).Meets fun c' => ∃ posts' postClear',
      Settling k postStart c' posts' postClear' ∧ ∃ last ∈ posts'.head?, 5000000 ≤ last.2 - postStart := by
  induction fuel generalizing c posts postClear with
  | zero =>
    obtain ⟨after, base, -, silent⟩ := h.trace
    rw [settle, Exit.Meets, base]
    exact k.disciplined_later postStart silent
  | succ fuel ih =>
    unfold settle
    have grown := reading_trace b c.trace
    generalize b.reading c.trace = read at grown ⊢
    obtain ⟨sample, now, trace⟩ := read
    dsimp only at grown
    subst grown
    obtain ⟨after, base, seen, silent⟩ := h.trace
    have quiet : Silent (.nowUs now :: .snapshot sample :: after) := (silent.cons (by simp)).cons (by simp)
    have disciplined : Disciplined (.nowUs now :: .snapshot sample :: c.trace) := by
      rw [base]
      exact k.disciplined_later postStart quiet
    cases sample with
    | none => exact finish_meets disciplined (by decide)
    | some post =>
      obtain ⟨ack, clear, edge⟩ := post_spec h post now
      dsimp only
      split
      · exact finish_meets disciplined (by decide)
      · rename_i held
        have tracked : Tracked (c.q.sample post now).1 ((post, now) :: (posts ++ k.wire :: k.samples)) :=
          tracked_sample h.tracked (by simpa using held)
        have seen' : readings (.nowUs now :: .snapshot (some post) :: after) = all ((post, now) :: posts) :=
          congrArg ((some post, now) :: ·) seen
        have trace : Event.nowUs now :: .snapshot (some post) :: c.trace =
            (.nowUs now :: .snapshot (some post) :: after) ++ .nowUs postStart :: k.trace := by
          rw [base]
          rfl
        split
        · rename_i late
          exact ⟨disciplined, (post, now) :: posts, _, ⟨⟨_, trace, seen', quiet⟩, tracked, ack, clear, edge⟩,
            (post, now), rfl, late⟩
        · refine @ih _ ((post, now) :: posts) _ ⟨⟨.waitMs (waitFor (5000000 - (now - postStart))) :: .nowUs now ::
            .snapshot (some post) :: after, ?_, seen', quiet.cons (by simp)⟩, tracked, ack, clear, edge⟩
          exact congrArg (Event.waitMs (waitFor (5000000 - (now - postStart))) :: ·) trace

theorem conclude_meets {k : Command} {postStart : Int} {postClear : Bool} {next : Coordinator → Prop}
    (disciplined : Disciplined c.trace) (h : Settling k postStart c posts postClear)
    (late : ∃ last ∈ posts.head?, 5000000 ≤ last.2 - postStart) : (conclude c).Meets next := by
  refine ⟨disciplined, fun confirmed => ?_⟩
  dsimp only at confirmed
  obtain ⟨after, base, seen, -⟩ := h.trace
  split at confirmed
  · cases confirmed
  · rename_i acked
    split at confirmed
    · rename_i edge
      have ack : k.ack = true := h.ack.symm.trans (by simpa using acked)
      refine ⟨after, postStart, k.wire.1, k.wire.2, k.q, k.checked, k.samples, posts, ?_, k.seen, seen,
        h.tracked.steady, late, h.edge edge.1⟩
      change c.trace = _
      rw [base, Command.trace, ack]
    · cases confirmed

/-- The latch is taken and the command is on the wire, acknowledged or not. -/
def Commanded (k : Command) (c : Coordinator) : Prop :=
  c.trace = k.trace ∧ Tracked c.q (k.wire :: k.samples) ∧ c.r.ack = k.ack ∧ c.r.edge = false

private theorem commanded_meets {command : SendReport} (disciplined : Disciplined c.trace) (edge : c.r.edge = false)
    (sent : command.result ≠ .guardRefused → ∃ k : Command, c.trace = k.trace ∧
      Tracked c.q (k.wire :: k.samples) ∧ command.result = if k.ack then .acked else .ackFailed) :
    (c.commanded command).Meets fun c' => ∃ k, Commanded k c' := by
  unfold Coordinator.commanded
  dsimp only
  split
  · exact finish_meets disciplined (by decide)
  · rename_i packet
    obtain ⟨k, trace, tracked, result⟩ := sent (by simpa using packet)
    refine ⟨disciplined, k, trace, tracked, ?_, ?_⟩
    · dsimp only
      rw [result]
      cases k.ack <;> rfl
    · cases command.sample <;> exact edge

theorem attempt_meets (b : Backend) (h : Opening c samples) (qualified : Qualified c.trace) :
    (attempt b c).Meets fun c' => ∃ k, Commanded k c' := by
  have attempted : Opening { c with r := { c.r with attempted := true } } samples :=
    ⟨h.tracked, h.seen, h.edge, h.silent⟩
  unfold attempt
  dsimp only
  generalize b.latchAttempt c.trace = latched
  cases latched with
  | false => exact finish_meets (.inl (h.silent.cons (by simp))) (by decide)
  | true =>
    rw [if_neg nofun]
    obtain ⟨disciplined, report, sent⟩ := sendOcv_spec (b := b) attempted qualified
    refine commanded_meets disciplined ?_ sent
    rw [report]
    exact h.edge

/-- The opening part of the run. -/
theorem begin_meets (b : Backend) : (begin b).Meets fun c => Opening c [] := by
  unfold begin
  dsimp only
  have silent : Silent [] := nofun
  split
  · exact finish_meets (.inl (silent.cons (by simp))) (by decide)
  · split
    · exact finish_meets (.inl ((silent.cons (by simp)).cons (by simp))) (by decide)
    · exact ⟨.inl ((silent.cons (by simp)).cons (by simp)), tracked_nil, rfl, rfl,
        (silent.cons (by simp)).cons (by simp)⟩

theorem run_meets (b : Backend) (m n : Nat) : (run b m n).Meets fun _ => False := by
  unfold run
  refine (begin_meets b).andThen fun c _ opening => ?_
  refine (qualify_meets b m opening).andThen fun c _ ⟨samples, opening, spans⟩ => ?_
  refine (reconfirm_meets b opening spans).andThen fun c _ ⟨samples, opening, qualified⟩ => ?_
  refine (attempt_meets b opening qualified).andThen fun c _ ⟨k, trace, tracked, ack, edge⟩ => ?_
  dsimp only
  have started : Settling k (b.nowUs c.trace) (c.called (.nowUs (b.nowUs c.trace))) [] false := by
    refine ⟨⟨[], congrArg (Event.nowUs (b.nowUs c.trace) :: ·) trace, rfl, nofun⟩, tracked, ack,
      nofun, fun other => ?_⟩
    rw [show c.r.edge = true from other] at edge
    cases edge
  refine (settle_meets b n started).andThen fun c disciplined ⟨posts, postClear, settling, late⟩ => ?_
  exact conclude_meets disciplined settling late

/-- The answers of a trace are those of the backend. -/
def Answered (b : Backend) : List Event → Prop
  | [] => True
  | e :: older => Answered b older ∧ match e with
    | .wasAttempted answer => answer = b.wasAttempted older
    | .identity answer => answer = b.identity older
    | .snapshot sample => sample = b.snapshot older
    | .nowUs now => now = b.nowUs older
    | .latchAttempt answer => answer = b.latchAttempt older
    | .runtimeGate answer => answer = b.runtimeGate older
    | .transmit ack => ack = b.transmit older
    | .waitMs _ | .sendOcv _ => True

def Advances (b : Backend) : Prop :=
  ∀ older t ms sample, Answered b (.snapshot sample :: .waitMs ms :: .nowUs t :: older) →
    t < b.nowUs (.snapshot sample :: .waitMs ms :: .nowUs t :: older)

def Exit.trace : Exit → List Event
  | .spent c => c.trace
  | .finished c => c.trace
  | .on c => c.trace

theorem reading_answered (h : Answered b c.trace) : Answered b (b.reading c.trace).2.2 := ⟨⟨h, rfl⟩, rfl⟩

theorem observe_answered (h : Answered b c.trace) : Answered b (c.observe b).1.trace := by
  have grown := reading_answered h
  unfold Coordinator.observe
  split
  · rename_i now trace read
    rw [read] at grown
    exact grown
  · rename_i s now trace read
    rw [read] at grown
    exact grown

theorem begin_answered (b : Backend) : Answered b (begin b).trace := by
  unfold begin
  dsimp only
  split
  · exact ⟨trivial, rfl⟩
  · split <;> exact ⟨⟨trivial, rfl⟩, rfl⟩

theorem qualify_answered (fuel : Nat) (h : Answered b c.trace) : Answered b (qualify b fuel c).trace := by
  induction fuel generalizing c with
  | zero => exact h
  | succ fuel ih =>
    have grown := observe_answered h
    unfold qualify
    generalize c.observe b = observed at grown
    obtain ⟨c₁, now, held⟩ := observed
    cases held with
    | false => exact grown
    | true =>
      dsimp only
      split
      · exact grown
      · exact ih ⟨grown, trivial⟩

theorem reconfirm_answered (h : Answered b c.trace) : Answered b (reconfirm b c).trace := by
  unfold reconfirm
  dsimp only
  have again : Answered b (c.called (.identity (b.identity c.trace))).trace := ⟨h, rfl⟩
  have grown := observe_answered again
  split
  · exact again
  · generalize (c.called (.identity (b.identity c.trace))).observe b = observed at grown
    obtain ⟨c₁, now, held⟩ := observed
    cases held with
    | false => exact grown
    | true =>
      dsimp only
      split <;> exact grown

theorem sendOcv_answered (h : Answered b c.trace) : Answered b (sendOcv b c).1.trace := by
  have called : Answered b (c.called (.sendOcv c.q)).trace := ⟨h, trivial⟩
  have grown := reading_answered called
  unfold sendOcv
  dsimp only
  split
  · rename_i now trace read
    rw [read] at grown
    exact grown
  · rename_i s now trace read
    rw [read] at grown
    split
    · exact grown
    · split
      · exact ⟨grown, rfl⟩
      · exact ⟨⟨grown, rfl⟩, rfl⟩

theorem attempt_answered (h : Answered b c.trace) : Answered b (attempt b c).trace := by
  unfold attempt
  dsimp only
  have latched : Answered b (.latchAttempt (b.latchAttempt c.trace) :: c.trace) := ⟨h, rfl⟩
  split
  · exact latched
  · have sent := sendOcv_answered (c := Coordinator.called { c with r := { c.r with attempted := true } }
      (.latchAttempt (b.latchAttempt c.trace))) latched
    unfold Coordinator.commanded
    dsimp only
    split <;> exact sent

def Exit.Ends : Exit → Prop
  | .spent _ => False
  | _ => True

theorem sample_held {q : Qualification} {s : Sample} {now : Int} (held : (q.sample s now).2 = true) :
    (q.sample s now).1.lastUs = now ∧ (q.sample s now).1.started = true ∧ (q.sample s now).1.failed = false ∧
      (q.sample s now).1.firstUs = if q.started then q.firstUs else now := by
  unfold Qualification.sample at held ⊢
  split at held
  · cases held
  · rename_i sound
    rw [if_neg sound]
    split at held
    · cases held
    · rename_i fit
      rw [if_neg fit]
      dsimp only at held ⊢
      split at held
      · cases held
      · rename_i narrow
        rw [if_neg narrow]
        refine ⟨rfl, range_started q s now, (range_failed q s now).trans (by simpa using sound), ?_⟩
        dsimp only
        rw [Qualification.range]
        cases q.started <;> rfl

private theorem ready_of_held {q : Qualification} {s : Sample} {now : Int} (held : (q.sample s now).2 = true)
    (long : 120000000 ≤ now - (q.sample s now).1.firstUs) : (q.sample s now).1.ready now = true := by
  obtain ⟨last, started, sound, -⟩ := sample_held held
  simp [Qualification.ready, last, started, sound, maxGapUs, durationUs, long]

/-- A reading that is accepted. -/
theorem observe_held (held : (c.observe b).2.2 = true) : ∃ s,
    (c.observe b).1.trace = .nowUs (c.observe b).2.1 :: .snapshot (some s) :: c.trace ∧
    b.snapshot c.trace = some s ∧ (c.observe b).2.1 = b.nowUs (.snapshot (some s) :: c.trace) ∧
    (c.observe b).1.q = (c.q.sample s (c.observe b).2.1).1 ∧ (c.q.sample s (c.observe b).2.1).2 = true := by
  unfold Coordinator.observe Backend.reading at held ⊢
  dsimp only at held ⊢
  cases read : b.snapshot c.trace with
  | none =>
    rw [read] at held
    cases held
  | some s =>
    rw [read] at held
    exact ⟨s, rfl, rfl, rfl, rfl, held⟩

/-- The first loop ends with a clock that moves in every wait: `k` bounds what the next reading leaves
of the two minutes. -/
theorem qualify_ends_of (advances : Advances b) (k : Nat) (c : Coordinator) (answered : Answered b c.trace)
    (bound : (c.observe b).2.2 = true → 120000000 - ((c.observe b).2.1 - (c.observe b).1.q.firstUs) ≤ k) :
    ∃ fuel, (qualify b fuel c).Ends := by
  induction k using Nat.strongRecOn generalizing c with
  | ind k ih =>
    cases held : (c.observe b).2.2 with
    | false =>
      refine ⟨1, ?_⟩
      rw [qualify, show c.observe b = ((c.observe b).1, (c.observe b).2.1, false) from by rw [← held]]
      trivial
    | true =>
      have left := bound held
      obtain ⟨s, trace, read, clock, q, accepted⟩ := observe_held held
      have whole : c.observe b = ((c.observe b).1, (c.observe b).2.1, true) := by rw [← held]
      generalize (c.observe b).1 = c₁ at *
      generalize (c.observe b).2.1 = now at *
      obtain ⟨-, started, -, -⟩ := sample_held accepted
      by_cases ready : c₁.q.ready now = true
      · refine ⟨1, ?_⟩
        rw [qualify, whole]
        dsimp only
        rw [if_pos ready]
        trivial
      · have early : now - c₁.q.firstUs < 120000000 := by
          rw [q] at ready ⊢
          exact Int.not_le.mp fun long => ready (ready_of_held accepted long)
        have next : Answered b (c₁.called (.waitMs (waitFor (durationUs - (now - c₁.q.firstUs))))).trace := by
          rw [Coordinator.called, trace]
          exact ⟨⟨⟨answered, read.symm⟩, clock⟩, trivial⟩
        obtain ⟨fuel, ends⟩ := ih (k - 1) (by omega)
          (c₁.called (.waitMs (waitFor (durationUs - (now - c₁.q.firstUs))))) next fun held' => by
            obtain ⟨s', -, read', now', q', accepted'⟩ := observe_held held'
            obtain ⟨-, -, -, first⟩ := sample_held accepted'
            rw [q', first, if_pos (by rw [Coordinator.called, q]; exact started), now']
            simp only [Coordinator.called, trace] at next read' ⊢
            have moves := advances (.snapshot (some s) :: c.trace) now (waitFor (durationUs - (now - c₁.q.firstUs)))
              (some s') ⟨next, read'.symm⟩
            omega
        refine ⟨fuel + 1, ?_⟩
        rw [qualify, whole]
        dsimp only
        rw [if_neg ready]
        exact ends

theorem qualify_ends (advances : Advances b) (answered : Answered b c.trace) (fresh : c.q.started = false) :
    ∃ fuel, (qualify b fuel c).Ends := by
  refine qualify_ends_of advances 120000000 c answered fun held => ?_
  obtain ⟨s, -, -, -, q, accepted⟩ := observe_held held
  obtain ⟨-, -, -, first⟩ := sample_held accepted
  rw [q, first, if_neg (by simp [fresh])]
  omega

/-- The same for the second loop. -/
theorem settle_ends_of (advances : Advances b) (postStart : Int) (k : Nat) (postClear : Bool) (c : Coordinator)
    (answered : Answered b c.trace) (bound : 5000000 - ((b.reading c.trace).2.1 - postStart) ≤ k) :
    ∃ fuel, (settle b postStart fuel postClear c).Ends := by
  induction k using Nat.strongRecOn generalizing c postClear with
  | ind k ih =>
    have grown := reading_trace b c.trace
    cases sample : (b.reading c.trace).1 with
    | none =>
      refine ⟨1, ?_⟩
      rw [settle, show b.reading c.trace = (none, (b.reading c.trace).2) from by rw [← sample]]
      trivial
    | some post =>
      have whole : b.reading c.trace = (some post, (b.reading c.trace).2.1,
          (b.reading c.trace).2.2) := by rw [← sample]
      rw [sample] at grown
      have seen : Answered b (b.reading c.trace).2.2 := reading_answered answered
      generalize (b.reading c.trace).2.1 = now at *
      generalize (b.reading c.trace).2.2 = trace at *
      subst grown
      by_cases held : (c.q.sample post now).2 = false
      · refine ⟨1, ?_⟩
        rw [settle, whole]
        dsimp only
        rw [if_pos held]
        trivial
      · by_cases late : 5000000 ≤ now - postStart
        · refine ⟨1, ?_⟩
          rw [settle, whole]
          dsimp only
          rw [if_neg held, if_pos late]
          trivial
        · have moves := advances (.snapshot (some post) :: c.trace) now (waitFor (5000000 - (now - postStart)))
          obtain ⟨fuel, ends⟩ := ih (k - 1) (by omega) (c.r.post postClear post).2
            (Coordinator.called { r := (c.r.post postClear post).1, q := (c.q.sample post now).1,
                                  trace := .nowUs now :: .snapshot (some post) :: c.trace }
              (.waitMs (waitFor (5000000 - (now - postStart))))) ⟨seen, trivial⟩ (by
              have next := moves (b.snapshot (.waitMs (waitFor (5000000 - (now - postStart))) :: .nowUs now ::
                .snapshot (some post) :: c.trace)) ⟨⟨seen, trivial⟩, rfl⟩
              simp only [Backend.reading, Coordinator.called]
              omega)
          refine ⟨fuel + 1, ?_⟩
          rw [settle, whole]
          dsimp only
          rw [if_neg held, if_neg late]
          exact ends

theorem settle_ends (advances : Advances b) (postStart : Int) (postClear : Bool) (answered : Answered b c.trace) :
    ∃ fuel, (settle b postStart fuel postClear c).Ends :=
  settle_ends_of advances postStart (5000000 - ((b.reading c.trace).2.1 - postStart)).toNat postClear c answered
    (Int.self_le_toNat _)

theorem reconfirm_ends (b : Backend) (c : Coordinator) : (reconfirm b c).Ends := by
  unfold reconfirm
  dsimp only
  split
  · trivial
  · split
    · trivial
    · split <;> trivial

theorem attempt_ends (b : Backend) (c : Coordinator) : (attempt b c).Ends := by
  unfold attempt
  dsimp only
  split
  · trivial
  · unfold Coordinator.commanded
    dsimp only
    split <;> trivial

theorem run_ends (advances : Advances b) : ∃ m n c, run b m n = .finished c := by
  unfold run
  cases opened : begin b with
  | spent c =>
    unfold begin at opened
    dsimp only at opened
    split at opened
    · cases opened
    · split at opened <;> cases opened
  | finished c => exact ⟨0, 0, c, rfl⟩
  | on c =>
    have opening := (begin_meets b)
    rw [opened] at opening
    have fresh : c.q.started = false := by
      have empty := opening.2.tracked.started
      simpa using empty
    have answered := begin_answered b
    rw [opened] at answered
    obtain ⟨m, qualified⟩ := qualify_ends advances answered fresh
    cases window : qualify b m c with
    | spent c' =>
      rw [window] at qualified
      cases qualified
    | finished c' => exact ⟨m, 0, c', by simp [Exit.andThen, window]⟩
    | on c₁ =>
      have answered₁ := qualify_answered m answered
      rw [window] at answered₁
      cases again : reconfirm b c₁ with
      | spent c' =>
        have ends := reconfirm_ends b c₁
        rw [again] at ends
        cases ends
      | finished c' => exact ⟨m, 0, c', by simp [Exit.andThen, window, again]⟩
      | on c₂ =>
        have answered₂ := reconfirm_answered answered₁
        rw [again] at answered₂
        cases sent : attempt b c₂ with
        | spent c' =>
          have ends := attempt_ends b c₂
          rw [sent] at ends
          cases ends
        | finished c' => exact ⟨m, 0, c', by simp [Exit.andThen, window, again, sent]⟩
        | on c₃ =>
          have answered₃ := attempt_answered answered₂
          rw [sent] at answered₃
          have started : Answered b (c₃.called (.nowUs (b.nowUs c₃.trace))).trace := ⟨answered₃, rfl⟩
          obtain ⟨n, settled⟩ := settle_ends advances (b.nowUs c₃.trace) false started
          cases last : settle b (b.nowUs c₃.trace) n false (c₃.called (.nowUs (b.nowUs c₃.trace))) with
          | spent c' =>
            rw [last] at settled
            cases settled
          | finished c' => exact ⟨m, n, c', by simp [Exit.andThen, window, again, sent, last]⟩
          | on c₄ => exact ⟨m, n, _, by simp only [Exit.andThen, window, again, sent, last]; rfl⟩

/-- A trace with one command is cut by it in one way only. -/
theorem cut_unique {after newer checked older : List Event} {q q' : Qualification} (silent : Silent after)
    (silent' : Silent checked) (same : after ++ .sendOcv q :: checked = newer ++ .sendOcv q' :: older) :
    newer = after ∧ older = checked := by
  rcases List.append_eq_append_iff.mp same with ⟨between, rfl, rest⟩ | ⟨between, rfl, rest⟩
  · cases between with
    | nil =>
      cases rest
      simp
    | cons e between =>
      cases rest
      exact absurd (List.mem_append_right _ List.mem_cons_self) (silent' q')
  · cases between with
    | nil =>
      cases rest
      simp
    | cons e between =>
      cases rest
      exact absurd (List.mem_append_right _ List.mem_cons_self) (silent q')

theorem run_disciplined (b : Backend) (m n : Nat) : Disciplined (run b m n).trace := by
  have meets := run_meets b m n
  cases ended : run b m n with
  | spent c =>
    rw [ended] at meets
    exact meets
  | finished c =>
    rw [ended] at meets
    exact meets.1
  | on c =>
    rw [ended] at meets
    exact meets.1

/-- For every backend: the command is sent once at most, right after the latch and after a window of two
minutes with the identity and a reading after it; a confirmed run has seen it acknowledged and the
completion bit clear and then set in five further seconds; and with a clock that moves the run ends. -/
theorem sends_once_qualified (b : Backend) :
    (∀ m n newer q older, (run b m n).trace = newer ++ .sendOcv q :: older → Silent newer ∧ Silent older ∧
      ∃ checked, older = .latchAttempt true :: checked ∧ Qualified checked) ∧
    (∀ m n c, run b m n = .finished c → c.r.result = .confirmed → Confirming c.trace) ∧
    (Advances b → ∃ m n c, run b m n = .finished c) := by
  refine ⟨?_, ?_, run_ends⟩
  · intro m n newer q older cut
    rcases run_disciplined b m n with silent | ⟨after, q', checked, whole, silent, silent', qualified⟩
    · rw [cut] at silent
      exact absurd (List.mem_append_right _ List.mem_cons_self) (silent q)
    · have latched : Silent (.latchAttempt true :: checked) := silent'.cons (by simp)
      obtain ⟨rfl, rfl⟩ := cut_unique silent latched (whole.symm.trans cut)
      exact ⟨silent, latched, checked, rfl, qualified⟩
  · intro m n c ended
    have meets := run_meets b m n
    rw [ended] at meets
    exact meets.2

def waitClock : List Event → Int
  | .nowUs now :: _ => now
  | .waitMs _ :: older => waitClock older + 1000000
  | _ :: older => waitClock older
  | [] => 0

def waits : List Event → Option Nat
  | .sendOcv _ :: _ => some 0
  | .waitMs _ :: older => (waits older).map (· + 1)
  | _ :: older => waits older
  | [] => none

/-- A full battery at rest, which completes two seconds after the command. -/
def restingBackend : Backend where
  wasAttempted _ := false
  identity _ := true
  snapshot older := some { temperatureDeciK := 2982, voltageMv := 4194, remainingMah := 50, fcc := 65,
                           batteryStatus := if (waits older).any (2 ≤ ·) then 0x5028 else 0x1028,
                           dc := 65, soc := 77, operation := 0xA6 }
  nowUs := waitClock
  latchAttempt _ := true
  runtimeGate _ := true
  transmit _ := true

def Exit.confirms : Exit → Bool
  | .finished c => c.r.result == .confirmed
  | _ => false

private theorem resting_confirms : (run restingBackend 121 6).confirms = true := by
  decide +kernel

/-- The run ends, and it ends confirmed with one command. -/
theorem sends_once_qualified_resting : (∃ m n c, run restingBackend m n = .finished c) ∧
    ∃ c, run restingBackend 121 6 = .finished c ∧ Confirming c.trace ∧ ∃ newer q checked,
      c.trace = newer ++ .sendOcv q :: .latchAttempt true :: checked ∧ Silent newer ∧ Qualified checked := by
  obtain ⟨once, confirming, ends⟩ := sends_once_qualified restingBackend
  refine ⟨ends fun older t ms sample _ => ?_, ?_⟩
  · simp only [restingBackend, waitClock]
    omega
  · cases ended : run restingBackend 121 6 with
    | spent c | on c =>
      have confirms := resting_confirms
      rw [ended] at confirms
      cases confirms
    | finished c =>
      have confirms := resting_confirms
      rw [ended] at confirms
      have seen := confirming 121 6 c ended (by simpa [Exit.confirms] using confirms)
      obtain ⟨after, postStart, wire, wired, q, checked, samples, posts, trace, -⟩ := id seen
      have cut : (run restingBackend 121 6).trace = (after ++ [.nowUs postStart, .transmit true, .runtimeGate true,
          .nowUs wired, .snapshot (some wire)]) ++ .sendOcv q :: .latchAttempt true :: checked := by
        rw [ended, Exit.trace, trace, List.append_assoc]
        rfl
      obtain ⟨silent, -, checked', same, qualified⟩ := once 121 6 _ q _ cut
      obtain rfl := (List.cons.inj same).2
      rw [ended] at cut
      exact ⟨c, rfl, seen, _, q, checked, cut, silent, qualified⟩

end Mosaico.Gauge.OcvDiagnostic
