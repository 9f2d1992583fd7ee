import Mosaico.Gauge.ThresholdJournal

/-! The threshold audit over one durable record: what a run may do at each call, wherever it is cut, and
what an unresolved record forbids to the runs after it. -/
namespace Mosaico.Gauge.ThresholdAudit

open Interaction

/-- A call with its answer, what is durable after it and the generation of the last completed record. -/
structure Entry where
  call : Call
  answer : Answer call
  durable : Option Journal
  completed : UInt32

/-- The log of a run has the newest entry first. -/
structure World where
  durable : Option Journal
  completed : UInt32
  log : List Entry

def lastCompleted (durable : Option Journal) (before : UInt32) : UInt32 :=
  match durable with
  | some j => if j.state = .completed then j.generation else before
  | none => before

/-- Loads are truthful or fail. A save that fails leaves the old record or the new one. -/
def Keeps : (c : Call) → Option Journal → Answer c → Option Journal → Prop
  | .load, old, .absent, new => old = none ∧ new = old
  | .load, old, .present j, new => old = some j ∧ new = old
  | .saveReadback j, old, ok, new => (new = old ∨ new = some j) ∧ (ok = true → new = some j)
  | _, old, _, new => new = old

def World.after (w : World) (c : Call) (r : Answer c) (durable : Option Journal) : World where
  durable := durable
  completed := lastCompleted durable w.completed
  log := ⟨c, r, durable, lastCompleted durable w.completed⟩ :: w.log

def own : Behaviour Call Answer World := fun c w r w' =>
  ∃ durable, Keeps c w.durable r durable ∧ w' = w.after c r durable

def Saved (j : Journal) (log : List Entry) : Prop :=
  ∃ durable completed, (⟨.saveReadback j, true, durable, completed⟩ : Entry) ∈ log

/-- The first save of a run, with its acknowledgement. -/
def PendingSaved (log : List Entry) : Prop :=
  ∃ j, j.state = .pending ∧ j.flags = Flag.unsealIntent.bit ∧ Saved j log

def has (j : Journal) (flag : Flag) : Bool := j.flags &&& flag.bit != 0

def Resolved (durable : Option Journal) : Prop := ∀ j, durable = some j → j.state = .completed

def Call.isKey : Call → Bool
  | .unseal | .full | .close => true
  | _ => false

def closes (log : List Entry) : Nat := log.countP fun e => e.call == .close

/-- What is durable when a call is made, and what was done before it in the same run. -/
def Admits (start : Option Journal) (e : Entry) (older : List Entry) : Prop :=
  match e.call with
  | .unseal => Resolved start ∧ ∃ j, e.durable = some j ∧ j.state = .pending ∧
      j.generation.toNat = e.completed.toNat + 1 ∧ Saved j older
  | .full => Resolved start ∧ ∃ j, e.durable = some j ∧ has j .unsealVerified = true ∧ Saved j older
  | .close => Resolved start ∧ PendingSaved older ∧ closes older = 0
  | .saveReadback j => Resolved start ∧ shape j = true
  | _ => True

def Orderly (start : Option Journal) : List Entry → Prop
  | [] => True
  | e :: older => Admits start e older ∧ Orderly start older

/-- What holds wherever a run is cut. -/
structure Sound (start : Option Journal) (w : World) : Prop where
  orderly : Orderly start w.log
  last : ∀ e older, w.log = e :: older → e.durable = w.durable
  completed : ∀ j, w.durable = some j → j.state = .completed → j.generation = w.completed
  empty : w.durable = none → w.completed = 0
  stays : Resolved start ∨ w.durable = start
  unsealed : ∀ e ∈ w.log, e.call = .unseal → w.durable ≠ none

variable {start : Option Journal} {w w' : World} {c : Call} {j : Journal}

theorem lastCompleted_of_pending {durable : Option Journal} (k : UInt32)
    (h : ∀ j, durable = some j → j.state = .completed → j.generation = k) : lastCompleted durable k = k := by
  unfold lastCompleted
  split
  · rename_i j
    split
    · rename_i done
      exact h j rfl done
    · rfl
  · rfl

/-- A call that saves nothing. -/
theorem sound_quiet (h : Sound start w) {r : Answer c} (step : own c w r w')
    (same : ∀ new, Keeps c w.durable r new → new = w.durable)
    (admits : Admits start ⟨c, r, w.durable, w.completed⟩ w.log)
    (unsealed : c = .unseal → w.durable ≠ none) :
    Sound start w' ∧ w' = ⟨w.durable, w.completed, ⟨c, r, w.durable, w.completed⟩ :: w.log⟩ := by
  obtain ⟨durable, keeps, rfl⟩ := step
  obtain rfl := same durable keeps
  have whole : w.after c r w.durable = ⟨w.durable, w.completed, ⟨c, r, w.durable, w.completed⟩ :: w.log⟩ := by
    rw [World.after, lastCompleted_of_pending w.completed h.completed]
  rw [whole]
  refine ⟨⟨⟨admits, h.orderly⟩, ?_, h.completed, h.empty, h.stays, ?_⟩, rfl⟩
  · intro e older cut
    cases cut
    rfl
  · intro e mem key
    rcases List.mem_cons.mp mem with rfl | old
    · exact unsealed key
    · exact h.unsealed e old key

/-- A save of a journal in shape. -/
theorem sound_save (h : Sound start w) (resolved : Resolved start) (shaped : shape j = true) {ok : Bool}
    (step : own (.saveReadback j) w ok w') :
    Sound start w' ∧ (∃ e, e.call = .saveReadback j ∧ w'.log = e :: w.log) ∧
      (ok = true → w'.durable = some j ∧ Saved j w'.log) ∧
      (w'.completed = w.completed ∨ j.state = .completed) := by
  obtain ⟨durable, ⟨either, acked⟩, rfl⟩ := step
  refine ⟨⟨⟨⟨resolved, shaped⟩, h.orderly⟩, ?_, ?_, ?_, .inl resolved, ?_⟩, ⟨_, rfl, rfl⟩, ?_, ?_⟩
  · intro e older cut
    cases cut
    rfl
  · intro j' here done
    rw [World.after] at here ⊢
    dsimp only at here ⊢
    rw [here, lastCompleted, if_pos done]
  · intro none
    rcases either with same | new
    · rw [World.after] at none ⊢
      dsimp only at none ⊢
      rw [none]
      exact h.empty (same.symm.trans none)
    · rw [World.after] at none
      dsimp only at none
      rw [new] at none
      cases none
  · intro e mem key none
    rcases List.mem_cons.mp mem with rfl | old
    · cases key
    · rcases either with same | new
      · exact h.unsealed e old key (same.symm.trans none)
      · exact absurd (new.symm.trans none) nofun
  · intro ack
    subst ack
    exact ⟨acked rfl, _, _, List.mem_cons_self⟩
  · rcases either with same | new
    · rw [same]
      exact .inl (lastCompleted_of_pending w.completed h.completed)
    · by_cases done : j.state = .completed
      · exact .inr done
      · refine .inl ?_
        rw [World.after, new, lastCompleted, if_neg done]

theorem Saved.mono {log log' : List Entry} (h : Saved j log) (sub : log ⊆ log') : Saved j log' := by
  obtain ⟨durable, completed, mem⟩ := h
  exact ⟨durable, completed, sub mem⟩

theorem PendingSaved.mono {log log' : List Entry} (h : PendingSaved log) (sub : log ⊆ log') : PendingSaved log' := by
  obtain ⟨j, state, flags, saved⟩ := h
  exact ⟨j, state, flags, saved.mono sub⟩

/-- The first record of the run is saved and its cleanup is still to come. -/
structure Open (start : Option Journal) (w : World) : Prop where
  sound : Sound start w
  resolved : Resolved start
  pending : PendingSaved w.log
  unclosed : closes w.log = 0

theorem Open.quiet (h : Open start w) {r : Answer c} (step : own c w r w')
    (same : ∀ new, Keeps c w.durable r new → new = w.durable)
    (admits : Admits start ⟨c, r, w.durable, w.completed⟩ w.log) (unsealed : c = .unseal → w.durable ≠ none)
    (other : c ≠ .close) :
    Open start w' ∧ w'.durable = w.durable ∧ w.log ⊆ w'.log := by
  obtain ⟨sound, rfl⟩ := sound_quiet h.sound step same admits unsealed
  refine ⟨⟨sound, h.resolved, h.pending.mono (List.subset_cons_self _ _), ?_⟩, rfl, List.subset_cons_self _ _⟩
  rw [closes, List.countP_cons_of_neg (by simpa using other)]
  exact h.unclosed

theorem Open.save (h : Open start w) (shaped : shape j = true) {ok : Bool}
    (step : own (.saveReadback j) w ok w') :
    Open start w' ∧ (ok = true → w'.durable = some j ∧ Saved j w'.log) := by
  obtain ⟨sound, ⟨e, call, log⟩, acked, -⟩ := sound_save h.sound h.resolved shaped step
  refine ⟨⟨sound, h.resolved, ?_, ?_⟩, acked⟩
  · rw [log]
    exact h.pending.mono (List.subset_cons_self _ _)
  · rw [log, closes, List.countP_cons_of_neg (by simp [call])]
    exact h.unclosed

/-- The journal of a run at work, that of one in which all went well so far. -/
structure Working (j : Journal) (ok : Bool) : Prop where
  schema : j.schema = 2
  pending : j.state = .pending
  generation : j.generation ≠ 0
  flags : j.flags &&& ~~~127 = 0
  readCount : j.readCount ≤ fieldCount
  whole : ok = true → j.flags = 59 ∧ j.readCount = fieldCount

theorem Working.shape {ok : Bool} (h : Working j ok) : shape j = true := by
  simp [ThresholdAudit.shape, journalFieldCount, h.schema, h.pending, h.generation, h.flags, h.readCount]

def firstJournal (mac : ByteFields.Bytes 6) (generation : UInt32) : Journal :=
  { mac := mac, generation := generation, flags := Flag.unsealIntent.bit }

variable {mac : ByteFields.Bytes 6} {generation : UInt32}

theorem working_flags (nonzero : generation ≠ 0) (flags : UInt16) (known : flags &&& ~~~127 = 0) :
    Working { mac := mac, generation := generation, flags := flags } false :=
  ⟨rfl, rfl, nonzero, known, show (0 : UInt8) ≤ 59 by decide, nofun⟩

theorem flag_unsealed : (firstJournal mac generation).flag [.unsealVerified, .fullIntent] =
    { mac := mac, generation := generation, flags := 11 } := by
  simp [Journal.flag, firstJournal, Flag.bit]
  decide

private theorem flag_full : Journal.flag { mac := mac, generation := generation, flags := 11 } [.fullVerified] =
    { mac := mac, generation := generation, flags := 27 } := by
  simp [Journal.flag, Flag.bit]
  decide

private theorem flag_read : Journal.flag { mac := mac, generation := generation, flags := 27 } [.readVerified] =
    { mac := mac, generation := generation, flags := 59 } := by
  simp [Journal.flag, Flag.bit]
  decide

theorem access_wp (h : Open start w) (durable : w.durable = some (firstJournal mac generation))
    (saved : Saved (firstJournal mac generation) w.log) (next : generation.toNat = w.completed.toNat + 1) :
    (access (firstJournal mac generation)).wp own (fun x w => Open start w ∧ Working x.1 x.2.1) (Sound start) w := by
  have nonzero : generation ≠ 0 := by
    rintro rfl
    cases next
  unfold access
  rw [Prog.wp_perform_bind]
  intro ok w₁ step
  have admits : Admits start ⟨.unseal, ok, w.durable, w.completed⟩ w.log :=
    ⟨h.resolved, _, durable, rfl, next, saved⟩
  obtain ⟨open₁, -, -⟩ := h.quiet step (fun _ keeps => keeps) admits (fun _ => by rw [durable]; nofun) nofun
  refine ⟨open₁.sound, ?_⟩
  split
  · exact ⟨open₁, working_flags nonzero 1 (by decide)⟩
  · dsimp only
    rw [flag_unsealed, Prog.wp_perform_bind]
    have working : Working { mac := mac, generation := generation, flags := 11 } false :=
      working_flags nonzero 11 (by decide)
    intro saved₂ w₂ step
    obtain ⟨open₂, acked⟩ := open₁.save working.shape step
    refine ⟨open₂.sound, ?_⟩
    split
    · exact ⟨open₂, working⟩
    · rename_i ack
      obtain ⟨durable₂, saved₂⟩ := acked (by simpa using ack)
      rw [Prog.wp_perform_bind]
      intro ok₃ w₃ step
      have admits₃ : Admits start ⟨.full, ok₃, w₂.durable, w₂.completed⟩ w₂.log :=
        ⟨h.resolved, _, durable₂, show (11 : UInt16) &&& 8 != 0 by decide, saved₂⟩
      obtain ⟨open₃, -, -⟩ := open₂.quiet step (fun _ keeps => keeps) admits₃ nofun nofun
      refine ⟨open₃.sound, ?_⟩
      split
      · exact ⟨open₃, working⟩
      · rw [flag_full, Prog.wp_perform_bind]
        have working : Working { mac := mac, generation := generation, flags := 27 } false :=
          working_flags nonzero 27 (by decide)
        intro saved₄ w₄ step
        obtain ⟨open₄, -⟩ := open₃.save working.shape step
        refine ⟨open₄.sound, ?_⟩
        split
        · exact ⟨open₄, working⟩
        · rw [Prog.wp_perform_bind]
          intro ok₅ w₅ step
          obtain ⟨open₅, -, -⟩ := open₄.quiet step (fun _ keeps => keeps) trivial nofun nofun
          refine ⟨open₅.sound, ?_⟩
          split
          · exact ⟨open₅, working⟩
          · rw [Prog.wp_perform_bind]
            intro crc w₆ step
            obtain ⟨open₆, -, -⟩ := open₅.quiet step (fun _ keeps => keeps) trivial nofun nofun
            refine ⟨open₆.sound, open₆, ?_⟩
            rw [flag_read]
            exact ⟨rfl, rfl, nonzero, show (59 : UInt16) &&& ~~~127 = 0 by decide, show (59 : UInt8) ≤ 59 by decide,
              fun _ => ⟨rfl, rfl⟩⟩

/-- What a run that has come to its end did to the access. -/
def Settled (w : World) : Prop :=
  (PendingSaved w.log ∧ closes w.log = 1) ∨ (¬PendingSaved w.log ∧ closes w.log = 0)

theorem Working.seal (known : j.flags &&& ~~~127 = 0) (flag : Flag) : (j.flags ||| flag.bit) &&& ~~~127 = 0 := by
  have split : (j.flags ||| flag.bit) &&& ~~~127 = (j.flags &&& ~~~127) ||| (flag.bit &&& ~~~127) :=
    UInt16.toBitVec_inj.mp BitVec.and_or_distrib_right
  rw [split, known]
  cases flag <;> decide

theorem Open.close (h : Open start w) {closed : Bool} (step : own .close w closed w') :
    Sound start w' ∧ PendingSaved w'.log ∧ closes w'.log = 1 := by
  have admits : Admits start ⟨.close, closed, w.durable, w.completed⟩ w.log := ⟨h.resolved, h.pending, h.unclosed⟩
  obtain ⟨sound, rfl⟩ := sound_quiet h.sound step (fun _ keeps => keeps) admits nofun
  refine ⟨sound, h.pending.mono (List.subset_cons_self _ _), ?_⟩
  rw [closes, List.countP_cons_of_pos (by simp)]
  exact congrArg (· + 1) h.unclosed

private theorem shape_of {state : State} (schema : j.schema = 2) (generation : j.generation ≠ 0)
    (known : j.flags &&& ~~~127 = 0) (readCount : j.readCount ≤ fieldCount)
    (whole : state = .completed → j.flags = 127 ∧ j.readCount = fieldCount) :
    shape { j with state := state } = true := by
  simp only [shape, journalFieldCount, schema, Bool.and_eq_true, Bool.or_eq_true, beq_iff_eq, bne_iff_ne,
    decide_eq_true_eq]
  refine ⟨⟨⟨⟨.inr trivial, known⟩, generation⟩, readCount⟩, ?_⟩
  by_cases completed : state = .completed
  · exact .inr (whole completed)
  · exact .inl completed

/-- The journal that closes a run is in shape: a run that completes has set every flag. -/
theorem shape_last {ok closing closed : Bool} (working : Working j ok) :
    let j := j.flag [.sealIntent]
    let j := if closed then j.flag [.closeVerified] else j
    shape { j with state := if ok ∧ closing ∧ closed then .completed else .failed } = true := by
  dsimp only
  have sealed := Working.seal working.flags .sealIntent
  cases closed with
  | false =>
    refine shape_of (j := j.flag [.sealIntent]) working.schema working.generation sealed working.readCount ?_
    simp
  | true =>
    refine shape_of (j := (j.flag [.sealIntent]).flag [.closeVerified]) working.schema working.generation
      (Working.seal (j := j.flag [.sealIntent]) sealed .closeVerified) working.readCount fun completed => ?_
    have well : ok = true := by
      by_contra other
      rw [if_neg (by simp [other])] at completed
      cases completed
    obtain ⟨flags, readCount⟩ := working.whole well
    refine ⟨?_, readCount⟩
    simp only [Journal.flag, List.foldl_cons, List.foldl_nil, flags, Flag.bit]
    decide

theorem cleanup_wp {ok : Bool} (h : Open start w) (working : Working j ok) (readable : Bool) :
    (cleanup j ok readable).wp own (fun _ w => Settled w) (Sound start) w := by
  unfold cleanup
  dsimp only
  rw [Prog.wp_perform_bind]
  have sealed : Working (j.flag [.sealIntent]) false :=
    ⟨working.schema, working.pending, working.generation, Working.seal working.flags .sealIntent,
      working.readCount, nofun⟩
  intro closing w₁ step
  obtain ⟨open₁, -⟩ := h.save sealed.shape step
  refine ⟨open₁.sound, ?_⟩
  rw [Prog.wp_perform_bind]
  intro closed w₂ step
  obtain ⟨sound₂, pending, closes₂⟩ := open₁.close step
  refine ⟨sound₂, ?_⟩
  rw [Prog.wp_perform_bind]
  intro recorded w₃ step
  obtain ⟨sound₃, ⟨e, call, log⟩, -, -⟩ := sound_save sound₂ h.resolved (shape_last working) step
  refine ⟨sound₃, .inl ⟨?_, ?_⟩⟩
  · rw [log]
    exact pending.mono (List.subset_cons_self _ _)
  · rw [log, closes, List.countP_cons_of_neg (by simp [call])]
    exact closes₂

theorem attempt_wp (h : Sound start w) (resolved : Resolved start) (next : generation.toNat = w.completed.toNat + 1)
    (unclosed : closes w.log = 0) (unsaved : ¬PendingSaved w.log) :
    (attempt mac generation).wp own (fun _ w => Settled w) (Sound start) w := by
  have nonzero : generation ≠ 0 := by
    rintro rfl
    cases next
  have working : Working (firstJournal mac generation) false := working_flags nonzero 1 (by decide)
  unfold attempt
  dsimp only
  rw [Prog.wp_perform_bind]
  intro ok w₁ step
  obtain ⟨sound, ⟨e, call, log⟩, acked, kept⟩ := sound_save h resolved working.shape step
  have closes₁ : closes w₁.log = 0 := by
    rw [log, closes, List.countP_cons_of_neg (by simp [call])]
    exact unclosed
  refine ⟨sound, ?_⟩
  split
  · rename_i refused
    refine .inr ⟨?_, closes₁⟩
    rintro ⟨j, state, flags, durable, completed, mem⟩
    obtain ⟨durable', -, rfl⟩ := step
    rcases List.mem_cons.mp mem with same | old
    · cases same
      cases refused
    · exact unsaved ⟨j, state, flags, durable, completed, old⟩
  · rename_i ack
    obtain ⟨durable, saved⟩ := acked (by simpa using ack)
    have open_ : Open start w₁ := ⟨sound, resolved, ⟨_, rfl, rfl, saved⟩, closes₁⟩
    have next₁ : generation.toNat = w₁.completed.toNat + 1 := by
      rcases kept with same | done
      · rw [same]
        exact next
      · cases done
    refine Prog.wp_bind (access_wp open_ durable saved next₁) fun x t ⟨opened, worked⟩ => ?_
    exact cleanup_wp opened worked _

/-- Nothing has been sent and nothing saved. -/
structure Idle (start : Option Journal) (w : World) : Prop where
  sound : Sound start w
  unclosed : closes w.log = 0
  unsaved : ¬PendingSaved w.log

theorem Idle.settled (h : Idle start w) : Settled w := .inr ⟨h.unsaved, h.unclosed⟩

def Call.passive : Call → Bool
  | .load | .wasAttempted | .preflight | .claimAttempt => true
  | _ => false

private theorem keeps_passive (passive : c.passive = true) {old new : Option Journal} {r : Answer c}
    (keeps : Keeps c old r new) : new = old := by
  cases c with
  | load =>
    cases r with
    | absent => exact keeps.2
    | present j => exact keeps.2
    | invalid => exact keeps
  | wasAttempted | preflight | claimAttempt => exact keeps
  | _ => cases passive

theorem Idle.quiet (h : Idle start w) (passive : c.passive = true) {r : Answer c} (step : own c w r w') :
    Idle start w' ∧ w'.completed = w.completed := by
  have admits : Admits start ⟨c, r, w.durable, w.completed⟩ w.log := by
    cases c with
    | load | wasAttempted | preflight | claimAttempt => trivial
    | _ => cases passive
  obtain ⟨sound, rfl⟩ := sound_quiet h.sound step (fun _ keeps => keeps_passive passive keeps) admits
    (fun key => by rw [key] at passive; cases passive)
  refine ⟨⟨sound, ?_, ?_⟩, rfl⟩
  · rw [closes, List.countP_cons_of_neg]
    · exact h.unclosed
    · simp only [beq_iff_eq]
      rintro rfl
      cases passive
  · rintro ⟨j, state, flags, durable, completed, mem⟩
    rcases List.mem_cons.mp mem with same | old
    · cases same
      cases passive
    · exact h.unsaved ⟨j, state, flags, durable, completed, old⟩

/-- What a loaded record says of the start of the run. -/
theorem next_of_load (h : Sound start w) (durable : w.durable = start) {loaded : Load} {new : Option Journal}
    (keeps : Keeps .load w.durable loaded new) {g : UInt32} (next : nextGeneration loaded = some g) :
    Resolved start ∧ g.toNat = w.completed.toNat + 1 := by
  cases loaded with
  | absent =>
    cases next
    refine ⟨fun j here => ?_, ?_⟩
    · rw [← durable, keeps.1] at here
      cases here
    · rw [h.empty keeps.1]
      rfl
  | present old =>
    simp only [nextGeneration] at next
    split at next
    · cases next
    · rename_i allowed
      simp only [not_or, not_not] at allowed
      cases next
      refine ⟨fun j here => ?_, ?_⟩
      · rw [← durable, keeps.1] at here
        cases here
        exact allowed.1
      · rw [← h.completed old keeps.1 allowed.1]
        have room : old.generation.toNat ≠ 4294967295 := fun full => allowed.2 (UInt32.toNat_inj.mp full)
        have bound := old.generation.toNat_lt
        rw [UInt32.toNat_add]
        exact Nat.mod_eq_of_lt (by change old.generation.toNat + 1 < 2 ^ 32; omega)
  | invalid => cases next

theorem run_wp (h : Idle start w) (durable : w.durable = start) :
    run.wp own (fun _ w => Settled w) (Sound start) w := by
  unfold run
  rw [Prog.wp_perform_bind]
  intro loaded w₁ step
  have known : ∀ g, nextGeneration loaded = some g → Resolved start ∧ g.toNat = w.completed.toNat + 1 := by
    obtain ⟨new, keeps, -⟩ := step
    exact fun g next => next_of_load h.sound durable keeps next
  obtain ⟨idle₁, completed₁⟩ := h.quiet rfl step
  refine ⟨idle₁.sound, ?_⟩
  rw [Prog.wp_perform_bind]
  intro attempted w₂ step
  obtain ⟨idle₂, completed₂⟩ := idle₁.quiet rfl step
  refine ⟨idle₂.sound, ?_⟩
  split
  · exact idle₂.settled
  · split
    · exact idle₂.settled
    · rename_i generation next
      obtain ⟨resolved, follows⟩ := known generation next
      rw [Prog.wp_perform_bind]
      intro mac w₃ step
      obtain ⟨idle₃, completed₃⟩ := idle₂.quiet rfl step
      refine ⟨idle₃.sound, ?_⟩
      cases mac with
      | none => exact idle₃.settled
      | some mac =>
        dsimp only
        rw [Prog.wp_perform_bind]
        intro claimed w₄ step
        obtain ⟨idle₄, completed₄⟩ := idle₃.quiet rfl step
        refine ⟨idle₄.sound, ?_⟩
        split
        · exact idle₄.settled
        · refine attempt_wp idle₄.sound resolved ?_ idle₄.unclosed idle₄.unsaved
          rw [completed₄, completed₃, completed₂, completed₁]
          exact follows

def World.reboot (w : World) : World := { w with log := [] }

def fresh (durable : Option Journal) : World := ⟨durable, lastCompleted durable 0, []⟩

/-- The runs of the audit one after the other, each cut anywhere or not at all: the logs of the runs
before, the newest first, and the world of the last one. -/
inductive Boots (durable : Option Journal) : List (List Entry) → World → Prop where
  | first {w : World} : run.Visits own (fresh durable) w → Boots durable [] w
  | next {logs : List (List Entry)} {v w : World} : Boots durable logs v → run.Visits own v.reboot w →
      Boots durable (v.log :: logs) w

/-- What the runs hand over. -/
structure Consistent (w : World) : Prop where
  completed : ∀ j, w.durable = some j → j.state = .completed → j.generation = w.completed
  empty : w.durable = none → w.completed = 0

theorem consistent_fresh (durable : Option Journal) : Consistent (fresh durable) := by
  refine ⟨fun j here done => ?_, fun none => ?_⟩
  · rw [fresh] at here ⊢
    dsimp only at here ⊢
    rw [here, lastCompleted, if_pos done]
  · rw [fresh] at none ⊢
    dsimp only at none ⊢
    rw [none, lastCompleted]

theorem idle_reboot (h : Consistent w) (empty : w.log = []) : Idle w.durable w := by
  refine ⟨⟨?_, ?_, h.completed, h.empty, .inr rfl, ?_⟩, ?_, ?_⟩
  · rw [empty]
    trivial
  · intro e older cut
    rw [empty] at cut
    cases cut
  · intro e mem
    rw [empty] at mem
    cases mem
  · rw [empty]
    rfl
  · rintro ⟨j, -, -, durable, completed, mem⟩
    rw [empty] at mem
    cases mem

theorem sound_visits (h : Consistent w) (empty : w.log = []) (visited : run.Visits own w w') :
    Sound w.durable w' :=
  Prog.wp_visits (run_wp (idle_reboot h empty) rfl) (idle_reboot h empty).sound visited

theorem consistent_reboot (h : Sound start w) : Consistent w.reboot := ⟨h.completed, h.empty⟩

theorem settled_of_ends (h : Consistent w) (empty : w.log = []) {result : Result} (ended : run.Ends own w result w') :
    Settled w' :=
  Prog.wp_ends (a := result) (run_wp (idle_reboot h empty) rfl) ended

theorem boots_sound {durable : Option Journal} {logs : List (List Entry)} (h : Boots durable logs w) :
    ∃ start, Sound start w := by
  induction h with
  | first visited => exact ⟨_, sound_visits (consistent_fresh durable) rfl visited⟩
  | next _ visited ih =>
    obtain ⟨start, sound⟩ := ih
    exact ⟨_, sound_visits (consistent_reboot sound) rfl visited⟩

theorem orderly_cut {log newer older : List Entry} {e : Entry} (h : Orderly start log)
    (cut : log = newer ++ e :: older) : Admits start e older := by
  induction newer generalizing log with
  | nil =>
    rw [cut] at h
    exact h.1
  | cons x newer ih =>
    rw [cut] at h
    exact ih h.2 rfl

/-- A run that begins with an unresolved record sends nothing and leaves the record. -/
theorem blocked (h : Sound start w) (unresolved : ¬Resolved start) :
    w.durable = start ∧ ∀ e ∈ w.log, e.call.isKey = false := by
  refine ⟨h.stays.resolve_left unresolved, fun e mem => ?_⟩
  obtain ⟨newer, older, cut⟩ := List.append_of_mem mem
  have admits := orderly_cut h.orderly cut
  obtain ⟨call, answer, durable, completed⟩ := e
  cases call with
  | load | wasAttempted | preflight | claimAttempt | saveReadback | readThresholds | snapshotCrc => rfl
  | _ => exact absurd admits.1 unresolved

/-- A record that was left behind after the first key. -/
theorem unresolved_of_key (h : Sound start w) {after before : List Entry} {e : Entry}
    (cut : w.log = after ++ e :: before) (key : e.call = .unseal)
    (never : ∀ x ∈ after, ∀ j, x.durable = some j → j.state ≠ .completed) : ¬Resolved w.durable := by
  have held := h.unsealed e (by rw [cut]; exact List.mem_append_right _ List.mem_cons_self) key
  obtain ⟨j, here⟩ := Option.ne_none_iff_exists'.mp held
  have open_ : j.state ≠ .completed := by
    cases after with
    | nil =>
      have admits := orderly_cut h.orderly cut
      have last := h.last e before cut
      obtain ⟨call, answer, durable, completed⟩ := e
      cases key
      obtain ⟨-, j', durable', pending, -⟩ := admits
      rw [← last, durable'] at here
      cases here
      rw [pending]
      nofun
    | cons x after =>
      have last := h.last x (after ++ e :: before) cut
      exact never x List.mem_cons_self j (last.trans here)
  exact fun resolved => open_ (resolved j here)

theorem boots_blocked {durable : Option Journal} {logs newer older : List (List Entry)} {log : List Entry}
    (h : Boots durable logs w) (cut : logs = newer ++ log :: older) {after before : List Entry} {e : Entry}
    (inner : log = after ++ e :: before) (key : e.call = .unseal)
    (never : ∀ x ∈ after, ∀ j, x.durable = some j → j.state ≠ .completed) :
    ¬Resolved w.durable ∧ ∀ later ∈ w.log :: newer, ∀ x ∈ later, x.call.isKey = false := by
  induction h generalizing newer with
  | first _ => cases newer <;> cases cut
  | next boots visited ih =>
    rename_i logs v w
    obtain ⟨start, sound⟩ := boots_sound boots
    have sound' : Sound v.durable w := sound_visits (w := v.reboot) (consistent_reboot sound) rfl visited
    cases newer with
    | nil =>
      obtain ⟨same, rfl⟩ := List.cons.inj cut
      have unresolved := unresolved_of_key sound (same.trans inner) key never
      obtain ⟨kept, quiet⟩ := blocked sound' unresolved
      refine ⟨by rw [kept]; exact unresolved, fun later mem => ?_⟩
      rw [List.mem_singleton.mp mem]
      exact quiet
    | cons x newer =>
      obtain ⟨rfl, rest⟩ := List.cons.inj cut
      obtain ⟨unresolved, quiet⟩ := ih rest
      obtain ⟨kept, quiet'⟩ := blocked sound' unresolved
      refine ⟨by rw [kept]; exact unresolved, fun later mem => ?_⟩
      rcases List.mem_cons.mp mem with rfl | old
      · exact quiet'
      · exact quiet later old

private theorem orderly_closes {log : List Entry} (h : Orderly start log) : closes log ≤ 1 := by
  induction log with
  | nil => exact Nat.zero_le _
  | cons e older ih =>
    by_cases close : e.call = .close
    · obtain ⟨call, answer, durable, completed⟩ := e
      cases close
      rw [closes, List.countP_cons_of_pos (by simp)]
      exact Nat.le_of_eq (congrArg (· + 1) h.1.2.2)
    · rw [closes, List.countP_cons_of_neg (by simpa using close)]
      exact ih h.2

/-- The audit over every sequence of boots that starts with any durable record: what was saved before
each key, that an unresolved record is never run over, that access is closed once where it was begun,
and that the journals are those of the codec. -/
theorem audit_never_repeated (durable : Option Journal) :
    (∀ logs w, Boots durable logs w →
      (∀ newer e older, w.log = newer ++ e :: older → e.call = .unseal → ∃ j, e.durable = some j ∧
        j.state = .pending ∧ j.generation.toNat = e.completed.toNat + 1 ∧ Saved j older) ∧
      (∀ newer e older, w.log = newer ++ e :: older → e.call = .full → ∃ j, e.durable = some j ∧
        has j .unsealVerified = true ∧ Saved j older) ∧
      (∀ newer log older after e before, logs = newer ++ log :: older → log = after ++ e :: before →
        e.call = .unseal → (∀ x ∈ after, ∀ j, x.durable = some j → j.state ≠ .completed) →
        ∀ later ∈ w.log :: newer, ∀ x ∈ later, x.call.isKey = false) ∧
      closes w.log ≤ 1 ∧
      (∀ newer e older, w.log = newer ++ e :: older → e.call = .close → PendingSaved older) ∧
      (∀ e ∈ w.log, ∀ j, e.call = .saveReadback j → shape j = true ∧
        ∃ r, encode j = some r ∧ decode r j.mac = some j)) ∧
    (∀ result w, run.Ends own (fresh durable) result w → Settled w) ∧
    (∀ logs v result w, Boots durable logs v → run.Ends own v.reboot result w → Settled w) ∧
    (∀ r mac j, decode r mac = some j ↔ encode j = some r ∧ j.mac = mac) := by
  refine ⟨fun logs w boots => ?_, ?_, ?_, fun r mac j => decode_eq_some_iff⟩
  · obtain ⟨start, sound⟩ := boots_sound boots
    refine ⟨?_, ?_, ?_, orderly_closes sound.orderly, ?_, ?_⟩
    · intro newer e older cut key
      have admits := orderly_cut sound.orderly cut
      obtain ⟨call, answer, held, completed⟩ := e
      cases key
      exact admits.2
    · intro newer e older cut key
      have admits := orderly_cut sound.orderly cut
      obtain ⟨call, answer, held, completed⟩ := e
      cases key
      exact admits.2
    · exact fun newer log older after e before cut inner key never => (boots_blocked boots cut inner key never).2
    · intro newer e older cut key
      have admits := orderly_cut sound.orderly cut
      obtain ⟨call, answer, held, completed⟩ := e
      cases key
      exact admits.2.1
    · intro e mem j save
      obtain ⟨newer, older, cut⟩ := List.append_of_mem mem
      have admits := orderly_cut sound.orderly cut
      obtain ⟨call, answer, held, completed⟩ := e
      cases save
      have shaped : shape j = true := admits.2
      have encoded : encode j = some (ByteFields.closeCrc (fill j (ByteFields.zero 48)) 44) := by
        rw [encode, if_neg (by simp [shaped])]
      exact ⟨shaped, _, encoded, decode_eq_some_iff.mpr ⟨encoded, rfl⟩⟩
  · exact fun result w ended => settled_of_ends (consistent_fresh durable) rfl ended
  · intro logs v result w boots ended
    obtain ⟨start, sound⟩ := boots_sound boots
    exact settled_of_ends (consistent_reboot sound) rfl ended

end Mosaico.Gauge.ThresholdAudit
