import Mosaico.Host.TwtModel
import Mathlib.Data.List.Induction
import Mathlib.Order.Defs.LinearOrder

/-! What the tracker keeps over every order of requests, answers, stops and polls. -/
namespace Mosaico.Host.Twt

variable {m : Model} {now : Int} {ota locked : Bool} {r : Result}

def Agreed (s : Snapshot) : Prop :=
  0 < s.durationUs ∧ s.durationUs < s.intervalUs ∧ s.intervalUs ≤ 2000000

structure Inv (m : Model) : Prop where
  agreed : m.state.stage = .active → Agreed m.state
  setup : m.state.stage ≠ .negotiating → m.state.setupDeadlineUs = 0

theorem endedStage_cases (why : Stop) : endedStage why = .off ∨ endedStage why = .failed := by
  unfold endedStage
  split
  · exact .inl rfl
  · exact .inr rfl

theorem live_endTrial (m : Model) (why : Stop) : (m.endTrial why).live = false := by
  unfold Model.live Model.endTrial
  obtain ended | ended := endedStage_cases why <;> rw [ended] <;> rfl

theorem inv_endTrial (m : Model) (why : Stop) : Inv (m.endTrial why) := by
  refine ⟨fun active => ?_, fun _ => rfl⟩
  have stage : endedStage why = .active := active
  obtain ended | ended := endedStage_cases why <;> rw [ended] at stage <;> cases stage

/-- A check ends the trial or leaves all as it is. -/
theorem check_cases (m : Model) (now : Int) (ota locked : Bool) :
    m.check now ota locked = (m, m.live) ∨ ∃ why, m.check now ota locked = (m.endTrial why, false) := by
  unfold Model.check
  split
  · rename_i dead
    rw [dead]
    exact .inl rfl
  · split
    · rename_i why _
      rw [live_endTrial]
      exact .inr ⟨why, rfl⟩
    · exact .inl rfl

/-- What a poll for the bootstrap can do. -/
theorem ready_cases (m : Model) (now : Int) : (m.bootstrapReady now).1 = m ∨
    (∃ why, (m.bootstrapReady now).1 = m.endTrial why) ∨
      m.state.stage = .armed ∧ ∃ stage setup, (stage = .baseline ∧ setup = 0 ∨ stage = .negotiating) ∧
        (m.bootstrapReady now).1 = { m with state := { m.state with
          bootstrapDeadlineUs := 0, stage := stage, setupDeadlineUs := setup } } := by
  unfold Model.bootstrapReady
  split
  · exact .inl rfl
  · rename_i armed
    rw [not_not] at armed
    obtain same | ⟨why, ended⟩ := check_cases m now false true
    · have live : m.live = true := by rw [Model.live, armed]; rfl
      rw [same, live]
      refine .inr (.inr ⟨armed, _, _, ?_, rfl⟩)
      by_cases baseline : m.state.requested = .baseline
      · rw [if_pos baseline]
        exact .inl ⟨rfl, rfl⟩
      · rw [if_neg baseline]
        exact .inr rfl
    · rw [ended]
      exact .inr (.inl ⟨why, rfl⟩)

private theorem durationUs_pos (h : r.duration ≠ 0) : 0 < r.durationUs := by
  have positive : 0 < r.duration.toNat := Nat.pos_of_ne_zero fun zero => h (UInt8.toNat_inj.mp zero)
  unfold Result.durationUs
  split <;> omega

theorem inv_accept (h : Inv m) : Inv (m.accept r).1 := by
  unfold Model.accept
  split
  · exact ⟨h.agreed, h.setup⟩
  · dsimp only
    split
    · exact inv_endTrial _ _
    · split
      · exact inv_endTrial _ _
      · rename_i proper
        simp only [not_or, Nat.not_lt, Nat.not_le] at proper
        obtain ⟨-, duration, -, -, -, short, room⟩ := proper
        exact ⟨fun _ => ⟨durationUs_pos duration, room, short⟩, fun _ => rfl⟩

theorem inv_start (h : Inv m) (mode : Mode) (leaseSeconds : Nat) (profile : Profile) :
    Inv (m.start mode now leaseSeconds profile).1 := by
  unfold Model.start
  split
  · exact inv_endTrial _ _
  · split
    · exact h
    · exact ⟨nofun, fun _ => rfl⟩

theorem inv_check (h : Inv m) : Inv (m.check now ota locked).1 := by
  obtain same | ⟨why, ended⟩ := check_cases m now ota locked
  · rw [same]
    exact h
  · rw [ended]
    exact inv_endTrial m why

theorem inv_ready (h : Inv m) : Inv (m.bootstrapReady now).1 := by
  obtain same | ⟨why, ended⟩ | ⟨-, stage, setup, moved, next⟩ := ready_cases m now
  · rw [same]
    exact h
  · rw [ended]
    exact inv_endTrial m why
  · rw [next]
    obtain ⟨rfl, rfl⟩ | rfl := moved
    · exact ⟨nofun, fun _ => rfl⟩
    · exact ⟨nofun, fun other => absurd rfl other⟩

theorem inv_step (h : Inv m) (input : Input) : Inv (m.step input) := by
  cases input with
  | start mode now leaseSeconds profile => exact inv_start h mode leaseSeconds profile
  | stop why => exact inv_endTrial m why
  | disconnected reason eventUs valid => exact ⟨h.agreed, h.setup⟩
  | check now ota locked => exact inv_check h
  | ready now => exact inv_ready h
  | setup r => exact inv_accept h

section Issued

/-- The newest identifier given out is that of the snapshot, and the others are smaller. -/
structure Numbered (t : Tracked) : Prop where
  newest : t.issued.head?.getD 0 = t.model.nextId
  current : t.model.state.id = t.model.nextId
  falling : t.issued.Pairwise (· > ·)

variable {t : Tracked}

/-- A request that is accepted takes the next identifier, and nothing else changes it. -/
theorem step_id (m : Model) (input : Input) :
    (m.accepts input = false ∧ (m.step input).nextId = m.nextId ∧ (m.step input).state.id = m.state.id) ∨
      m.accepts input = true ∧ (m.step input).nextId = m.nextId + 1 ∧ (m.step input).state.id = m.nextId + 1 := by
  cases input with
  | start mode now leaseSeconds profile =>
    by_cases off : mode = .off
    · simp only [Model.accepts, Model.step, Model.start, if_pos off]
      exact .inl ⟨by simp [off], rfl, rfl⟩
    · simp only [Model.accepts, Model.step, Model.start, if_neg off]
      split
      · exact .inl ⟨Bool.and_false _, rfl, rfl⟩
      · exact .inr ⟨by simp [off], rfl, rfl⟩
  | stop why => exact .inl ⟨rfl, rfl, rfl⟩
  | disconnected reason eventUs valid => exact .inl ⟨rfl, rfl, rfl⟩
  | check now ota locked =>
    refine .inl ⟨rfl, ?_⟩
    obtain same | ⟨why, ended⟩ := check_cases m now ota locked
    · simp only [Model.step, same, and_self]
    · simp only [Model.step, ended]
      exact ⟨rfl, rfl⟩
  | ready now =>
    refine .inl ⟨rfl, ?_⟩
    obtain same | ⟨why, ended⟩ | ⟨-, stage, setup, -, next⟩ := ready_cases m now
    · simp only [Model.step, same, and_self]
    · simp only [Model.step, ended]
      exact ⟨rfl, rfl⟩
    · simp only [Model.step, next, and_self]
  | setup r =>
    refine .inl ⟨rfl, ?_⟩
    simp only [Model.step, Model.accept]
    split
    · exact ⟨rfl, rfl⟩
    · split
      · exact ⟨rfl, rfl⟩
      · split <;> exact ⟨rfl, rfl⟩

theorem numbered_step (h : Numbered t) (input : Input) : Numbered (t.step input) := by
  obtain ⟨newest, current, falling⟩ := h
  obtain ⟨other, same, kept⟩ | ⟨accepted, next, id⟩ := step_id t.model input
  · have issued : (t.step input).issued = t.issued := if_neg (by rw [other]; exact Bool.false_ne_true)
    exact ⟨by rw [issued]; exact newest.trans same.symm, kept.trans (current.trans same.symm),
      by rw [issued]; exact falling⟩
  · have issued : (t.step input).issued = (t.model.step input).state.id :: t.issued :=
      if_pos accepted
    refine ⟨by rw [issued]; exact id.trans next.symm, id.trans next.symm, ?_⟩
    rw [issued, List.pairwise_cons]
    refine ⟨fun earlier mem => ?_, falling⟩
    have bound : earlier ≤ t.model.nextId := by
      match list : t.issued with
      | [] => rw [list] at mem; cases mem
      | head :: rest =>
        rw [list] at mem newest falling
        have head_ : head = t.model.nextId := newest
        obtain rfl | mem := List.mem_cons.mp mem
        · omega
        · exact Nat.le_of_lt (head_ ▸ (List.pairwise_cons.mp falling).1 earlier mem)
    rw [id]
    omega

/-- A request that another has taken the place of is not the current one. -/
theorem superseded (h : Numbered t) {id : Nat} (mem : id ∈ t.issued.tail) : id ≠ t.model.state.id := by
  obtain ⟨newest, current, falling⟩ := h
  match list : t.issued with
  | [] => rw [list] at mem; cases mem
  | head :: rest =>
    rw [list] at mem newest falling
    have head_ : head = t.model.nextId := newest
    have below := (List.pairwise_cons.mp falling).1 id mem
    omega

end Issued

theorem tracked_all (inputs : List Input) : Inv (track inputs).model ∧ Numbered (track inputs) := by
  induction inputs using List.reverseRecOn with
  | nil => exact ⟨⟨nofun, fun _ => rfl⟩, rfl, rfl, List.Pairwise.nil⟩
  | append_singleton inputs input ih =>
    have next : track (inputs ++ [input]) = (track inputs).step input := List.foldl_append ..
    rw [next]
    exact ⟨inv_step ih.1 input, numbered_step ih.2 input⟩

section Polls

/-- The two calls by which the owner polls. -/
inductive Poll where
  | check (now : Int) (ota locked : Bool)
  | ready (now : Int)

def Poll.input : Poll → Input
  | .check now ota locked => .check now ota locked
  | .ready now => .ready now

def Model.polled (m : Model) (polls : List Poll) : Model :=
  polls.foldl (fun m poll => m.step poll.input) m

/-- No deadline is later than it was; it stays as it is or goes. -/
structure Unextended (s s' : Snapshot) : Prop where
  expiry : s'.expiryUs = s.expiryUs ∨ s'.expiryUs = 0
  bootstrap : s'.bootstrapDeadlineUs = s.bootstrapDeadlineUs ∨ s'.bootstrapDeadlineUs = 0
  setup : s.setupDeadlineUs ≠ 0 → s'.setupDeadlineUs = s.setupDeadlineUs ∨ s'.setupDeadlineUs = 0

theorem poll_cases (m : Model) (poll : Poll) : m.step poll.input = m ∨
    (∃ why, m.step poll.input = m.endTrial why) ∨
      m.state.stage = .armed ∧ ∃ stage setup, m.step poll.input = { m with state := { m.state with
        bootstrapDeadlineUs := 0, stage := stage, setupDeadlineUs := setup } } := by
  cases poll with
  | check now ota locked =>
    obtain same | ⟨why, ended⟩ := check_cases m now ota locked
    · exact .inl (congrArg Prod.fst same)
    · exact .inr (.inl ⟨why, congrArg Prod.fst ended⟩)
  | ready now =>
    obtain same | ended | ⟨armed, stage, setup, -, next⟩ := ready_cases m now
    · exact .inl same
    · exact .inr (.inl ended)
    · exact .inr (.inr ⟨armed, stage, setup, next⟩)

/-- Polls do nothing to a trial that has ended. -/
theorem polled_dead (dead : m.live = false) (polls : List Poll) : m.polled polls = m := by
  induction polls with
  | nil => rfl
  | cons poll polls ih =>
    have still : m.step poll.input = m := by
      cases poll with
      | check now ota locked =>
        show (m.check now ota locked).1 = m
        rw [Model.check, if_pos dead]
      | ready now =>
        have idle : m.state.stage ≠ .armed := by
          intro armed
          rw [Model.live, armed] at dead
          cases dead
        show (m.bootstrapReady now).1 = m
        rw [Model.bootstrapReady, if_pos idle]
    rw [Model.polled, List.foldl_cons, still]
    exact ih

theorem unextended_polled (h : Inv m) (polls : List Poll) : Unextended m.state (m.polled polls).state := by
  induction polls generalizing m with
  | nil => exact ⟨.inl rfl, .inl rfl, fun _ => .inl rfl⟩
  | cons poll polls ih =>
    have first : m.polled (poll :: polls) = (m.step poll.input).polled polls := rfl
    have later := ih (inv_step h poll.input)
    rw [first]
    obtain same | ⟨why, ended⟩ | ⟨armed, stage, setup, next⟩ := poll_cases m poll
    · rw [same] at later ⊢
      exact later
    · rw [ended, polled_dead (live_endTrial m why)]
      exact ⟨.inr rfl, .inr rfl, fun _ => .inr rfl⟩
    · -- the setup deadline that the poll gives was none before
      have unset : m.state.setupDeadlineUs = 0 := h.setup (by rw [armed]; decide)
      rw [next] at later ⊢
      exact ⟨later.expiry, .inr (later.bootstrap.elim id id), fun set => absurd unset set⟩

end Polls

/-- Agreements are proper, requests are numbered upwards, what is late only counts, and polls give
no more time. -/
theorem agreement_tracked (inputs : List Input) :
    ((track inputs).model.state.stage = .active → Agreed (track inputs).model.state) ∧
      (track inputs).issued.Pairwise (· > ·) ∧
      (∀ r : Result, r.id ∈ (track inputs).issued.tail ∨ r.id ≠ (track inputs).model.state.id ∨
        (track inputs).model.state.stage ≠ .negotiating →
          (track inputs).model.step (.setup r) = { (track inputs).model with
            state := { (track inputs).model.state with
              lateEvents := (track inputs).model.state.lateEvents + 1 } }) ∧
      ∀ polls, Unextended (track inputs).model.state ((track inputs).model.polled polls).state := by
  obtain ⟨inv, numbered⟩ := tracked_all inputs
  refine ⟨inv.agreed, numbered.falling, fun r stale => ?_, fun polls => unextended_polled inv polls⟩
  have late : (track inputs).model.state.stage ≠ .negotiating ∨ r.id ≠ (track inputs).model.state.id := by
    obtain old | other | idle := stale
    · exact .inr (superseded numbered old)
    · exact .inr other
    · exact .inl idle
  show ((track inputs).model.accept r).1 = _
  rw [Model.accept, if_pos late]

end Mosaico.Host.Twt
