import Mathlib.Data.Int.Basic
import Mathlib.Data.List.Basic
import Mathlib.Algebra.Group.Nat.Defs

/-! `powerbank_keepalive_model.h`: pulses that keep a power bank awake, due by a period that a late pulse never
catches up on. -/
namespace Mosaico.Host.Keepalive

structure Request where
  leaseSeconds : UInt32 := 180
  periodSeconds : UInt32 := 15
  durationMs : UInt32 := 500
  deriving DecidableEq, Repr

def valid (r : Request) : Bool :=
  180 ≤ r.leaseSeconds && r.leaseSeconds ≤ 1800 && 5 ≤ r.periodSeconds && r.periodSeconds ≤ 20 &&
    100 ≤ r.durationMs && r.durationMs ≤ 1000 && r.durationMs * 20 ≤ r.periodSeconds * 1000

def micros (seconds : UInt32) : Int := seconds.toNat * 1000000

structure Model where
  config : Request := {}
  leaseUntil : Int := 0
  nextDue : Int := 0
  automatic : Bool := false
  generation : UInt32 := 0
  deriving DecidableEq, Repr

namespace Model

variable (m : Model)

def enabled (now : Int) : Bool := m.automatic || (m.leaseUntil != 0 && now < m.leaseUntil)

def off : Model := { m with automatic := false, leaseUntil := 0, nextDue := 0, generation := m.generation + 1 }

def startAutomatic (now : Int) : Model :=
  { m.off with config := {}, automatic := true, nextDue := now + micros 15 }

def request (r : Request) (now : Int) : Model × Bool :=
  if valid r = false then (m, false)
  else ({ m.off with
    config := r
    leaseUntil := now + micros r.leaseSeconds
    nextDue := now + micros r.periodSeconds }, true)

def expire (now : Int) : Model := if m.leaseUntil ≠ 0 ∧ m.leaseUntil ≤ now then m.off else m

def due (now : Int) : Bool := m.enabled now && m.nextDue ≤ now

def take (now : Int) (safe : Bool) : Model × Bool :=
  let m := m.expire now
  if m.due now = false then (m, false)
  else ({ m with nextDue := now + micros m.config.periodSeconds }, safe)

def completePulse (now : Int) (version : UInt32) : Model :=
  if m.enabled now = false ∨ version ≠ m.generation then m
  else
    let cooldown := now + micros m.config.periodSeconds
    if m.nextDue < cooldown then { m with nextDue := cooldown } else m

def pulseAllowed (now : Int) (version : UInt32) (safe : Bool) : Bool :=
  safe && m.enabled now && version == m.generation

end Model

inductive Event where
  | request (r : Request)
  | startAutomatic
  | off
  | expire
  | take (safe : Bool)
  | completePulse (version : UInt32)

def Event.reconfigures : Event → Bool
  | .request r => valid r
  | .startAutomatic => true
  | _ => false

def step (m : Model) : Int × Event → Model
  | (now, .request r) => (m.request r now).1
  | (now, .startAutomatic) => m.startAutomatic now
  | (_, .off) => m.off
  | (now, .expire) => m.expire now
  | (now, .take safe) => (m.take now safe).1
  | (now, .completePulse version) => m.completePulse now version

def run (m : Model) (events : List (Int × Event)) : Model := events.foldl step m

/-- The times of the events do not decrease, from `t` on. -/
def InOrder : Int → List (Int × Event) → Prop
  | _, [] => True
  | t, (now, _) :: events => t ≤ now ∧ InOrder now events

def generations (m : Model) : List (Int × Event) → Nat
  | [] => 0
  | event :: events =>
    (if (step m event).generation = m.generation then 0 else 1) + generations (step m event) events

section Invariants

variable {m : Model} {t T now : Int}

theorem expire_cases (m : Model) (now : Int) :
    m.expire now = m.off ∨ m.expire now = m ∧ (m.leaseUntil = 0 ∨ now < m.leaseUntil) := by
  unfold Model.expire
  by_cases ended : m.leaseUntil ≠ 0 ∧ m.leaseUntil ≤ now
  · rw [if_pos ended]
    exact Or.inl rfl
  · rw [if_neg ended]
    exact Or.inr ⟨rfl, by omega⟩

theorem take_cases (m : Model) (now : Int) (safe : Bool) :
    ((m.take now safe).2 = false ∧ (m.take now safe).1 = m.off) ∨
      ((m.take now safe).2 = false ∧ (m.take now safe).1 = m) ∨
      (m.enabled now = true ∧ m.nextDue ≤ now ∧ m.take now safe =
        ({ m with nextDue := now + micros m.config.periodSeconds }, safe)) := by
  unfold Model.take
  dsimp only
  obtain gone | ⟨same, live⟩ := expire_cases m now
  · have idle : m.off.due now = false := rfl
    rw [gone, if_pos idle]
    exact Or.inl ⟨rfl, rfl⟩
  · rw [same]
    by_cases due : m.due now = false
    · rw [if_pos due]
      exact Or.inr (Or.inl ⟨rfl, rfl⟩)
    · rw [if_neg due]
      simp only [Model.due, Bool.not_eq_false, Bool.and_eq_true, decide_eq_true_eq] at due
      exact Or.inr (Or.inr ⟨due.1, due.2, rfl⟩)

/-- No pulse is due any more from `t` on. -/
def Dead (t : Int) (m : Model) : Prop := m.automatic = false ∧ (m.leaseUntil = 0 ∨ m.leaseUntil ≤ t)

theorem dead_off (m : Model) (t : Int) : Dead t m.off := ⟨rfl, Or.inl rfl⟩

theorem enabled_dead (h : Dead t m) (later : t ≤ now) : m.enabled now = false := by
  obtain ⟨manual, ended⟩ := h
  simp only [Model.enabled, manual, Bool.false_or, Bool.and_eq_false_iff, bne_eq_false_iff_eq,
    decide_eq_false_iff_not]
  omega

theorem dead_of_disabled (h : m.enabled t = false) : Dead t m := by
  simp only [Model.enabled, Bool.or_eq_false_iff, Bool.and_eq_false_iff, bne_eq_false_iff_eq,
    decide_eq_false_iff_not] at h
  exact ⟨h.1, by omega⟩

theorem dead_step (h : Dead t m) {event : Event} (same : event.reconfigures = false) :
    Dead t (step m (now, event)) := by
  cases event with
  | request r =>
    change valid r = false at same
    have kept : m.request r now = (m, false) := if_pos same
    change Dead t (m.request r now).1
    rw [kept]
    exact h
  | startAutomatic => cases same
  | off => exact dead_off m t
  | expire =>
    change Dead t (m.expire now)
    obtain gone | ⟨kept, -⟩ := expire_cases m now
    · rw [gone]
      exact dead_off m t
    · rw [kept]
      exact h
  | take safe =>
    change Dead t (m.take now safe).1
    obtain ⟨-, gone⟩ | ⟨-, kept⟩ | ⟨-, -, taken⟩ := take_cases m now safe
    · rw [gone]
      exact dead_off m t
    · rw [kept]
      exact h
    · rw [taken]
      exact h
  | completePulse version =>
    change Dead t (m.completePulse now version)
    unfold Model.completePulse
    split
    · exact h
    · dsimp only
      split <;> exact h

/-- No pulse is taken from `t` on before `T`. -/
def Held (t T : Int) (m : Model) : Prop := Dead t m ∨ T ≤ m.nextDue

theorem held_step (h : Held t T m) {event : Event}
    (ordered : event.reconfigures = true → T ≤ now + 5000000) : Held t T (step m (now, event)) := by
  by_cases same : event.reconfigures = false
  · obtain dead | due := h
    · exact Or.inl (dead_step dead same)
    · cases event with
      | request r =>
        change valid r = false at same
        have kept : m.request r now = (m, false) := if_pos same
        change Held t T (m.request r now).1
        rw [kept]
        exact Or.inr due
      | startAutomatic => cases same
      | off => exact Or.inl (dead_off m t)
      | expire =>
        change Held t T (m.expire now)
        obtain gone | ⟨kept, -⟩ := expire_cases m now
        · rw [gone]
          exact Or.inl (dead_off m t)
        · rw [kept]
          exact Or.inr due
      | take safe =>
        change Held t T (m.take now safe).1
        obtain ⟨-, gone⟩ | ⟨-, kept⟩ | ⟨-, reached, taken⟩ := take_cases m now safe
        · rw [gone]
          exact Or.inl (dead_off m t)
        · rw [kept]
          exact Or.inr due
        · rw [taken]
          right
          change T ≤ now + micros m.config.periodSeconds
          have positive : 0 ≤ micros m.config.periodSeconds := by
            unfold micros
            omega
          omega
      | completePulse version =>
        change Held t T (m.completePulse now version)
        unfold Model.completePulse
        split
        · exact Or.inr due
        · dsimp only
          split
          · right
            change T ≤ now + micros m.config.periodSeconds
            omega
          · exact Or.inr due
  · have reconfigured : event.reconfigures = true := by simpa using same
    have early := ordered reconfigured
    right
    cases event with
    | request r =>
      change valid r = true at reconfigured
      have accepted : (step m (now, .request r)).nextDue = now + micros r.periodSeconds := by
        simp [step, Model.request, reconfigured]
      have period : 5 ≤ r.periodSeconds.toNat := by
        simp only [valid, Bool.and_eq_true, decide_eq_true_eq] at reconfigured
        exact reconfigured.1.1.1.1.2
      rw [accepted]
      unfold micros
      omega
    | startAutomatic =>
      change T ≤ now + micros 15
      have period : micros 15 = 15000000 := rfl
      omega
    | _ => cases reconfigured

theorem taken_held (h : Held t T m) (later : t ≤ now) {safe : Bool} (taken : (m.take now safe).2 = true) :
    T ≤ now := by
  obtain ⟨failed, -⟩ | ⟨failed, -⟩ | ⟨enabled, reached, -⟩ := take_cases m now safe
  · rw [failed] at taken
    cases taken
  · rw [failed] at taken
    cases taken
  · obtain dead | due := h
    · rw [enabled_dead dead later] at enabled
      cases enabled
    · omega

theorem inOrder_le {events : List (Int × Event)} (ordered : InOrder t events) {event : Int × Event}
    (mem : event ∈ events) : t ≤ event.1 := by
  induction events generalizing t with
  | nil => cases mem
  | cons first events ih =>
    obtain ⟨here, rest⟩ := ordered
    obtain rfl | tail := List.mem_cons.mp mem
    · exact here
    · exact Int.le_trans here (ih rest tail)

theorem inOrder_append {events later : List (Int × Event)} (ordered : InOrder t (events ++ later)) :
    InOrder t events := by
  induction events generalizing t with
  | nil => trivial
  | cons first events ih => exact ⟨ordered.1, ih ordered.2⟩

theorem dead_run (h : Dead t m) {events : List (Int × Event)} (same : ∀ e ∈ events, e.2.reconfigures = false) :
    Dead t (run m events) := by
  induction events generalizing m with
  | nil => exact h
  | cons event events ih =>
    have first : Dead t (step m (event.1, event.2)) := dead_step h (same event List.mem_cons_self)
    exact ih first fun e mem => same e (List.mem_cons_of_mem event mem)

theorem held_run (h : Held t T m) {events : List (Int × Event)}
    (slow : ∀ e ∈ events, e.2.reconfigures = true → T ≤ e.1 + 5000000) : Held t T (run m events) := by
  induction events generalizing m with
  | nil => exact h
  | cons event events ih =>
    have first := held_step h (slow event List.mem_cons_self)
    exact ih first fun e mem => slow e (List.mem_cons_of_mem event mem)

theorem period_step (h : 5 ≤ m.config.periodSeconds.toNat) (event : Int × Event) :
    5 ≤ (step m event).config.periodSeconds.toNat := by
  obtain ⟨now, event⟩ := event
  cases event with
  | request r =>
    change 5 ≤ (m.request r now).1.config.periodSeconds.toNat
    unfold Model.request
    split
    · exact h
    · rename_i accepted
      simp only [Bool.not_eq_false, valid, Bool.and_eq_true, decide_eq_true_eq] at accepted
      exact accepted.1.1.1.1.2
  | startAutomatic => exact (by decide : 5 ≤ (15 : UInt32).toNat)
  | off => exact h
  | expire =>
    change 5 ≤ (m.expire now).config.periodSeconds.toNat
    obtain gone | ⟨kept, -⟩ := expire_cases m now
    · rw [gone]
      exact h
    · rw [kept]
      exact h
  | take safe =>
    change 5 ≤ (m.take now safe).1.config.periodSeconds.toNat
    obtain ⟨-, gone⟩ | ⟨-, kept⟩ | ⟨-, -, taken⟩ := take_cases m now safe
    · rw [gone]
      exact h
    · rw [kept]
      exact h
    · rw [taken]
      exact h
  | completePulse version =>
    change 5 ≤ (m.completePulse now version).config.periodSeconds.toNat
    unfold Model.completePulse
    split
    · exact h
    · dsimp only
      split <;> exact h

theorem period_run (h : 5 ≤ m.config.periodSeconds.toNat) (events : List (Int × Event)) :
    5 ≤ (run m events).config.periodSeconds.toNat := by
  induction events generalizing m with
  | nil => exact h
  | cons event events ih => exact ih (period_step h event)

/-- A step leaves the generation or moves it on by one. -/
theorem generation_step (m : Model) (event : Int × Event) :
    (step m event).generation = m.generation ∨ (step m event).generation = m.generation + 1 := by
  obtain ⟨now, event⟩ := event
  cases event with
  | request r =>
    change (m.request r now).1.generation = _ ∨ (m.request r now).1.generation = _
    unfold Model.request
    split
    · exact Or.inl rfl
    · exact Or.inr rfl
  | startAutomatic => exact Or.inr rfl
  | off => exact Or.inr rfl
  | expire =>
    change (m.expire now).generation = _ ∨ (m.expire now).generation = _
    obtain gone | ⟨kept, -⟩ := expire_cases m now
    · rw [gone]
      exact Or.inr rfl
    · rw [kept]
      exact Or.inl rfl
  | take safe =>
    change (m.take now safe).1.generation = _ ∨ (m.take now safe).1.generation = _
    obtain ⟨-, gone⟩ | ⟨-, kept⟩ | ⟨-, -, taken⟩ := take_cases m now safe
    · rw [gone]
      exact Or.inr rfl
    · rw [kept]
      exact Or.inl rfl
    · rw [taken]
      exact Or.inl rfl
  | completePulse version =>
    change (m.completePulse now version).generation = _ ∨ (m.completePulse now version).generation = _
    unfold Model.completePulse
    split
    · exact Or.inl rfl
    · dsimp only
      split <;> exact Or.inl rfl

theorem generation_run (m : Model) (events : List (Int × Event)) :
    (run m events).generation = m.generation + UInt32.ofNat (generations m events) := by
  induction events generalizing m with
  | nil => exact (UInt32.add_zero m.generation).symm
  | cons event events ih =>
    change (run (step m event) events).generation = _
    rw [ih, generations]
    obtain same | moved := generation_step m event
    · rw [same, if_pos rfl, Nat.zero_add]
    · have other : m.generation + 1 ≠ m.generation := by grind
      rw [moved, if_neg other, UInt32.ofNat_add, UInt32.add_assoc]
      rfl

/-- A generation that has passed does not come back within `2 ^ 32` of them. -/
theorem generation_past {events : List (Int × Event)} (some : 0 < generations m events)
    (few : generations m events < 2 ^ 32) : (run m events).generation ≠ m.generation := by
  intro back
  rw [generation_run] at back
  have zero : UInt32.ofNat (generations m events) = 0 := by grind
  have value := congrArg UInt32.toNat zero
  rw [UInt32.toNat_ofNat_of_lt' few] at value
  change generations m events = 0 at value
  omega

theorem held_taken (reached : 5 ≤ m.config.periodSeconds.toNat) {safe : Bool} (taken : (m.take t safe).2 = true) :
    Held t (t + micros m.config.periodSeconds) (m.take t safe).1 ∧
      t + 5000000 ≤ t + micros m.config.periodSeconds := by
  obtain ⟨failed, -⟩ | ⟨failed, -⟩ | ⟨-, -, result⟩ := take_cases m t safe
  · rw [failed] at taken
    cases taken
  · rw [failed] at taken
    cases taken
  · constructor
    · rw [result]
      exact Or.inr (Int.le_refl _)
    · unfold micros
      omega

theorem held_completed (m : Model) (t : Int) :
    Held t (t + micros m.config.periodSeconds) (m.completePulse t m.generation) := by
  unfold Model.completePulse
  by_cases idle : m.enabled t = false
  · rw [if_pos (Or.inl idle)]
    exact Or.inl (dead_of_disabled idle)
  · rw [if_neg (by simp [idle])]
    dsimp only
    split
    · exact Or.inr (Int.le_refl _)
    · right
      omega

end Invariants

/-- At `now`, after the events, no pulse is taken and none is permitted. -/
def Silent (m : Model) (now : Int) : Prop :=
  (∀ safe, (m.take now safe).2 = false) ∧ ∀ version safe, m.pulseAllowed now version safe = false

private theorem silent_dead {m : Model} {t now : Int} (dead : Dead t m) (later : t ≤ now) : Silent m now := by
  have idle := enabled_dead dead later
  constructor
  · intro safe
    obtain ⟨failed, -⟩ | ⟨failed, -⟩ | ⟨enabled, -, -⟩ := take_cases m now safe
    · exact failed
    · exact failed
    · rw [idle] at enabled
      cases enabled
  · intro version safe
    simp [Model.pulseAllowed, idle]

/-- What holds between an event of a run and a later time, with any events in between. -/
theorem pulses_spaced (before middle : List (Int × Event)) (t now : Int) (safe : Bool)
    (ordered : InOrder t (middle ++ [(now, .take safe)])) :
    let m := run {} before
    let taken := fun event => ((run (step m (t, event)) middle).take now safe).2 = true
    let reconfigured := ∃ e ∈ middle, e.2.reconfigures = true
    (∀ s, (m.take t s).2 = true → taken (.take s) → t + 5000000 ≤ now) ∧
      (∀ s, (m.take t s).2 = true → taken (.take s) → ¬reconfigured →
        t + micros m.config.periodSeconds ≤ now) ∧
      (taken (.completePulse m.generation) → ¬reconfigured → t + micros m.config.periodSeconds ≤ now) ∧
      (¬reconfigured → Silent (run m.off middle) now) ∧
      (∀ r, valid r = true → ¬reconfigured → t + micros r.leaseSeconds ≤ now →
        Silent (run (m.request r t).1 middle) now) ∧
      ∀ event s, 0 < generations m ((t, event) :: middle) → generations m ((t, event) :: middle) < 2 ^ 32 →
        (run m ((t, event) :: middle)).pulseAllowed now m.generation s = false := by
  intro m taken reconfigured
  have period : 5 ≤ m.config.periodSeconds.toNat := period_run (by decide) before
  clear_value m
  have last : t ≤ now := inOrder_le ordered (List.mem_append_right middle List.mem_cons_self)
  have times := inOrder_append ordered
  have unchanged : ¬reconfigured → ∀ e ∈ middle, e.2.reconfigures = false := by
    intro same e mem
    by_contra some
    exact same ⟨e, mem, by simpa using some⟩
  refine ⟨?_, ?_, ?_, ?_, ?_, ?_⟩
  · intro s first second
    obtain ⟨held, slow⟩ := held_taken period first
    have least : Held t (t + 5000000) (m.take t s).1 := held.imp_right fun due => Int.le_trans slow due
    apply taken_held (held_run least _) last second
    intro e mem _
    have after := inOrder_le times mem
    omega
  · intro s first second same
    apply taken_held (held_run (held_taken period first).1 _) last second
    intro e mem change
    rw [unchanged same e mem] at change
    cases change
  · intro second same
    apply taken_held (held_run (held_completed m t) _) last second
    intro e mem change
    rw [unchanged same e mem] at change
    cases change
  · intro same
    exact silent_dead (dead_run (dead_off m t) (unchanged same)) last
  · intro r accepted same ended
    have manual : (m.request r t).1.automatic = false ∧ (m.request r t).1.leaseUntil = t + micros r.leaseSeconds := by
      unfold Model.request
      rw [if_neg (by simp [accepted])]
      exact ⟨rfl, rfl⟩
    have dead : Dead (t + micros r.leaseSeconds) (m.request r t).1 := ⟨manual.1, Or.inr (Int.le_of_eq manual.2)⟩
    exact silent_dead (dead_run dead (unchanged same)) ended
  · intro event s some few
    have past := generation_past some few
    simp [Model.pulseAllowed, past.symm]

/-- After a request at 0 and a pulse from 15 to 16 seconds there are pulses at 31 and 46 seconds. -/
theorem pulses_spaced_second :
    let m := run {} [(0, .request {}), (15000000, .take true), (16000000, .completePulse 1)]
    (m.take 31000000 true).2 = true ∧ ((m.take 31000000 true).1.take 46000000 true).2 = true ∧
      31000000 + micros m.config.periodSeconds ≤ 46000000 := by
  have spaced := pulses_spaced [(0, .request {}), (15000000, .take true), (16000000, .completePulse 1)] [] 31000000
    46000000 true (by simp [InOrder])
  exact ⟨by decide, by decide, spaced.2.1 true (by decide) (by decide) (by simp)⟩

end Mosaico.Host.Keepalive
