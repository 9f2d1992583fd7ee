import Mosaico.Library.Interaction
import Mathlib.Logic.Function.Basic

/-! Tasks that run programs over one shared state, a call at a time and in any
order, with the rely-guarantee rule for what every interleaving keeps. -/
namespace Interleaving

open Interaction

variable {C : Type} {R : C → Type} {σ T α β : Type}

/-- What a call of each task does, and which programs an idle task may start. -/
structure System (C : Type) (R : C → Type) (σ T : Type) where
  answers : T → Behaviour C R σ
  starts : T → Prog C R Unit → Prop

structure Config (C : Type) (R : C → Type) (σ T : Type) where
  shared : σ
  task : T → Option (Prog C R Unit)

section Runs

variable [DecidableEq T]

def Config.set (c : Config C R σ T) (t : T) (p : Option (Prog C R Unit)) (s : σ) :
    Config C R σ T :=
  ⟨s, Function.update c.task t p⟩

@[simp] theorem Config.set_self (c : Config C R σ T) (t : T) (p : Option (Prog C R Unit)) (s : σ) :
    (c.set t p s).task t = p := Function.update_self ..

theorem Config.set_other (c : Config C R σ T) {t u : T} (p : Option (Prog C R Unit)) (s : σ)
    (h : u ≠ t) : (c.set t p s).task u = c.task u := Function.update_of_ne h ..

inductive Step (S : System C R σ T) (c : Config C R σ T) : Config C R σ T → Prop
  | start (t : T) (p : Prog C R Unit) (idle : c.task t = none) (entry : S.starts t p) :
      Step S c (c.set t (some p) c.shared)
  | call (t : T) (k : C) (next : R k → Prog C R Unit) (r : R k) (s : σ)
      (at_ : c.task t = some (.call k next)) (answer : S.answers t k c.shared r s) :
      Step S c (c.set t (some (next r)) s)
  | stop (t : T) (ended : c.task t = some (.done ())) : Step S c (c.set t none c.shared)

inductive Reach (S : System C R σ T) (init : σ) : Config C R σ T → Prop
  | start : Reach S init ⟨init, fun _ => none⟩
  | step {c c' : Config C R σ T} (before : Reach S init c) (next : Step S c c') : Reach S init c'

end Runs

/-- What a task promises with each call, what it may rely on in between, and
what holds of it while it runs nothing. -/
structure Contract (T σ : Type) where
  guar : T → σ → σ → Prop
  rely : T → σ → σ → Prop
  idle : T → σ → Prop
  rely_refl : ∀ t s, rely t s s
  rely_trans : ∀ {t s₁ s₂ s₃}, rely t s₁ s₂ → rely t s₂ s₃ → rely t s₁ s₃
  others : ∀ {t u s s'}, u ≠ t → guar t s s' → rely u s s'

variable (K : Contract T σ) (B : Behaviour C R σ) (t : T)

/-- The program keeps the task's promise, whatever the others do between its
calls, and ends in `post`. -/
def Secure : Prog C R α → (α → σ → Prop) → σ → Prop
  | .done v, post, s => ∀ s₁, K.rely t s s₁ → post v s₁
  | .call c next, post, s => ∀ s₁, K.rely t s s₁ →
      ∀ r s₂, B c s₁ r s₂ → K.guar t s₁ s₂ ∧ Secure (next r) post s₂

variable {K B t} {post post' : α → σ → Prop} {p : Prog C R α} {s s' : σ}

theorem Secure.relied (h : Secure K B t p post s) (same : K.rely t s s') :
    Secure K B t p post s' := by
  cases p with
  | done v => exact fun s₁ h₁ => h s₁ (K.rely_trans same h₁)
  | call c next => exact fun s₁ h₁ => h s₁ (K.rely_trans same h₁)

theorem Secure.mono (h : Secure K B t p post s) (weaker : ∀ v s, post v s → post' v s) :
    Secure K B t p post' s := by
  induction p generalizing s with
  | done v => exact fun s₁ h₁ => weaker v s₁ (h s₁ h₁)
  | call c next ih =>
    intro s₁ h₁ r s₂ step
    have there := h s₁ h₁ r s₂ step
    exact ⟨there.1, ih r there.2⟩

/-- An assertion of the task that the others cannot disturb. -/
def Stable (K : Contract T σ) (t : T) (P : σ → Prop) : Prop :=
  ∀ s s', P s → K.rely t s s' → P s'

theorem secure_pure {v : α} (stable : Stable K t (post v)) (h : post v s) :
    Secure K B t (pure v) post s :=
  fun s₁ h₁ => stable s s₁ h h₁

theorem secure_bind {next : α → Prog C R β} {after : β → σ → Prop}
    (first : Secure K B t p post s)
    (rest : ∀ v s, post v s → Secure K B t (next v) after s) :
    Secure K B t (p >>= next) after s := by
  induction p generalizing s with
  | done v => exact (rest v s (first s (K.rely_refl t s)))
  | call c tail ih =>
    intro s₁ h₁ r s₂ step
    have there := first s₁ h₁ r s₂ step
    exact ⟨there.1, ih r there.2⟩

/-- One call, from an assertion that the others leave alone. -/
theorem secure_perform {c : C} {post : R c → σ → Prop} {P : σ → Prop} (stable : Stable K t P)
    (ends : ∀ r, Stable K t (post r)) (h : P s)
    (there : ∀ s, P s → ∀ r s', B c s r s' → K.guar t s s' ∧ post r s') :
    Secure K B t (Prog.perform c) post s := by
  intro s₁ h₁ r s₂ step
  have moved := there s₁ (stable s s₁ h h₁) r s₂ step
  exact ⟨moved.1, fun s₃ h₃ => ends r s₂ s₃ moved.2 h₃⟩

section Soundness

variable [DecidableEq T] {S : System C R σ T} {init : σ} {c c' : Config C R σ T}

/-- Every task is idle as it should be or runs a secure program. -/
def Config.Sound (K : Contract T σ) (S : System C R σ T) (c : Config C R σ T) : Prop :=
  ∀ t, match c.task t with
    | none => K.idle t c.shared
    | some p => Secure K (S.answers t) t p (fun _ => K.idle t) c.shared

/-- Every entry is secure from where its task is idle. -/
structure Respects (S : System C R σ T) (K : Contract T σ) : Prop where
  stable : ∀ t, Stable K t (K.idle t)
  entry : ∀ t p s, S.starts t p → K.idle t s →
    Secure K (S.answers t) t p (fun _ => K.idle t) s

theorem Config.Sound.other (h : c.Sound K S) {t u : T} (p : Option (Prog C R Unit))
    (respects : Respects S K) (apart : u ≠ t) (same : K.rely u c.shared s') :
    match (c.set t p s').task u with
    | none => K.idle u (c.set t p s').shared
    | some q => Secure K (S.answers u) u q (fun _ => K.idle u) (c.set t p s').shared := by
  have old := h u
  rw [Config.set_other c p s' apart]
  cases running : c.task u with
  | none =>
    rw [running] at old
    exact respects.stable u _ _ old same
  | some q =>
    rw [running] at old
    exact old.relied same

/-- A step leaves the state to its task's promise. -/
theorem Step.sound (next : Step S c c') (respects : Respects S K) (h : c.Sound K S) :
    c'.Sound K S ∧ (c'.shared = c.shared ∨ ∃ t, K.guar t c.shared c'.shared) := by
  cases next with
  | start t p idle entry =>
    refine ⟨fun u => ?_, .inl rfl⟩
    by_cases mine : u = t
    · have rested := h t
      rw [idle] at rested
      rw [mine, Config.set_self]
      exact respects.entry t p _ entry rested
    · exact h.other _ respects mine (K.rely_refl ..)
  | call t k rest r s at_ answer =>
    have here := h t
    rw [at_] at here
    have there := here c.shared (K.rely_refl ..) r s answer
    refine ⟨fun u => ?_, .inr ⟨t, there.1⟩⟩
    by_cases mine : u = t
    · rw [mine, Config.set_self]
      exact there.2
    · exact h.other _ respects mine (K.others mine there.1)
  | stop t ended =>
    refine ⟨fun u => ?_, .inl rfl⟩
    by_cases mine : u = t
    · have here := h t
      rw [ended] at here
      rw [mine, Config.set_self]
      exact here c.shared (K.rely_refl ..)
    · exact h.other _ respects mine (K.rely_refl ..)

theorem Reach.sound (reached : Reach S init c) (respects : Respects S K)
    (first : ∀ t, K.idle t init) : c.Sound K S := by
  induction reached with
  | start => exact first
  | step _ next ih => exact (next.sound respects ih).1

/-- What holds at first and is kept by every promise holds of every interleaving. -/
theorem Reach.invariant (reached : Reach S init c) (respects : Respects S K)
    (first : ∀ t, K.idle t init) {inv : σ → Prop} (base : inv init)
    (kept : ∀ t s s', K.guar t s s' → inv s → inv s') : inv c.shared := by
  induction reached with
  | start => exact base
  | @step c c' before next ih =>
    have here := (next.sound respects (before.sound respects first)).2
    cases here with
    | inl same => rw [same]; exact ih
    | inr moved =>
      obtain ⟨t, promised⟩ := moved
      exact kept t _ _ promised ih

end Soundness

/-- A run of a task that no other one interrupts. -/
inductive Alone (B : Behaviour C R σ) : Prog C R Unit → σ → σ → Prop
  | done (s : σ) : Alone B (.done ()) s s
  | call {s₁ s₂ s₃ : σ} (k : C) (next : R k → Prog C R Unit) (r : R k) (answer : B k s₁ r s₂)
      (rest : Alone B (next r) s₂ s₃) : Alone B (.call k next) s₁ s₃

section Alone

variable [DecidableEq T] {S : System C R σ T} {init s₁ s₂ : σ} {c : Config C R σ T}

theorem Alone.reach {p : Prog C R Unit} (h : Alone (S.answers t) p s₁ s₂) (reached : Reach S init c)
    (running : c.task t = some p) (here : c.shared = s₁) :
    ∃ c', Reach S init c' ∧ c'.shared = s₂ ∧ c'.task t = none ∧ ∀ u, u ≠ t → c'.task u = c.task u := by
  induction h generalizing c with
  | done s =>
    exact ⟨_, reached.step (.stop t running), here, Config.set_self .., fun u => Config.set_other c _ _⟩
  | @call s₁ s₂ s₃ k next r answer _ ih =>
    have moved := reached.step (.call t k next r s₂ running (here ▸ answer))
    obtain ⟨c', again, shared, idle, others⟩ := ih moved (Config.set_self ..) rfl
    exact ⟨c', again, shared, idle, fun u apart => (others u apart).trans (Config.set_other c _ _ apart)⟩

/-- With every task idle, one that runs alone leaves every task idle. -/
theorem Reach.alone {p : Prog C R Unit} (reached : Reach S init ⟨s₁, fun _ => none⟩) (entry : S.starts t p)
    (h : Alone (S.answers t) p s₁ s₂) : Reach S init ⟨s₂, fun _ => none⟩ := by
  obtain ⟨⟨shared, task⟩, again, rfl, idle, others⟩ :=
    h.reach (reached.step (.start t p rfl entry)) (Config.set_self ..) rfl
  have none_ : task = fun _ => none := by
    funext u
    by_cases mine : u = t
    · rw [mine]
      exact idle
    · exact (others u mine).trans (Config.set_other _ _ _ mine)
  rw [none_] at again
  exact again

end Alone

section Schedules

variable {Q : Type} [DecidableEq T] {S : System C R σ T} {init : σ} {c : Config C R σ T}

/-- What a schedule has a task do: begin a request, or take its next step. -/
inductive Turn (T Q : Type) where
  | ask (t : T) (q : Q)
  | go (t : T)

def Config.turn (M : T → Machine C R σ) (entry : Q → Prog C R Unit) (c : Config C R σ T) :
    Turn T Q → Config C R σ T
  | .ask t q =>
    match c.task t with
    | none => c.set t (some (entry q)) c.shared
    | some _ => c
  | .go t =>
    match c.task t with
    | none => c
    | some (.done _) => c.set t none c.shared
    | some (.call k next) =>
      match M t k c.shared with
      | (some r, s) => c.set t (some (next r)) s
      | (none, _) => c

variable {M : T → Machine C R σ} {entry : Q → Prog C R Unit}

theorem Reach.turn (h : Reach S init c) (real : ∀ t, Prog.Realises (M t) (S.answers t) id)
    (starts : ∀ t q, S.starts t (entry q)) (turn : Turn T Q) :
    Reach S init (c.turn M entry turn) := by
  cases turn with
  | ask t q =>
    rw [Config.turn]
    cases idle : c.task t with
    | none => exact h.step (.start t _ idle (starts t q))
    | some p => exact h
  | go t =>
    rw [Config.turn]
    cases running : c.task t with
    | none => exact h
    | some p =>
      cases p with
      | done v => exact h.step (.stop t running)
      | call k next =>
        cases answer : M t k c.shared with
        | mk r s =>
          cases r with
          | none => simpa only [answer] using h
          | some r =>
            have step := h.step (.call t k next r s running ((real t).answered k _ r s answer))
            simpa only [answer] using step

/-- A schedule carried out by executable tasks is one of the interleavings. -/
theorem Reach.turns (h : Reach S init c) (real : ∀ t, Prog.Realises (M t) (S.answers t) id)
    (starts : ∀ t q, S.starts t (entry q)) (turns : List (Turn T Q)) :
    Reach S init (turns.foldl (Config.turn M entry) c) := by
  induction turns generalizing c with
  | nil => exact h
  | cons turn rest ih => exact ih (h.turn real starts turn)

end Schedules

end Interleaving
