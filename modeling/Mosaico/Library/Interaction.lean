import Mathlib.Logic.Basic

/-! Programs that reach the outside only through calls, with a demonic
weakest precondition over every answer the environment may give. A second
predicate is required after every call, so that it also describes the state an
interrupted run leaves behind. -/
namespace Interaction

/-- A program over calls `C`; the environment answers `c` with an `R c`. -/
inductive Prog (C : Type) (R : C → Type) (α : Type) where
  | done (value : α)
  | call (c : C) (next : R c → Prog C R α)

/-- How a state may change while a call is answered. Several answers and
several next states may be possible. -/
abbrev Behaviour (C : Type) (R : C → Type) (σ : Type) := (c : C) → σ → R c → σ → Prop

/-- An executable environment; no answer means that the run is cut here. -/
abbrev Machine (C : Type) (R : C → Type) (τ : Type) := (c : C) → τ → Option (R c) × τ

namespace Prog

variable {C : Type} {R : C → Type} {α β γ σ τ ε : Type}

def bind (program : Prog C R α) (next : α → Prog C R β) : Prog C R β :=
  match program with
  | .done value => next value
  | .call c rest => .call c fun r => (rest r).bind next

instance : Monad (Prog C R) where
  pure := .done
  bind := bind

def perform (c : C) : Prog C R (R c) := .call c .done

theorem bind_done (program : Prog C R α) : program.bind .done = program := by
  induction program with
  | done value => rfl
  | call c rest ih => simp only [bind]; congr 1; funext r; exact ih r

theorem bind_assoc (program : Prog C R α) (first : α → Prog C R β) (second : β → Prog C R γ) :
    (program.bind first).bind second = program.bind fun a => (first a).bind second := by
  induction program with
  | done value => rfl
  | call c rest ih => simp only [bind]; congr 1; funext r; exact ih r

instance : LawfulMonad (Prog C R) :=
  LawfulMonad.mk' _ (fun program => bind_done program) (fun _ _ => rfl) bind_assoc

/-- Every answer leads to `post`, and `inv` holds after every call. -/
def wp (B : Behaviour C R σ) (program : Prog C R α) (post : α → σ → Prop) (inv : σ → Prop) :
    σ → Prop :=
  match program with
  | .done value => post value
  | .call c next => fun s => ∀ r s', B c s r s' → inv s' ∧ (next r).wp B post inv s'

variable {B : Behaviour C R σ} {post post' : α → σ → Prop} {inv inv' : σ → Prop} {s : σ}

@[simp] theorem wp_pure (value : α) :
    (pure value : Prog C R α).wp B post inv s ↔ post value s := Iff.rfl

@[simp] theorem wp_done (value : α) :
    (Prog.done value : Prog C R α).wp B post inv s ↔ post value s := Iff.rfl

@[simp] theorem wp_perform (c : C) (answered : R c → σ → Prop) :
    (perform c : Prog C R (R c)).wp B answered inv s ↔
      ∀ r s', B c s r s' → inv s' ∧ answered r s' := Iff.rfl

theorem wp_perform_bind (c : C) (next : R c → Prog C R β) (after : β → σ → Prop) :
    (perform c >>= next).wp B after inv s ↔
      ∀ r s', B c s r s' → inv s' ∧ (next r).wp B after inv s' := Iff.rfl

theorem wp_bind_iff (program : Prog C R α) (next : α → Prog C R β) (after : β → σ → Prop) :
    (program >>= next).wp B after inv s ↔
      program.wp B (fun a t => (next a).wp B after inv t) inv s := by
  induction program generalizing s with
  | done value => exact Iff.rfl
  | call c rest ih =>
    constructor
    · exact fun h r s' step => ⟨(h r s' step).1, (ih r).mp (h r s' step).2⟩
    · exact fun h r s' step => ⟨(h r s' step).1, (ih r).mpr (h r s' step).2⟩

theorem wp_mono {program : Prog C R α} (h : program.wp B post inv s)
    (hpost : ∀ a t, post a t → post' a t) (hinv : ∀ t, inv t → inv' t) :
    program.wp B post' inv' s := by
  induction program generalizing s with
  | done value => exact hpost value s h
  | call c rest ih =>
    exact fun r s' step => ⟨hinv _ (h r s' step).1, ih r (h r s' step).2⟩

/-- Every program meets what always holds. -/
theorem wp_total {program : Prog C R α} (always : ∀ a t, post a t) (kept : ∀ t, inv t) : program.wp B post inv s := by
  induction program generalizing s with
  | done value => exact always value s
  | call c rest ih => exact fun r s' _ => ⟨kept s', ih r⟩

theorem wp_any (program : Prog C R α) : program.wp B (fun _ _ => True) (fun _ => True) s :=
  wp_total (fun _ _ => trivial) fun _ => trivial

theorem wp_and {program : Prog C R α} (left : program.wp B post inv s)
    (right : program.wp B post' inv' s) :
    program.wp B (fun a t => post a t ∧ post' a t) (fun t => inv t ∧ inv' t) s := by
  induction program generalizing s with
  | done value => exact ⟨left, right⟩
  | call c rest ih =>
    exact fun r s' step =>
      ⟨⟨(left r s' step).1, (right r s' step).1⟩, ih r (left r s' step).2 (right r s' step).2⟩

/-- Sequencing: the specification of the first part feeds the second. -/
theorem wp_bind {program : Prog C R α} {next : α → Prog C R β} {after : β → σ → Prop}
    (first : program.wp B post inv s)
    (rest : ∀ a t, post a t → (next a).wp B after inv t) :
    (program >>= next).wp B after inv s :=
  (wp_bind_iff program next after).mpr (wp_mono first rest fun _ => id)

/-- A program over other calls, each of them answered by a handler that keeps a state. -/
def handle {D : Type} {Q : D → Type} (handler : (d : D) → ε → Prog C R (Q d × ε)) :
    Prog D Q α → ε → Prog C R (α × ε)
  | .done value, e => pure (value, e)
  | .call d next, e => handler d e >>= fun a => (next a.1).handle handler a.2

/-- A property kept by every call of the program holds throughout. -/
def Uses (allowed : C → Prop) : Prog C R α → Prop
  | .done _ => True
  | .call c next => allowed c ∧ ∀ r, (next r).Uses allowed

@[simp] theorem uses_pure (allowed : C → Prop) (value : α) :
    (pure value : Prog C R α).Uses allowed := trivial

@[simp] theorem uses_perform (allowed : C → Prop) (c : C) :
    (perform c : Prog C R (R c)).Uses allowed ↔ allowed c :=
  ⟨fun h => h.1, fun h => ⟨h, fun _ => trivial⟩⟩

theorem Uses.bind {allowed : C → Prop} {program : Prog C R α} {next : α → Prog C R β}
    (first : program.Uses allowed) (rest : ∀ a, (next a).Uses allowed) :
    (program >>= next).Uses allowed := by
  induction program with
  | done value => exact rest value
  | call c tail ih => exact ⟨first.1, fun r => ih r (first.2 r)⟩

theorem uses_any (program : Prog C R α) : program.Uses fun _ => True := by
  induction program with
  | done value => trivial
  | call c next ih => exact ⟨trivial, ih⟩

theorem Uses.mono {allowed wider : C → Prop} {program : Prog C R α}
    (h : program.Uses allowed) (implies : ∀ c, allowed c → wider c) : program.Uses wider := by
  induction program with
  | done value => trivial
  | call c tail ih => exact ⟨implies c h.1, fun r => ih r (h.2 r)⟩

/-- An invariant of every allowed call is an invariant of the whole program. -/
theorem Uses.wp {allowed : C → Prop} {program : Prog C R α} (h : program.Uses allowed)
    (keeps : ∀ c t r t', allowed c → B c t r t' → inv t → inv t') (hs : inv s) :
    program.wp B (fun _ t => inv t) inv s := by
  induction program generalizing s with
  | done value => exact hs
  | call c tail ih =>
    intro r s' step
    have next := keeps c s r s' h.1 step hs
    exact ⟨next, ih r (h.2 r) next⟩

def run (M : Machine C R τ) : Prog C R α → τ → Option α × τ
  | .done value, t => (some value, t)
  | .call c next, t =>
    match M c t with
    | (some r, t') => (next r).run M t'
    | (none, t') => (none, t')

@[simp] theorem run_pure (M : Machine C R τ) (value : α) (t : τ) :
    (pure value : Prog C R α).run M t = (some value, t) := rfl

theorem run_bind (M : Machine C R τ) (program : Prog C R α) (next : α → Prog C R β) (t : τ) :
    (program >>= next).run M t =
      match program.run M t with
      | (some a, t') => (next a).run M t'
      | (none, t') => (none, t') := by
  induction program generalizing t with
  | done value => rfl
  | call c rest ih =>
    change (Prog.call c fun r => rest r >>= next).run M t = _
    simp only [run]
    cases hstep : M c t with
    | mk answer t' =>
      cases answer with
      | none => rfl
      | some r => exact ih r t'

/-- The calls and answers of a run that ended, in order. -/
inductive Answered : Prog C R α → List (Σ c, R c) → α → Prop
  | done (value : α) : Answered (.done value) [] value
  | call (c : C) (next : R c → Prog C R α) (r : R c) {rest : List (Σ c, R c)} {value : α}
      (after : Answered (next r) rest value) : Answered (.call c next) (⟨c, r⟩ :: rest) value

/-- A run of a sequence is a run of the first part and one of the second. -/
theorem Answered.bind {program : Prog C R α} {next : α → Prog C R β} {trace : List (Σ c, R c)}
    {b : β} (h : Answered (program >>= next) trace b) :
    ∃ first rest a, trace = first ++ rest ∧ Answered program first a ∧
      Answered (next a) rest b := by
  induction program generalizing trace with
  | done value => exact ⟨[], trace, value, rfl, .done value, h⟩
  | call c tail ih =>
    cases h with
    | call _ _ r after =>
      obtain ⟨first, rest, a, hrest, hfirst, hnext⟩ := ih r after
      exact ⟨⟨c, r⟩ :: first, rest, a, by rw [hrest]; rfl, .call c tail r hfirst, hnext⟩

/-- A machine realises a behaviour, seen through `view`, when each of its
steps, answered or cut, is one the behaviour allows. -/
structure Realises (M : Machine C R τ) (B : Behaviour C R σ) (view : τ → σ) : Prop where
  answered : ∀ c t r t', M c t = (some r, t') → B c (view t) r (view t')
  cut : ∀ c t t', M c t = (none, t') → view t' = view t ∨ ∃ r, B c (view t) r (view t')

/-- What is proved of every behaviour holds of every executable run. -/
theorem wp_run {M : Machine C R τ} {view : τ → σ} (real : Realises M B view)
    {program : Prog C R α} {t : τ} (h : program.wp B post inv (view t)) (hinv : inv (view t)) :
    inv (view (program.run M t).2) ∧
      ∀ a, (program.run M t).1 = some a → post a (view (program.run M t).2) := by
  induction program generalizing t with
  | done value => exact ⟨hinv, fun a ha => by cases ha; exact h⟩
  | call c next ih =>
    simp only [run]
    cases hstep : M c t with
    | mk answer t' =>
      cases answer with
      | none =>
        refine ⟨?_, fun a ha => by cases ha⟩
        rcases real.cut c t t' hstep with same | ⟨r, changed⟩
        · simpa only [same] using hinv
        · exact (h r _ changed).1
      | some r =>
        have step := h r _ (real.answered c t r t' hstep)
        exact ih r step.2 step.1

/-- The states a run passes through, wherever it is cut. -/
def Visits (B : Behaviour C R σ) : Prog C R α → σ → σ → Prop
  | .done _, s, t => t = s
  | .call c next, s, t => t = s ∨ ∃ r s', B c s r s' ∧ (next r).Visits B s' t

/-- The results and last states of the runs that end. -/
def Ends (B : Behaviour C R σ) : Prog C R α → σ → α → σ → Prop
  | .done value, s, a, t => a = value ∧ t = s
  | .call c next, s, a, t => ∃ r s', B c s r s' ∧ (next r).Ends B s' a t

theorem wp_visits {program : Prog C R α} {t : σ} (h : program.wp B post inv s) (hs : inv s)
    (visited : program.Visits B s t) : inv t := by
  induction program generalizing s with
  | done value =>
    rw [visited]
    exact hs
  | call c next ih =>
    cases visited with
    | inl same =>
      rw [same]
      exact hs
    | inr later =>
      obtain ⟨r, s', step, visited⟩ := later
      exact ih r (h r s' step).2 (h r s' step).1 visited

theorem wp_ends {program : Prog C R α} {a : α} {t : σ} (h : program.wp B post inv s)
    (ended : program.Ends B s a t) : post a t := by
  induction program generalizing s with
  | done value =>
    obtain ⟨rfl, rfl⟩ := ended
    exact h
  | call c next ih =>
    obtain ⟨r, s', step, ended⟩ := ended
    exact ih r (h r s' step).2 ended

theorem ends_bind {program : Prog C R α} {next : α → Prog C R β} {a : α} {b : β} {t u : σ}
    (first : program.Ends B s a t) (rest : (next a).Ends B t b u) : (program >>= next).Ends B s b u := by
  induction program generalizing s with
  | done value =>
    obtain ⟨rfl, rfl⟩ := first
    exact rest
  | call c tail ih =>
    obtain ⟨r, s', step, ended⟩ := first
    exact ⟨r, s', step, ih r ended⟩

theorem Ends.visits {program : Prog C R α} {a : α} {t : σ} (h : program.Ends B s a t) :
    program.Visits B s t := by
  induction program generalizing s with
  | done value => exact h.2
  | call c next ih =>
    obtain ⟨r, s', step, ended⟩ := h
    exact Or.inr ⟨r, s', step, ih r ended⟩

theorem ends_run {M : Machine C R τ} {view : τ → σ} (real : Realises M B view)
    {program : Prog C R α} {t : τ} {a : α} (h : (program.run M t).1 = some a) :
    program.Ends B (view t) a (view (program.run M t).2) := by
  induction program generalizing t with
  | done value =>
    cases h
    exact ⟨rfl, rfl⟩
  | call c next ih =>
    simp only [run] at h ⊢
    cases hstep : M c t with
    | mk answer t' =>
      rw [hstep] at h
      cases answer with
      | none => cases h
      | some r => exact ⟨r, view t', real.answered c t r t' hstep, ih r h⟩

theorem visits_here (B : Behaviour C R σ) (program : Prog C R α) (s : σ) : program.Visits B s s := by
  cases program with
  | done value => rfl
  | call c next => exact Or.inl rfl

/-- A run on a machine, and also one that the machine cuts, stops in a state that is passed through. -/
theorem visits_run {M : Machine C R τ} {view : τ → σ} (real : Realises M B view) (program : Prog C R α) (t : τ) :
    program.Visits B (view t) (view (program.run M t).2) := by
  induction program generalizing t with
  | done value => rfl
  | call c next ih =>
    simp only [run]
    cases hstep : M c t with
    | mk answer t' =>
      cases answer with
      | none =>
        rcases real.cut c t t' hstep with same | ⟨r, changed⟩
        · exact Or.inl same
        · exact Or.inr ⟨r, view t', changed, visits_here B _ _⟩
      | some r => exact Or.inr ⟨r, view t', real.answered c t r t' hstep, ih r t'⟩

end Prog
end Interaction
