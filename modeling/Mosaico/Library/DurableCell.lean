import Mathlib.Logic.Basic

/-! A value in non-volatile storage that is written in two steps, put and commit. Each step may
succeed, fail, or fail after it has taken effect; reads are truthful or fail. -/
namespace DurableCell

inductive Status where
  | ok | notFound | failed
  deriving DecidableEq, Repr

/-- What a reader finds, and what was put and not committed yet. -/
structure Cell (V : Type) where
  durable : Option V := none
  staged : Option V := none

variable {V : Type} {c c' : Cell V} {v : V} {ok : Bool}

/-- Storage is not reported missing while a value is there. -/
def Opened (c : Cell V) (r : Status) (c' : Cell V) : Prop :=
  c' = c ∧ (r = .notFound → c.durable = none)

def Loaded (c : Cell V) (r : Except Status V) (c' : Cell V) : Prop :=
  c' = c ∧ (∀ v, r = .ok v → c.durable = some v) ∧ (r = .error .notFound → c.durable = none)

def Put (v : V) (c : Cell V) (ok : Bool) (c' : Cell V) : Prop :=
  c'.staged = (if ok then some v else none) ∧ (c'.durable = c.durable ∨ c'.durable = some v)

def Committed (c : Cell V) (ok : Bool) (c' : Cell V) : Prop :=
  c'.staged = none ∧ (c'.durable = c.durable ∨ c'.durable = c.staged) ∧
    (ok = true → ∀ v, c.staged = some v → c'.durable = some v)

/-- Between a put and its commit the value is the old one or the new one. -/
theorem Put.commit {c'' : Cell V} {ok' : Bool} (put : Put v c true c') (commit : Committed c' ok' c'') :
    (c''.durable = c.durable ∨ c''.durable = some v) ∧ (ok' = true → c''.durable = some v) := by
  obtain ⟨staged, moved⟩ := put
  obtain ⟨-, settled, durable⟩ := commit
  refine ⟨?_, fun done => durable done v staged⟩
  cases settled with
  | inl kept => rw [kept]; exact moved
  | inr taken => rw [taken]; exact Or.inr staged

end DurableCell
