import Mathlib.Data.List.Basic

/-! The abstract crash-atomic cell. A save may be acknowledged, fail, or be cut;
afterwards a reader finds the last acknowledged value or one whose save was
attempted later. Ledgers list the attempts newest first. -/
namespace SaveLedger

variable {V : Type}

structure Attempt (V : Type) where
  value : V
  acknowledged : Bool

def Recoverable (ledger : List (Attempt V)) : Option V → Prop
  | none => ∀ a ∈ ledger, a.acknowledged = false
  | some v => ∃ newer older acknowledged, ledger = newer ++ ⟨v, acknowledged⟩ :: older ∧
      ∀ a ∈ newer, a.acknowledged = false

theorem recoverable_nil : Recoverable ([] : List (Attempt V)) none := by
  intro a ha
  cases ha

/-- The newest value may always be found, acknowledged or not. -/
theorem recoverable_newest (v : V) (acknowledged : Bool) (ledger : List (Attempt V)) :
    Recoverable (⟨v, acknowledged⟩ :: ledger) (some v) :=
  ⟨[], ledger, acknowledged, rfl, fun _ ha => by cases ha⟩

/-- An attempt that was not acknowledged need not show. -/
theorem Recoverable.unacknowledged {ledger : List (Attempt V)} {found : Option V}
    (h : Recoverable ledger found) (v : V) : Recoverable (⟨v, false⟩ :: ledger) found := by
  cases found with
  | none =>
    intro a ha
    rcases List.mem_cons.mp ha with rfl | ha
    · rfl
    · exact h a ha
  | some u =>
    obtain ⟨newer, older, acknowledged, rfl, hnewer⟩ := h
    refine ⟨⟨v, false⟩ :: newer, older, acknowledged, rfl, fun a ha => ?_⟩
    rcases List.mem_cons.mp ha with rfl | ha
    · rfl
    · exact hnewer a ha

/-- The law of one save: the cell keeps its value or takes the new one, and it
has taken the new one when the save is acknowledged. -/
theorem Recoverable.save {ledger : List (Attempt V)} {found found' : Option V}
    (h : Recoverable ledger found) {v : V} {acknowledged : Bool}
    (moved : found' = found ∨ found' = some v) (durable : acknowledged = true → found' = some v) :
    Recoverable (⟨v, acknowledged⟩ :: ledger) found' := by
  cases acknowledged with
  | true => rw [durable rfl]; exact recoverable_newest v true ledger
  | false =>
    rcases moved with rfl | rfl
    · exact h.unacknowledged v
    · exact recoverable_newest v false ledger

/-- An acknowledged value shadows everything older. -/
theorem Recoverable.mem {ledger : List (Attempt V)} {v : V} (h : Recoverable ledger (some v)) :
    ∃ a ∈ ledger, a.value = v := by
  obtain ⟨newer, older, acknowledged, rfl, -⟩ := h
  exact ⟨⟨v, acknowledged⟩, by simp, rfl⟩

end SaveLedger
