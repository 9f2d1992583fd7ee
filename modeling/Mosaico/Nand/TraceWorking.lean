import Mosaico.Nand.StoreSafety
import Mosaico.Nand.StoreWorking

/-! The trace store when no call fails: a load answers what the medium holds, and a save is
acknowledged. -/
namespace Mosaico.Nand.StoreModel

open ByteFields PageDevice Interaction

section Model

variable {H γ : Type} {A : H → Type} {works : (h : H) → γ → A h → γ → Prop} {d : Device Page} {g : γ}

theorem readPayload_works (slot : Fin 2) (expectedCrc : Nat) :
    Delivers works (readPayload slot expectedCrc : PageProg Page H A _)
      (fun r _ _ => r = .error .corrupt ∨ ∃ payload, r = .ok payload) d g := by
  unfold readPayload
  rw [delivers_readPage]
  dsimp only
  split
  · rw [delivers_readPage]
    dsimp only
    split
    · split
      · exact .inr ⟨_, rfl⟩
      · exact .inl rfl
    · exact .inl rfl
  · exact .inl rfl

theorem scanMarker_works (copy : Nat) (seen : MarkerScan) :
    Delivers works (scanMarker copy seen : PageProg Page H A _) (fun r _ _ => ∃ found, r = some found) d g := by
  unfold scanMarker
  rw [delivers_readPage]
  dsimp only
  split <;> exact ⟨_, rfl⟩

theorem scanSlot_works (result : Result) (slot : Fin 2) (invalidCommit : Bool) :
    Delivers works (scanSlot result slot invalidCommit : PageProg Page H A _) (fun r _ _ => ∃ found, r = .ok found)
      d g := by
  unfold scanSlot
  rw [delivers_readPage]
  dsimp only
  split
  · exact ⟨_, rfl⟩
  · apply (readPayload_works slot _).bind
    rintro r d' g' (rfl | ⟨payload, rfl⟩)
    · exact ⟨_, rfl⟩
    · exact ⟨_, rfl⟩

private theorem choose_read (result : Result) (slot0 slot1 : Slot) (invalidCommit : Bool) :
    (choose result slot0 slot1 invalidCommit).code ≠ .io := by
  have code : ∀ flag : Bool, (if flag then Code.corrupt else Code.empty) ≠ .io := by decide
  unfold choose
  split
  · exact code invalidCommit
  · split
    · exact code true
    · split <;> exact fun other => by cases other

theorem scan_works : Delivers works (scan : PageProg Page H A _) (fun r _ _ => r.code ≠ .io) d g := by
  unfold scan
  apply (scanMarker_works 0 {}).bind
  rintro _ d₁ g₁ ⟨first, rfl⟩
  apply (scanMarker_works 1 first).bind
  rintro _ d₂ g₂ ⟨seen, rfl⟩
  dsimp only
  split
  · show (if seen.nonblank then Code.corrupt else Code.notFormatted) ≠ .io
    split <;> decide
  · apply (scanSlot_works _ 0 false).bind
    rintro _ d₃ g₃ ⟨⟨result, slot0, invalidCommit⟩, rfl⟩
    apply (scanSlot_works _ 1 invalidCommit).bind
    rintro _ d₄ g₄ ⟨⟨result, slot1, invalidCommit⟩, rfl⟩
    exact choose_read _ _ _ _

theorem load_read : Delivers works (load : PageProg Page H A _) (fun r _ _ => r.1.code ≠ .io) d g := by
  unfold load
  apply scan_works.bind
  intro result d₁ g₁ scanned
  split
  · exact scanned
  · rw [delivers_readPage]
    dsimp only
    split
    · exact fun other => by cases other
    · apply (readPayload_works _ _).bind
      rintro r d₂ g₂ (rfl | ⟨payload, rfl⟩)
      · exact fun other => by cases other
      · exact fun other => by cases other

/-- A load of a medium that holds `st` finds it. -/
theorem load_works {st : Option Saved} (h : Holds d.view st) :
    Delivers works (load : PageProg Page H A _)
      (fun r d' _ => d' = d ∧ Scanned r.1 st ∧ r.2 = st.map Saved.payload) d g := by
  have found : (load : PageProg Page H A _).wp faulty (fun r d' => d' = d ∧ Loaded r st) (fun _ => True) d :=
    load_spec trivial h
  apply (load_read.and (.of_faulty found)).mono
  rintro r d' g' ⟨read, same, failed | scanned⟩
  · exact absurd failed.1 read
  · exact ⟨same, scanned⟩

/-- A code of a save that had its turn on the device. -/
def Tried (code : Code) : Prop := code = .ok ∨ code = .verify ∨ code = .corrupt

theorem Tried.not_failed {code : Code} (h : Tried code) : code ≠ .io ∧ code ≠ .generationExhausted := by
  rcases h with rfl | rfl | rfl
  · decide
  · decide
  · decide

theorem publishCommit_works (result : Result) (slot : Fin 2) (generation : Nat) (input : Payload) :
    Delivers works (publishCommit result slot generation input : PageProg Page H A _)
      (fun r _ _ => Tried r.code) d g := by
  unfold publishCommit
  rw [delivers_writePage, if_neg (by decide), delivers_sync, if_neg (by decide), delivers_readPage]
  dsimp only
  split
  · exact .inr (.inl rfl)
  · apply (readPayload_works _ _).bind
    rintro r d' g' (rfl | ⟨payload, rfl⟩)
    · exact .inr (.inr rfl)
    · dsimp only
      split
      · exact .inr (.inl rfl)
      · exact .inl rfl

/-- A save that still has a generation to give publishes its payload. -/
theorem save_works {st : Option Saved} {m : Medium Page} (input : Payload) (h : Holds m st)
    (room : generationOf st ≠ maxGeneration) :
    Delivers works (save input : PageProg Page H A _)
      (fun r d' _ => r.code = .ok ∧ d'.Leaves (SaveDone st input r)) (.fresh m) g := by
  have found : (scan : PageProg Page H A _).wp faulty (fun r d' => d' = .fresh m ∧ (r.code = .io ∨ Scanned r st))
      (fun _ => True) (.fresh m) := scan_spec trivial h
  have went : Delivers works (save input : PageProg Page H A _)
      (fun r _ _ => Tried r.code) (.fresh m) g := by
    unfold save
    apply (scan_works.and (.of_faulty found)).bind
    rintro result d₁ g₁ ⟨read, rfl, failed | scanned⟩
    · exact absurd failed read
    have generation : result.generation = generationOf st ∧ ¬(result.code ≠ .ok ∧ result.code ≠ .empty) := by
      cases st with
      | none => exact ⟨scanned.2.1, fun bad => bad.2 scanned.1⟩
      | some s => exact ⟨scanned.2.1, fun bad => bad.1 scanned.1⟩
    rw [if_neg generation.2, generation.1, if_neg room, delivers_writePage, if_neg (by decide), delivers_writePage,
      if_neg (by decide), delivers_sync, if_neg (by decide)]
    apply (readPayload_works _ _).bind
    rintro r d₂ g₂ (rfl | ⟨payload, rfl⟩)
    · exact .inr (.inr rfl)
    · dsimp only
      split
      · exact .inr (.inl rfl)
      · exact publishCommit_works _ _ _ _
  have settled := save_spec (A := A) (H := H) input h
  apply (went.and (.of_faulty settled)).mono
  rintro r d' g' ⟨tried, done⟩
  obtain ⟨-, (failed | failed) | ⟨ok, -⟩⟩ := done.view
  · exact absurd failed tried.not_failed.1
  · exact absurd failed tried.not_failed.2
  · exact ⟨ok, done⟩

end Model

end Mosaico.Nand.StoreModel

namespace Mosaico.Nand.Store

open PageDevice
open StoreModel (Page Payload Saved Holds successor generationOf maxGeneration)

variable {d : Device Page} {g : Selectors} {m : Medium Page} {st : Option Saved}

/-- What a load answers of a medium that holds `st`. -/
def LoadAnswers (st : Option Saved) (r : Recorded) : Prop :=
  match st with
  | none => r.report.record.code = .empty
  | some saved => r.report.error = .ok ∧ r.report.record.code = .ok ∧ r.work.snapshot = saved.payload

theorem recordLoad_works (h : Holds d.view st) {result : Report} (clean : result.cleanupError = .ok) :
    Delivers works (recordLoad result) (fun r _ _ => LoadAnswers st r ∧ r.report.cleanupError = .ok) d g := by
  unfold recordLoad
  apply (StoreModel.load_works h).bind
  rintro ⟨record, found⟩ d' g' ⟨rfl, scanned, payload⟩
  dsimp only at scanned payload ⊢
  cases st with
  | none =>
    rw [if_pos (by rw [checkRecord_error, scanned.1]; decide)]
    exact ⟨scanned.1, clean⟩
  | some saved =>
    have ok : (checkRecord (result.reach .record) record).error = .ok := by
      rw [checkRecord_error, scanned.1]
      rfl
    rw [if_neg (fun bad => bad ok)]
    refine ⟨⟨ok, scanned.1, ?_⟩, clean⟩
    show found.getD _ = saved.payload
    rw [payload]
    rfl

theorem reopen_works (result : Report) (pages : Medium Page → List Nat → Prop) (h : d.Leaves pages) :
    Delivers works (reopen result)
      (fun r d' _ => r = (result.reach .reopen, true) ∧ d'.Leaves pages) d g := by
  unfold reopen
  rw [delivers_deinit]
  intro m left
  rw [if_neg (by decide), delivers_ask]
  rintro error g' ⟨rfl, rfl⟩
  rw [if_neg (fun bad => bad rfl)]
  exact ⟨rfl, h.restart left⟩

theorem recordSave_works (h : Holds m st) (room : generationOf st ≠ maxGeneration) (input : Payload)
    {result : Report} (clean : result.cleanupError = .ok) :
    Delivers works (recordSave input result)
      (fun r _ _ => r.report.error = .ok ∧ r.report.cleanupError = .ok) (.fresh m) g := by
  unfold recordSave
  apply (StoreModel.save_works input h room).bind
  rintro record d₁ g₁ ⟨ok, done⟩
  dsimp only
  rw [if_neg (fun bad => bad (by rw [checkRecord_error, ok]; rfl))]
  unfold verifySave
  apply (reopen_works _ _ done).bind
  rintro _ d₂ g₂ ⟨rfl, done⟩
  dsimp only
  rw [if_neg (by decide)]
  have holds : Holds d₂.view (some (successor st input)) ∧ record.generation = generationOf st + 1 := by
    obtain ⟨-, (failed | failed) | ⟨-, holds, generation⟩⟩ := done.view
    · rw [ok] at failed
      cases failed
    · rw [ok] at failed
      cases failed
    · exact ⟨holds, generation⟩
  apply (StoreModel.load_works holds.1).bind
  rintro ⟨again, found⟩ d₃ g₃ ⟨rfl, scanned, payload⟩
  dsimp only at scanned payload ⊢
  rw [if_neg (fun bad => bad (by rw [scanned.1]; rfl)), if_neg]
  · exact ⟨by rw [scanned.1]; rfl, clean⟩
  · rintro (generation | other)
    · exact generation (scanned.2.1.trans holds.2.symm)
    · exact other payload

end Mosaico.Nand.Store
