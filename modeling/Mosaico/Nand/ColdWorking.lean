import Mosaico.Nand.ColdSafety
import Mosaico.Nand.StoreWorking

/-! The cold store when no call fails: a load selects what the pages say, and an admitted save
is acknowledged. -/
namespace Mosaico.Nand.ColdStore

open PageDevice Interaction
open StoreModel (Page)
open Store (coldIo Host HostAnswer Session)

variable {γ : Type} {works : (h : Host) → γ → HostAnswer h → γ → Prop} {d : Device Page} {g : γ}
  {policy : Policy} {base : Nat}

theorem loadMarker_works {copy : Nat} (hcopy : copy < 2) (marker : Bool) :
    Delivers works (loadMarker (coldIo base) copy marker)
      (fun r d' _ => r = markerIn (d.view copy) marker ∧ d' = d) d g := by
  unfold loadMarker
  rw [coldIo_marker hcopy, delivers_readPage]
  exact ⟨rfl, rfl⟩

theorem loadRecord_works (i : Fin 2) :
    Delivers works (loadRecord (coldIo base) policy i)
      (fun r d' _ => r = recordIn policy (d.view (base + i)) ∧ d' = d) d g := by
  unfold loadRecord
  rw [coldIo_read, delivers_readPage]
  exact ⟨rfl, rfl⟩

theorem loadPair_works (policy : Policy) (base : Nat) :
    Delivers works
      (do
        match ← loadRecord (coldIo base) policy 0 with
        | .error code => return { code := code }
        | .ok a =>
          match ← loadRecord (coldIo base) policy 1 with
          | .error code => return { code := code }
          | .ok b => return select policy a b)
      (fun r d' _ => r = pairIn policy base d.view ∧ d' = d) d g := by
  apply (loadRecord_works 0).bind
  rintro _ d₁ g₁ ⟨rfl, rfl⟩
  rw [pairIn, show base + ((0 : Fin 2) : Nat) = base from rfl]
  cases recordIn policy (d₁.view base) with
  | error code => exact ⟨rfl, rfl⟩
  | ok a =>
    apply (loadRecord_works 1).bind
    rintro _ d₂ g₂ ⟨rfl, rfl⟩
    rw [Loaded.after_ok, show base + ((1 : Fin 2) : Nat) = base + 1 from rfl]
    cases recordIn policy (d₂.view (base + 1)) with
    | error code => exact ⟨rfl, rfl⟩
    | ok b => exact ⟨rfl, rfl⟩

theorem load_works :
    Delivers works (load (coldIo base) policy) (fun r d' _ => r = loadIn policy base d.view ∧ d' = d) d g := by
  unfold load
  apply (loadMarker_works (by decide) false).bind
  rintro _ d₁ g₁ ⟨rfl, rfl⟩
  rw [loadIn]
  cases markerIn (d₁.view 0) false with
  | error code => exact ⟨rfl, rfl⟩
  | ok marker =>
    apply (loadMarker_works (by decide) marker).bind
    rintro _ d₂ g₂ ⟨rfl, rfl⟩
    rw [Loaded.after_ok]
    cases markerIn (d₂.view 1) marker with
    | error code => exact ⟨rfl, rfl⟩
    | ok marker =>
      rw [Loaded.after_ok]
      dsimp only
      split
      · exact ⟨rfl, rfl⟩
      · exact loadPair_works policy base

/-- The medium of the device after an admitted save. -/
def SavedAs (base : Nat) (m : Medium Page) (next : Record) (target : Fin 2) (d : Device Page) : Prop :=
  d.Leaves fun m' _ => m' = Function.update m (base + target) (image next)

theorem save_works {m : Medium Page} {next : Record} {target : Fin 2}
    (admitted : Admitted policy base m next target) : Delivers works (save (coldIo base) policy next true)
      (fun code d' _ => code = .ready ∧ SavedAs base m next target d') (.fresh m) g := by
  unfold save
  rw [if_neg (by simp [admitted.shape, admitted.valid])]
  apply load_works.bind
  rintro _ d₁ g₁ ⟨rfl, rfl⟩
  rw [Device.fresh_view, admitted.chosen]
  dsimp only
  rw [encode_eq admitted.shape]
  dsimp only
  rw [coldIo_write, coldIo_sync, coldIo_read, delivers_writePage, if_neg (by decide), delivers_sync,
    if_neg (by decide), delivers_readPage]
  dsimp only
  rw [Device.flush_view, Device.write_view, Function.update_self, if_neg (fun bad => bad rfl),
    decode_image admitted.shape]
  dsimp only
  rw [if_pos admitted.valid]
  refine ⟨rfl, ?_⟩
  rw [SavedAs, Device.leaves_flush, Device.write_view]
  rfl

end Mosaico.Nand.ColdStore

namespace Mosaico.Nand.Store

open PageDevice
open StoreModel (Page)
open ColdStore (Record Policy Admitted image loadIn)

variable {d : Device Page} {g : Selectors} {m : Medium Page} {policy : Policy}

theorem base_inside (area : ColdArea) : coldPageBase area + 2 ≤ LogModel.requiredPages ∧
    18 ≤ LogModel.requiredPages := by
  cases area <;> decide

theorem coldLoaded_works (result : Report) (loaded : ColdStore.Loaded) (ok : coldError loaded.code = .ok)
    (clean : result.cleanupError = .ok) :
    Delivers works
      (do
        let result := checkCold result loaded.code
        if result.error ≠ .ok then return { report := result }
        return { report := { result with formatted := true, stage := .complete }
                 work := { coldRecord := loaded.selected.map Prod.snd } } : Session Recorded)
      (fun r _ _ => ((r.report.error = .ok ∧ r.report.coldCode = loaded.code) ∧
        r.work.coldRecord = loaded.selected.map Prod.snd) ∧ r.report.cleanupError = .ok) d g := by
  dsimp only
  rw [if_neg (fun bad => bad ok)]
  exact ⟨⟨⟨ok, rfl⟩, rfl⟩, clean⟩

theorem recordColdLoad_works {area : ColdArea} (result : Report)
    (enough : LogModel.requiredPages ≤ result.logicalPages) (clean : result.cleanupError = .ok)
    (sound : coldError (loadIn policy (coldPageBase area) d.view).code = .ok) :
    Delivers works (recordColdLoad (coldPageBase area) policy result)
      (fun r _ _ => ((r.report.error = .ok ∧ r.report.coldCode = (loadIn policy (coldPageBase area) d.view).code) ∧
        r.work.coldRecord = (loadIn policy (coldPageBase area) d.view).selected.map Prod.snd) ∧
        r.report.cleanupError = .ok) d g := by
  have room := (base_inside area).1
  unfold recordColdLoad
  rw [if_neg (by omega)]
  apply ColdStore.load_works.bind
  rintro _ d' g' ⟨rfl, rfl⟩
  exact coldLoaded_works (result.reach .record) _ sound clean

private theorem protected_apart {base page : Nat} (target : Fin 2) (mem : page ∈ protectedPages base) :
    page ≠ base + target := by
  have apart := of_decide_eq_true (List.mem_filter.mp mem).2
  omega

theorem recordColdSave_works {area : ColdArea} {next : Record} {target : Fin 2} (result : Report)
    (enough : LogModel.requiredPages ≤ result.logicalPages) (clean : result.cleanupError = .ok)
    (admitted : Admitted policy (coldPageBase area) m next target)
    (published : loadIn policy (coldPageBase area) (Function.update m (coldPageBase area + target) (image next)) =
      { code := .ready, selected := some (target, next) }) :
    Delivers works (recordColdSave (coldPageBase area) next policy result)
      (fun r _ _ => r.report.error = .ok ∧ r.report.cleanupError = .ok) (.fresh m) g := by
  have room := base_inside area
  unfold recordColdSave
  rw [if_neg (by omega)]
  dsimp only
  rw [if_neg (by simp only [Report.reach]; omega)]
  apply (digest_works _).bind
  rintro _ d₁ g₁ ⟨rfl, rfl⟩
  apply (ColdStore.save_works admitted).bind
  rintro _ d₂ g₂ ⟨rfl, saved⟩
  rw [if_neg (fun bad => bad rfl)]
  unfold verifyCold
  rw [delivers_deinit]
  intro m' left
  rw [if_neg (by decide), delivers_ask]
  rintro error g₃ ⟨rfl, rfl⟩
  rw [if_neg (fun bad => bad rfl)]
  have medium := (saved.restart left).view
  apply ColdStore.load_works.bind
  rintro _ d₃ g₄ ⟨rfl, rfl⟩
  rw [medium, published]
  dsimp only
  rw [if_neg (fun bad => bad rfl), if_neg (by simp)]
  have protectedCrc : digestOf m (protectedPages (coldPageBase area)) =
      digestOf (d₂.restart m').view (protectedPages (coldPageBase area)) := by
    rw [medium]
    exact (digestOf_congr fun page mem => Function.update_of_ne (protected_apart target mem) _ _).symm
  rw [Device.fresh_view, protectedCrc]
  apply (checkDigest_works _).bind
  rintro _ d₄ g₅ rfl
  exact ⟨rfl, clean⟩

end Mosaico.Nand.Store
