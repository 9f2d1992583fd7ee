import Mosaico.Library.SaveLedger
import Mosaico.Nand.TraceWorking

/-! The trace store over whole histories: formatting, then any sequence of loads
and saves that fail, are cut, or are refused, each a transaction of its own. -/
namespace Mosaico.Nand.TraceHistory

open PageDevice Interaction SaveLedger Store
open StoreModel (Page Payload Saved Holds Scanned SaveLeft SaveDone SparePage successor spare)

/-- A load or a save reports one of these, never a corrupt or unverified store. -/
def Sound (report : Report) : Prop :=
  report.record.code ≠ .corrupt ∧ report.record.code ≠ .verify

/-- The record phase of a load over a medium that holds `st`. -/
def LoadRecorded (st : Option Saved) (m : Medium Page) (r : Recorded) (m' : Medium Page)
    (issued : List Nat) : Prop :=
  Unchanged m m' issued ∧ Sound r.report ∧ (r.report.record.code = .empty → st = none) ∧
    (r.report.error = .ok → st.map Saved.payload = some r.work.snapshot)

theorem recordLoad_spec {st : Option Saved} {m : Medium Page} (h : Holds m st) (result : Report) :
    (recordLoad result).wp faulty (fun r => Device.Leaves (LoadRecorded st m r))
      (Device.Leaves (Unchanged m)) (.fresh m) := by
  have fresh : (Device.fresh m).Leaves (Unchanged m) := Device.leaves_fresh.mpr ⟨rfl, rfl⟩
  unfold recordLoad
  apply Prog.wp_bind (StoreModel.load_spec fresh h)
  rintro ⟨record, found⟩ d' ⟨rfl, ⟨failed, hfound⟩ | ⟨scanned, hfound⟩⟩
  · have notOk : (checkRecord (result.reach .record) record).error ≠ .ok := by
      simp [recordError, show record.code = .io from failed]
    dsimp only
    rw [if_pos notOk]
    refine Device.leaves_fresh.mpr ⟨⟨rfl, rfl⟩, ?_, ?_, fun ok => (notOk ok).elim⟩
    · simp [Sound, show record.code = .io from failed]
    · simp [show record.code = .io from failed]
  · cases st with
    | none =>
      have notOk : (checkRecord (result.reach .record) record).error ≠ .ok := by
        simp [recordError, show record.code = .empty from scanned.1]
      dsimp only
      rw [if_pos notOk]
      refine Device.leaves_fresh.mpr ⟨⟨rfl, rfl⟩, ?_, fun _ => rfl, fun ok => (notOk ok).elim⟩
      simp [Sound, show record.code = .empty from scanned.1]
    | some s =>
      have ok : (checkRecord (result.reach .record) record).error = .ok := by
        simp [recordError, show record.code = .ok from scanned.1]
      dsimp only
      rw [if_neg (fun ne => ne ok)]
      refine Device.leaves_fresh.mpr ⟨⟨rfl, rfl⟩, ?_, ?_, ?_⟩
      · simp [Sound, show record.code = .ok from scanned.1]
      · simp [show record.code = .ok from scanned.1]
      · simp [show found = some s.payload from hfound]

/-- The record phase of a save over a medium that holds `st`. -/
def SaveRecorded (st : Option Saved) (input : Payload) (r : Recorded) (m' : Medium Page)
    (issued : List Nat) : Prop :=
  SaveLeft st input m' issued ∧ Sound r.report ∧
    (r.report.error = .ok → Holds m' (some (successor st input)))

/-- The save is durable and named the spare slot's pages only. -/
def Kept (st : Option Saved) (input : Payload) (m : Medium Page) (issued : List Nat) : Prop :=
  Holds m (some (successor st input)) ∧ ∀ page ∈ issued, SparePage st page

theorem Kept.left {st : Option Saved} {input : Payload} {m : Medium Page} {issued : List Nat}
    (h : Kept st input m issued) : SaveLeft st input m issued :=
  ⟨.inr h.1, h.2⟩

theorem verifySave_spec {st : Option Saved} {input : Payload} {d : Device Page} {result : Report}
    (h : d.Leaves (Kept st input)) (sound : Sound result) :
    (verifySave input result).wp faulty (fun r => Device.Leaves (SaveRecorded st input r))
      (Device.Leaves (SaveLeft st input)) d := by
  have ended : ∀ {t : Device Page} {r : Recorded}, t.Leaves (Kept st input) → Sound r.report →
      t.Leaves (SaveRecorded st input r) := fun ht hr =>
    ht.mono fun m issued kept => ⟨kept.left, hr, fun _ => kept.1⟩
  unfold verifySave
  apply Prog.wp_bind (reopen_spec result h fun _ _ kept => kept.left)
  rintro ⟨result', opened⟩ d' ⟨hd', hrecord, ⟨rfl, -⟩ | ⟨rfl, synced, -⟩⟩
  · exact ended hd' (by rw [Sound, hrecord]; exact sound)
  have resumed : (∀ page ∈ d'.issued, SparePage st page) ∧
      Holds d'.view (some (successor st input)) := ⟨hd'.view.2, hd'.view.1⟩
  apply Prog.wp_bind (StoreModel.load_spec (hd'.mono fun _ _ kept => kept.left) resumed.2)
  rintro ⟨record, found⟩ t ⟨rfl, loaded⟩
  have healthy : record.code ≠ .corrupt ∧ record.code ≠ .verify := by
    rcases loaded with ⟨failed, -⟩ | ⟨scanned, -⟩
    · simp [show record.code = .io from failed]
    · simp [show record.code = .ok from scanned.1]
  dsimp only
  split
  · exact ended hd' healthy
  split
  · exact ended hd' healthy
  · exact ended hd' healthy

theorem recordSave_spec {st : Option Saved} {m : Medium Page} (input : Payload) (h : Holds m st)
    (result : Report) :
    (recordSave input result).wp faulty (fun r => Device.Leaves (SaveRecorded st input r))
      (Device.Leaves (SaveLeft st input)) (.fresh m) := by
  unfold recordSave
  apply Prog.wp_bind (StoreModel.save_spec input h)
  intro record d' hd'
  have healthy : Sound (checkRecord (result.reach .record) record) := by
    obtain ⟨-, (failed | failed) | ⟨done, -⟩⟩ := hd'.view
    · simp [Sound, failed]
    · simp [Sound, failed]
    · simp [Sound, done]
  dsimp only
  split
  · rename_i notOk
    exact hd'.mono fun m' issued done => ⟨done.1, healthy, fun ok => (notOk ok).elim⟩
  · rename_i ok
    have hok : recordError record.code = .ok := not_not.mp ok
    apply verifySave_spec _ healthy
    refine hd'.mono fun m' issued done => ?_
    obtain ⟨hleft, (failed | failed) | ⟨-, holds, -⟩⟩ := done
    · rw [failed] at hok; cases hok
    · rw [failed] at hok; cases hok
    · exact ⟨holds, hleft.2⟩

/-- What may happen to the store from its formatting on. -/
inductive Event where
  | reboot
  | load (visit : Visit)
  | save (input : Payload) (visit : Visit)

/-- The world and the saves attempted so far, newest first. -/
structure History where
  world : World
  ledger : List (Attempt Payload) := []

def History.step (s : History) : Event → History
  | .reboot => { s with world := s.world.reboot }
  | .load visit => { s with world := .after (s.world.call .load visit) }
  | .save input visit =>
    let outcome := s.world.call (.save input) visit
    { world := .after outcome, ledger := ⟨input, acknowledged outcome⟩ :: s.ledger }

def History.run (s : History) (events : List Event) : History := events.foldl History.step s

/-- The medium holds something that the attempts so far explain. -/
def Consistent (s : History) : Prop :=
  ∃ st, Holds s.world.medium st ∧ Recoverable s.ledger (st.map Saved.payload)

theorem load_settles {st : Option Saved} {w : World} (visit : Visit) (h : Holds w.medium st) :
    Unchanged w.medium (w.call .load visit).medium (w.call .load visit).issued ∧
      ∀ reply, (w.call .load visit).reply = some reply →
        Ended .load (LoadRecorded st w.medium) w.medium reply (w.call .load visit).medium
          (w.call .load visit).issued :=
  w.call_spec .load visit ⟨rfl, rfl⟩ (fun a => recordLoad_spec h a.report) fun _ _ _ done => done.1

theorem save_settles {st : Option Saved} {w : World} (input : Payload) (visit : Visit)
    (h : Holds w.medium st) :
    SaveLeft st input (w.call (.save input) visit).medium (w.call (.save input) visit).issued ∧
      ∀ reply, (w.call (.save input) visit).reply = some reply →
        Ended (.save input) (SaveRecorded st input) w.medium reply
          (w.call (.save input) visit).medium (w.call (.save input) visit).issued :=
  w.call_spec (.save input) visit ⟨.inl h, by simp⟩ (fun a => recordSave_spec input h a.report)
    fun _ _ _ done => done.1

/-- A save that the caller was told of is what the medium holds. -/
theorem save_durable {st : Option Saved} {w : World} {input : Payload} {visit : Visit}
    (h : Holds w.medium st) (told : acknowledged (w.call (.save input) visit) = true) :
    Holds (w.call (.save input) visit).medium (some (successor st input)) := by
  unfold acknowledged at told
  split at told
  · rename_i reply hreply
    have ok : reply.report.error = .ok := by simpa using told
    rcases (save_settles input visit h).2 reply hreply with refused | ⟨recorded, done, finished⟩
    · exact (refused.1 ok).elim
    · exact done.2.2 (finished.error ▸ ok)
  · cases told

theorem consistent_step {s : History} (h : Consistent s) (event : Event) :
    Consistent (s.step event) := by
  obtain ⟨st, holds, recoverable⟩ := h
  cases event with
  | reboot => exact ⟨st, holds, recoverable⟩
  | load visit =>
    have same : (s.step (.load visit)).world.medium = s.world.medium :=
      (load_settles visit holds).1.1
    exact ⟨st, by rw [same]; exact holds, recoverable⟩
  | save input visit =>
    let outcome := s.world.call (.save input) visit
    cases told : acknowledged outcome with
    | true =>
      refine ⟨some (successor st input), save_durable holds told, ?_⟩
      exact recoverable.save (.inr rfl) fun _ => rfl
    | false =>
      rcases (save_settles input visit holds).1.1 with old | new
      · refine ⟨st, old, recoverable.save (.inl rfl) fun ack => ?_⟩
        exact absurd (told.symm.trans ack) (by decide)
      · exact ⟨some (successor st input), new, recoverable.save (.inr rfl) fun _ => rfl⟩

theorem consistent_run {s : History} (h : Consistent s) (events : List Event) :
    Consistent (s.run events) := by
  induction events generalizing s with
  | nil => exact h
  | cons event rest ih => exact ih (consistent_step h event)

def formatRegion (weather : Weather HostAnswer) : Outcome Page StoreModel.Result :=
  operate StoreModel.writeFormatMarkers weather fun _ => StoreModel.erased

theorem formatRegion_medium {weather : Weather HostAnswer} {result : StoreModel.Result}
    (replied : (formatRegion weather).reply = some result) (ok : result.code = .ok) :
    (formatRegion weather).medium = StoreModel.formatted := by
  have spec : (StoreModel.writeFormatMarkers : Session StoreModel.Result).wp faulty
      (fun r => Device.Leaves fun m _ => r.code = .ok → m = StoreModel.formatted)
      (Device.Leaves fun _ _ => True) (.fresh fun _ => StoreModel.erased) :=
    Prog.wp_mono StoreModel.writeFormatMarkers_spec (fun _ _ => id) fun _ _ _ _ => trivial
  exact (operate_leaves weather spec trivial).2 result replied ok

theorem consistent_format {weather : Weather HostAnswer} {result : StoreModel.Result}
    (replied : (formatRegion weather).reply = some result) (ok : result.code = .ok) :
    Consistent { world := { medium := (formatRegion weather).medium } } := by
  refine ⟨none, ?_, recoverable_nil⟩
  rw [show (formatRegion weather).medium = StoreModel.formatted from formatRegion_medium replied ok]
  exact StoreModel.holds_formatted

def activeSlot (m : Medium Page) : Option (Fin 2) :=
  (StoreModel.choose {} (StoreModel.slotIn m 0) (StoreModel.slotIn m 1) false).slot

theorem activeSlot_eq {m : Medium Page} {st : Option Saved} (h : Holds m st) :
    activeSlot m = st.map Saved.slot := by
  have scanned := StoreModel.choose_scanned h (fun _ => rfl) (Eq.refl ({} : StoreModel.Result).slot) rfl
  cases st with
  | none => exact scanned.2.2
  | some s => exact scanned.2.2

/-- The pages a save must leave alone: the markers and the active slot. -/
def Precious (m : Medium Page) (page : Nat) : Prop :=
  page < 2 ∨ ∃ slot, activeSlot m = some slot ∧ StoreModel.base slot ≤ page ∧
    page < StoreModel.base slot + 3

theorem not_sparePage_of_precious {m : Medium Page} {st : Option Saved} {page : Nat}
    (h : Holds m st) (precious : Precious m page) : ¬ SparePage st page := by
  apply StoreModel.not_sparePage
  rcases precious with marker | ⟨slot, active, low, high⟩
  · exact .inl marker
  · rw [activeSlot_eq h] at active
    cases st with
    | none => cases active
    | some s =>
      have hs : s.slot = slot := Option.some.inj active
      refine .inr ⟨slot, page - StoreModel.base slot, ?_, by omega, by omega⟩
      rw [← hs]
      exact (StoreModel.spare_ne s).symm

/-- What a load may tell its caller after these attempts. -/
def LoadExplained (ledger : List (Attempt Payload)) (reply : Reply) : Prop :=
  Sound reply.report ∧
    (∀ payload, reply.published.payload = some payload → Recoverable ledger (some payload)) ∧
    (reply.report.record.code = .empty → Recoverable ledger none)

theorem load_explained {s : History} (h : Consistent s) (visit : Visit) {reply : Reply}
    (hreply : (s.world.call .load visit).reply = some reply) : LoadExplained s.ledger reply := by
  obtain ⟨st, holds, recoverable⟩ := h
  rcases (load_settles visit holds).2 reply hreply with refused | ⟨recorded, done, finished⟩
  · obtain ⟨-, hrecord, -, -, hpublished, -⟩ := refused
    refine ⟨?_, ?_, ?_⟩
    · simp [Sound, hrecord]
    · simp [hpublished]
    · simp [hrecord]
  · obtain ⟨-, sound, empty, found⟩ := done
    refine ⟨?_, ?_, ?_⟩
    · rw [Sound, finished.record]
      exact sound
    · intro payload published
      rcases finished.2 with none | ⟨ok, outputs⟩
      · rw [none] at published
        cases published
      · rw [outputs] at published
        rw [← published]
        change Recoverable s.ledger (some recorded.work.snapshot)
        rw [← found ok]
        exact recoverable
    · intro code
      rw [finished.record] at code
      rw [empty code] at recoverable
      exact recoverable

theorem save_spares {s : History} (h : Consistent s) (input : Payload) (visit : Visit)
    {page : Nat} (precious : Precious s.world.medium page) :
    page ∉ (s.world.call (.save input) visit).issued ∧
      (s.world.call (.save input) visit).medium page = s.world.medium page := by
  obtain ⟨st, holds, -⟩ := h
  have unnamed : page ∉ (s.world.call (.save input) visit).issued := fun named =>
    not_sparePage_of_precious holds precious ((save_settles input visit holds).1.2 page named)
  exact ⟨unnamed, operate_untouched _ _ _ unnamed⟩

theorem save_sound {s : History} (h : Consistent s) (input : Payload) (visit : Visit)
    {reply : Reply} (hreply : (s.world.call (.save input) visit).reply = some reply) :
    Sound reply.report := by
  obtain ⟨st, holds, -⟩ := h
  rcases (save_settles input visit holds).2 reply hreply with refused | ⟨recorded, done, finished⟩
  · simp [Sound, refused.2.1]
  · rw [Sound, finished.record]
    exact done.2.1

/-- What a load answers none of whose calls fails. -/
def LoadAnswered (ledger : List (Attempt Payload)) (reply : Reply) : Prop :=
  (∃ payload, reply.report.error = .ok ∧ reply.published.payload = some payload ∧
    Recoverable ledger (some payload)) ∨
  (reply.report.record.code = .empty ∧ Recoverable ledger none)

theorem load_answered {s : History} (h : Consistent s) {visit : Visit} (clear : Clear s.world .load visit) :
    ∃ reply, (s.world.call .load visit).reply = some reply ∧ LoadAnswered s.ledger reply := by
  obtain ⟨st, holds, recoverable⟩ := h
  obtain ⟨reply, r, hreply, answers, told⟩ :=
    World.call_clear clear (LoadAnswers st) fun acquired _ _ => recordLoad_works (d := .fresh _) holds rfl
  refine ⟨reply, hreply, ?_⟩
  cases st with
  | none => exact .inr ⟨told.report ▸ answers, recoverable⟩
  | some saved =>
    obtain ⟨ok, -, snapshot⟩ := answers
    refine .inl ⟨saved.payload, told.report ▸ ok, ?_, recoverable⟩
    rw [told.published ok, ← snapshot]
    rfl

def activeGeneration (m : Medium Page) : Nat :=
  (StoreModel.choose {} (StoreModel.slotIn m 0) (StoreModel.slotIn m 1) false).generation

theorem activeGeneration_eq {m : Medium Page} {st : Option Saved} (h : Holds m st) :
    activeGeneration m = StoreModel.generationOf st := by
  have scanned := StoreModel.choose_scanned h (fun _ => rfl) (Eq.refl ({} : StoreModel.Result).slot) rfl
  cases st with
  | none => exact scanned.2.1
  | some s => exact scanned.2.1

theorem save_acknowledged {s : History} (h : Consistent s) {input : Payload} {visit : Visit}
    (room : activeGeneration s.world.medium ≠ StoreModel.maxGeneration)
    (clear : Clear s.world (.save input) visit) : acknowledged (s.world.call (.save input) visit) = true := by
  obtain ⟨st, holds, -⟩ := h
  rw [activeGeneration_eq holds] at room
  obtain ⟨reply, r, hreply, ok, told⟩ :=
    World.call_clear clear (fun r => r.report.error = .ok)
      fun acquired _ _ => recordSave_works holds room input rfl
  rw [acknowledged, hreply]
  exact beq_iff_eq.mpr (told.report ▸ ok)

/-- Every load is explained by the attempts, no save or load finds the store
corrupt, and a save leaves the markers and the active slot alone. A load none of
whose calls fails answers, and such a save is acknowledged. -/
def CrashAtomic (s : History) : Prop :=
  (∀ visit reply, (s.world.call .load visit).reply = some reply → LoadExplained s.ledger reply) ∧
    (∀ visit, Clear s.world .load visit →
      ∃ reply, (s.world.call .load visit).reply = some reply ∧ LoadAnswered s.ledger reply) ∧
    (∀ input visit reply, (s.world.call (.save input) visit).reply = some reply →
      Sound reply.report) ∧
    (∀ input visit, activeGeneration s.world.medium ≠ StoreModel.maxGeneration →
      Clear s.world (.save input) visit → acknowledged (s.world.call (.save input) visit) = true) ∧
    ∀ input visit page, Precious s.world.medium page →
      page ∉ (s.world.call (.save input) visit).issued ∧
        (s.world.call (.save input) visit).medium page = s.world.medium page

/-- Crash atomicity over every history of a formatted region. -/
theorem trace_store_crash_atomic (format : Weather HostAnswer) (result : StoreModel.Result)
    (replied : (formatRegion format).reply = some result) (ok : result.code = .ok)
    (events : List Event) :
    CrashAtomic (History.run { world := { medium := (formatRegion format).medium } } events) := by
  have consistent := consistent_run (consistent_format replied ok) events
  exact ⟨fun visit _ hreply => load_explained consistent visit hreply,
    fun _ clear => load_answered consistent clear,
    fun input visit _ hreply => save_sound consistent input visit hreply,
    fun _ _ room clear => save_acknowledged consistent room clear,
    fun input visit _ precious => save_spares consistent input visit precious⟩

theorem formatRegion_calm : (formatRegion (calm granted)).reply =
    some { stage := .formatVerify, markerCopies := 2 } := by
  unfold formatRegion
  rw [operate_reply, StoreModel.run_writeFormatMarkers_calm]

def blankRegion : History := { world := { medium := (formatRegion (calm granted)).medium } }

def first : Payload := ByteFields.zero _

def second : Payload := ByteFields.put (ByteFields.zero _) 0 7 1

def saveFirst : Event := .save first (clearVisit blankRegion.world (.save first))

/-- The next save loses its power around the call after the first `n`. -/
def saveSecond (n : Nat) (keep : List Bool) : Event :=
  .save second (cutVisit (blankRegion.step saveFirst).world (.save second) n keep)

private theorem holds_blankRegion : Holds blankRegion.world.medium none := by
  have medium : (formatRegion (calm granted)).medium = StoreModel.formatted :=
    formatRegion_medium formatRegion_calm rfl
  unfold blankRegion
  rw [medium]
  exact StoreModel.holds_formatted

private theorem blankRegion_room : activeGeneration blankRegion.world.medium ≠ StoreModel.maxGeneration := by
  have none_ : StoreModel.generationOf none < StoreModel.maxGeneration := by decide
  intro full
  rw [← full, activeGeneration_eq holds_blankRegion] at none_
  exact Nat.lt_irrefl _ none_

theorem first_acknowledged : acknowledged (blankRegion.world.call (.save first)
    (clearVisit blankRegion.world (.save first))) = true := by
  have consistent : Consistent blankRegion := consistent_format formatRegion_calm rfl
  have free : blankRegion.world.quarantined = false := rfl
  exact save_acknowledged consistent blankRegion_room (clear_clearVisit free _)

theorem first_ledger : (blankRegion.step saveFirst).ledger = [⟨first, true⟩] := by
  rw [← first_acknowledged]
  rfl

/-- A save that is acknowledged, and then one cut after any number of its calls: a load none of whose
calls fails finds one of the two payloads. -/
theorem trace_store_crash_atomic_cut : (blankRegion.step saveFirst).ledger = [⟨first, true⟩] ∧ ∀ n keep,
    let s := blankRegion.run [saveFirst, saveSecond n keep, .reboot]
    CrashAtomic s ∧ ∃ reply payload, (s.world.call .load (clearVisit s.world .load)).reply = some reply ∧
      reply.published.payload = some payload ∧ (payload = first ∨ payload = second) := by
  refine ⟨first_ledger, fun n keep => ?_⟩
  intro s
  have atomic : CrashAtomic s := trace_store_crash_atomic (calm granted) _ formatRegion_calm rfl _
  have ledger : s.ledger.map Attempt.value = [second, first] ∧ ⟨first, true⟩ ∈ s.ledger := by
    refine ⟨rfl, ?_⟩
    rw [← first_acknowledged]
    exact List.mem_cons_of_mem _ List.mem_cons_self
  refine ⟨atomic, ?_⟩
  obtain ⟨reply, hreply, ⟨payload, -, published, recoverable⟩ | ⟨-, none_⟩⟩ :=
    atomic.2.1 _ (clear_clearVisit rfl .load)
  · obtain ⟨a, mem, value⟩ := recoverable.mem
    have either := List.mem_map_of_mem (f := Attempt.value) mem
    rw [ledger.1, value] at either
    simp only [List.mem_cons, List.not_mem_nil, or_false] at either
    exact ⟨reply, payload, hreply, published, either.symm⟩
  · exact absurd (none_ _ ledger.2) (by decide)

end Mosaico.Nand.TraceHistory
