import Mosaico.Library.SaveLedger
import Mosaico.Nand.ColdWorking

/-! The cold store over whole histories under one policy: what a load returns,
and the chain of records the two pages pass through. -/
namespace Mosaico.Nand.ColdHistory

open PageDevice Interaction SaveLedger Store
open ColdStore (Record Policy Loaded Admitted successor image loadIn coldIo_read SaveLeft SaveDone)
open StoreModel (Page Marked blank)

variable {policy : Policy} {base : Nat} {m : Medium Page}

def other (slot : Fin 2) : Fin 2 := if slot = 0 then 1 else 0

/-- One page of the pair holds this record. -/
structure Entry (policy : Policy) (base : Nat) (m : Medium Page) (slot : Fin 2) (r : Record) :
    Prop where
  shape : ColdStore.shape r = true
  valid : policy.valid r = true
  page : m (base + slot) = image r

/-- The other page is blank before the first successor, then the record before. -/
def Preceded (policy : Policy) (base : Nat) (m : Medium Page) (slot : Fin 2) (r : Record) : Prop :=
  (blank (m (base + slot)) = true ∧ r.sequence = 1 ∧ policy.initial r = true) ∨
    ∃ old, Entry policy base m slot old ∧ successor policy old r = true ∧
      (old.sequence = 1 → policy.initial old = true)

def Holds (policy : Policy) (base : Nat) (m : Medium Page) : Option (Fin 2 × Record) → Prop
  | none => Marked m ∧ ∀ slot : Fin 2, blank (m (base + slot)) = true
  | some (slot, r) => Marked m ∧ Entry policy base m slot r ∧ Preceded policy base m (other slot) r

def found : Option (Fin 2 × Record) → Loaded
  | none => { code := .empty }
  | some p => { code := .ready, selected := some p }

theorem Entry.recordIn {slot : Fin 2} {r : Record} (h : Entry policy base m slot r) :
    ColdStore.recordIn policy (m (base + slot)) = .ok (some r) := by
  rw [h.page, ColdStore.recordIn, ColdStore.blank_image, ColdStore.decode_image h.shape]
  simp [h.valid]

theorem recordIn_blank {page : Page} (h : blank page = true) :
    ColdStore.recordIn policy page = .ok none := by
  rw [ColdStore.recordIn, if_pos h]

theorem successor_sequence {old next : Record} (h : successor policy old next = true) :
    next.sequence.toNat = old.sequence.toNat + 1 := by
  simp only [successor, Bool.and_eq_true, bne_iff_ne, beq_iff_eq] at h
  have room : old.sequence.toNat ≠ 18446744073709551615 := h.1.1.1
  have bound := old.sequence.toNat_lt
  have one : (1 : UInt64).toNat = 1 := rfl
  rw [h.1.1.2, UInt64.toNat_add, one]
  omega

theorem selectNewer_successor {slot : Fin 2} {old next : Record}
    (h : successor policy old next = true)
    (initial : old.sequence = 1 → policy.initial old = true) :
    ColdStore.selectNewer policy slot old next = { code := .ready, selected := some (slot, next) } := by
  rw [ColdStore.selectNewer, if_neg]
  rintro (broken | ⟨first, broken⟩)
  · rw [h] at broken
    cases broken
  · rw [initial first] at broken
    cases broken

theorem selectOnly_initial {slot : Fin 2} {r : Record} (first : r.sequence = 1)
    (initial : policy.initial r = true) :
    ColdStore.selectOnly policy slot r = { code := .ready, selected := some (slot, r) } := by
  rw [ColdStore.selectOnly, if_neg]
  rintro (broken | broken)
  · exact broken first
  · rw [initial] at broken
    cases broken

private theorem loadIn_marked (h : Marked m) {a b : Option Record}
    (first : ColdStore.recordIn policy (m (base + (0 : Fin 2))) = .ok a)
    (second : ColdStore.recordIn policy (m (base + (1 : Fin 2))) = .ok b) :
    loadIn policy base m = ColdStore.select policy a b := by
  have marker : ∀ seen, ColdStore.markerIn StoreModel.marker seen = .ok true := fun seen => by
    rw [ColdStore.markerIn, if_pos StoreModel.validMarker_marker]
  have first' : ColdStore.recordIn policy (m base) = .ok a := first
  have second' : ColdStore.recordIn policy (m (base + 1)) = .ok b := second
  rw [loadIn, ColdStore.pairIn, h.first, h.second, marker, Loaded.after_ok, marker,
    Loaded.after_ok, if_neg (by decide), first', Loaded.after_ok, second', Loaded.after_ok]

/-- What the pair reads as when the record before is still there. -/
theorem select_follows {slot : Fin 2} {old r : Record} (h : successor policy old r = true)
    (initial : old.sequence = 1 → policy.initial old = true) :
    ColdStore.select policy (if slot = 0 then some r else some old)
      (if slot = 0 then some old else some r) = { code := .ready, selected := some (slot, r) } := by
  have later := successor_sequence h
  have differ : old.sequence ≠ r.sequence := fun same => by
    rw [same] at later
    omega
  have greater : r.sequence > old.sequence := UInt64.lt_iff_toNat_lt.mpr (by omega)
  have notLess : ¬ old.sequence > r.sequence := fun less => by
    have := UInt64.lt_iff_toNat_lt.mp less
    omega
  by_cases hs : slot = 0
  · rw [if_pos hs, if_pos hs, ColdStore.select, if_neg (Ne.symm differ), if_pos greater,
      selectNewer_successor h initial, hs]
  · have hs1 : slot = 1 := by omega
    rw [if_neg hs, if_neg hs, ColdStore.select, if_neg differ, if_neg notLess,
      selectNewer_successor h initial, hs1]

/-- A load of a consistent medium selects its record. -/
theorem loadIn_of_holds {st : Option (Fin 2 × Record)} (h : Holds policy base m st) :
    loadIn policy base m = found st := by
  cases st with
  | none => exact loadIn_marked h.1 (recordIn_blank (h.2 0)) (recordIn_blank (h.2 1))
  | some p =>
    obtain ⟨slot, r⟩ := p
    obtain ⟨marked, entry, preceded⟩ := h
    have here := entry.recordIn
    by_cases hs : slot = 0
    · rw [hs] at here preceded ⊢
      rcases preceded with ⟨blank, first, initial⟩ | ⟨old, before, follows, initial⟩
      · rw [loadIn_marked marked here (recordIn_blank blank)]
        exact selectOnly_initial first initial
      · rw [loadIn_marked marked here before.recordIn]
        exact @select_follows policy 0 old r follows initial
    · have hs1 : slot = 1 := by omega
      rw [hs1] at here preceded ⊢
      rcases preceded with ⟨blank, first, initial⟩ | ⟨old, before, follows, initial⟩
      · rw [loadIn_marked marked (recordIn_blank blank) here]
        exact selectOnly_initial first initial
      · rw [loadIn_marked marked before.recordIn here]
        exact @select_follows policy 1 old r follows initial

/-- A record of the right shape with sequence 1 follows nothing. -/
theorem Preceded.initial {slot : Fin 2} {r : Record} (h : Preceded policy base m slot r)
    (first : r.sequence = 1) : policy.initial r = true := by
  rcases h with ⟨-, -, initial⟩ | ⟨old, before, follows, -⟩
  · exact initial
  · have later := successor_sequence follows
    have one : (1 : UInt64).toNat = 1 := rfl
    have zero : old.sequence = 0 := UInt64.toNat_inj.mp (by rw [first, one] at later; simp; omega)
    have shaped := before.shape
    simp [ColdStore.shape, zero] at shaped

theorem update_other {slot : Fin 2} (region : 2 ≤ base) (page : Page) :
    Function.update m (base + slot) page 0 = m 0 ∧ Function.update m (base + slot) page 1 = m 1 ∧
      Function.update m (base + slot) page (base + other slot) = m (base + other slot) := by
  have apart : (other slot).val ≠ slot.val := by
    by_cases hs : slot = 0
    · rw [other, if_pos hs, hs]
      decide
    · have hs1 : slot = 1 := by omega
      rw [hs1]
      decide
  refine ⟨?_, ?_, ?_⟩ <;> apply Function.update_of_ne <;> omega

private theorem marked_update (h : Marked m) (region : 2 ≤ base) (slot : Fin 2) (page : Page) :
    Marked (Function.update m (base + slot) page) :=
  h.congr (update_other region page).1 (update_other region page).2.1

/-- What admission means on a consistent medium. -/
theorem Holds.admitted {st : Option (Fin 2 × Record)} (h : Holds policy base m st)
    {next : Record} {target : Fin 2} (admitted : Admitted policy base m next target) :
    match st with
    | none => next.sequence = 1 ∧ policy.initial next = true
    | some (slot, old) => successor policy old next = true ∧ other target = slot := by
  have chosen := admitted.chosen
  rw [loadIn_of_holds h] at chosen
  cases st with
  | none =>
    simp only [found, ColdStore.chooseTarget] at chosen
    split at chosen
    · cases chosen
    · rename_i allowed
      simpa [not_or] using allowed
  | some p =>
    obtain ⟨slot, old⟩ := p
    simp only [found, ColdStore.chooseTarget] at chosen
    split at chosen
    · cases chosen
    rename_i allowed
    refine ⟨by simpa using allowed, ?_⟩
    rw [← Except.ok.inj chosen]
    by_cases hs : slot = 0
    · rw [if_pos hs, hs]
      rfl
    · have hs1 : slot = 1 := by omega
      rw [hs1]
      rfl

/-- Writing an admitted record moves the pair to it. -/
theorem Holds.write {st : Option (Fin 2 × Record)} (h : Holds policy base m st)
    (region : 2 ≤ base) {next : Record} {target : Fin 2}
    (admitted : Admitted policy base m next target) :
    Holds policy base (Function.update m (base + target) (image next)) (some (target, next)) := by
  have kept := (@update_other base m target region (image next)).2.2
  have entry : Entry policy base (Function.update m (base + target) (image next)) target next :=
    ⟨admitted.shape, admitted.valid, Function.update_self _ _ _⟩
  have allowed := h.admitted admitted
  cases st with
  | none =>
    refine ⟨marked_update h.1 region _ _, entry, .inl ⟨?_, allowed⟩⟩
    rw [kept]
    exact h.2 _
  | some p =>
    obtain ⟨slot, old⟩ := p
    obtain ⟨follows, back⟩ := allowed
    obtain ⟨marked, before, preceded⟩ := h
    refine ⟨marked_update marked region _ _, entry, .inr ⟨old, ?_, follows, preceded.initial⟩⟩
    rw [back] at kept ⊢
    exact ⟨before.shape, before.valid, kept.trans before.page⟩

def Sound (report : Report) : Prop :=
  report.coldCode ≠ .corrupt ∧ report.coldCode ≠ .ambiguous

/-- The record phase of a load over a medium that holds `st`. -/
def LoadRecorded (st : Option (Fin 2 × Record)) (m : Medium Page) (r : Recorded)
    (m' : Medium Page) (issued : List Nat) : Prop :=
  Unchanged m m' issued ∧ Sound r.report ∧
    (r.report.error = .ok →
      r.report.coldCode = (found st).code ∧ r.work.coldRecord = st.map Prod.snd)

theorem found_sound (st : Option (Fin 2 × Record)) :
    ((found st).code ≠ .corrupt ∧ (found st).code ≠ .ambiguous) ∧
      (found st).selected.map Prod.snd = st.map Prod.snd := by
  cases st with
  | none => exact ⟨⟨by decide, by decide⟩, rfl⟩
  | some p => exact ⟨⟨by simp [found], by simp [found]⟩, rfl⟩

theorem recordColdLoad_spec {st : Option (Fin 2 × Record)} (h : Holds policy base m st)
    {result : Report} (idle : result.coldCode = .empty) :
    (recordColdLoad base policy result).wp faulty (fun r => Device.Leaves (LoadRecorded st m r))
      (Device.Leaves (Unchanged m)) (.fresh m) := by
  have fresh : (Device.fresh m).Leaves (Unchanged m) := Device.leaves_fresh.mpr ⟨rfl, rfl⟩
  unfold recordColdLoad
  split
  · refine Device.leaves_fresh.mpr ⟨⟨rfl, rfl⟩, ?_, fun ok => by cases ok⟩
    exact ⟨by simp [Report.fail, idle], by simp [Report.fail, idle]⟩
  apply Prog.wp_bind (ColdStore.load_spec fresh)
  rintro loaded d' ⟨rfl, rfl | rfl⟩
  · refine Device.leaves_fresh.mpr ⟨⟨rfl, rfl⟩, ?_, fun ok => by cases ok⟩
    exact ⟨by simp, by simp⟩
  rw [Device.fresh_view, loadIn_of_holds h]
  dsimp only
  split
  · rename_i failed
    exact Device.leaves_fresh.mpr ⟨⟨rfl, rfl⟩, (found_sound st).1, fun ok => (failed ok).elim⟩
  · exact Device.leaves_fresh.mpr ⟨⟨rfl, rfl⟩, (found_sound st).1,
      fun _ => ⟨rfl, (found_sound st).2⟩⟩

def Written (policy : Policy) (base : Nat) (m : Medium Page) (next : Record) (m' : Medium Page) :
    Prop :=
  ∃ target, Admitted policy base m next target ∧
    m' = Function.update m (base + target) (image next)

def SaveRecorded (policy : Policy) (base : Nat) (m : Medium Page) (next : Record) (r : Recorded)
    (m' : Medium Page) (issued : List Nat) : Prop :=
  SaveLeft policy base m next m' issued ∧ Sound r.report ∧
    (r.report.error = .ok → Written policy base m next m')

/-- After a save the pair is checked again on a fresh resume. -/
theorem verifyCold_spec {d : Device Page} {st : Option (Fin 2 × Record)} {next : Record}
    {protectedCrc : List Nat} {result : Report} (h : Holds policy base m st) (region : 2 ≤ base)
    (saved : d.Leaves fun m' issued =>
      SaveLeft policy base m next m' issued ∧ Written policy base m next m')
    (sound : Sound result) :
    (verifyCold base policy next protectedCrc result).wp faulty
      (fun r => Device.Leaves (SaveRecorded policy base m next r))
      (Device.Leaves (SaveLeft policy base m next)) d := by
  have hleft : ∀ {t : Device Page}, (t.Leaves fun m' issued =>
      SaveLeft policy base m next m' issued ∧ Written policy base m next m') →
      t.Leaves (SaveLeft policy base m next) := fun ht => ht.mono fun _ _ done => done.1
  have ended : ∀ {t : Device Page} {r : Recorded}, (t.Leaves fun m' issued =>
      SaveLeft policy base m next m' issued ∧ Written policy base m next m') → Sound r.report →
      t.Leaves (SaveRecorded policy base m next r) := fun ht hr =>
    ht.mono fun _ _ done => ⟨done.1, hr, fun _ => done.2⟩
  simp only [verifyCold, ask, Prog.wp_bind_iff, wp_deinit, Prog.wp_pure, if_true,
    Bool.true_eq_false, if_false]
  refine ⟨⟨hleft saved, ended saved sound⟩, fun m' hm => ?_⟩
  have resumed := saved.restart hm
  refine ⟨hleft resumed, ended resumed sound, ?_⟩
  rw [wp_host (hleft resumed)]
  intro error
  split
  · exact ended resumed sound
  rw [Prog.wp_bind_iff]
  apply Prog.wp_mono (ColdStore.load_spec (hleft resumed)) _ (fun _ => id)
  rintro loaded d' ⟨rfl, hloaded⟩
  have healthy : loaded.code ≠ .corrupt ∧ loaded.code ≠ .ambiguous := by
    obtain ⟨-, target, admitted, rfl⟩ := saved m' hm
    rcases hloaded with rfl | rfl
    · exact ⟨by simp, by simp⟩
    · rw [Device.restart_view, loadIn_of_holds (h.write region admitted)]
      exact (found_sound _).1
  split
  · exact ended resumed healthy
  split
  · exact ended resumed ⟨by simp, by simp⟩
  apply Prog.wp_bind (wp_readOnly (uses_checkDigest _ _) (hleft resumed)
    fun error => (rfl : d.restart m' = _))
  rintro error d' rfl
  split
  · exact ended resumed healthy
  · exact ended resumed ⟨by simp, by simp⟩
  · exact ended resumed healthy

theorem recordColdSave_spec {st : Option (Fin 2 × Record)} (h : Holds policy base m st)
    (region : 2 ≤ base) (next : Record) {result : Report} (idle : result.coldCode = .empty) :
    (recordColdSave base next policy result).wp faulty
      (fun r => Device.Leaves (SaveRecorded policy base m next r))
      (Device.Leaves (SaveLeft policy base m next)) (.fresh m) := by
  have start : (Device.fresh m).Leaves (SaveLeft policy base m next) :=
    Device.leaves_fresh.mpr (.inl ⟨rfl, rfl⟩)
  have refused : ∀ {r : Recorded}, r.report.coldCode = .empty → r.report.error ≠ .ok →
      (Device.fresh m).Leaves (SaveRecorded policy base m next r) := by
    intro r hcode herr
    refine Device.leaves_fresh.mpr ⟨.inl ⟨rfl, rfl⟩, ?_, fun ok => (herr ok).elim⟩
    exact ⟨by rw [hcode]; decide, by rw [hcode]; decide⟩
  unfold recordColdSave
  split
  · exact refused idle (by simp)
  dsimp only
  split
  · exact refused idle (by simp)
  apply Prog.wp_bind (wp_readOnly (uses_digest _) start fun _ => (rfl : Device.fresh m = _))
  rintro digests d' rfl
  cases digests with
  | none => exact refused idle (by simp)
  | some protectedCrc =>
    apply Prog.wp_bind (ColdStore.save_spec next m)
    intro code d' hd'
    have sound : Sound (checkCold (result.reach .record) code) := by
      obtain ⟨-, io | rejected | ⟨same, -⟩ | ⟨ready, -⟩⟩ := hd'.view
      · simp [Sound, io]
      · simp [Sound, rejected]
      · rw [loadIn_of_holds h] at same
        rw [Sound, checkCold_coldCode, same]
        exact (found_sound st).1
      · simp [Sound, ready]
    split
    · rename_i notOk
      exact hd'.mono fun _ _ done => ⟨done.1, sound, fun ok => (notOk ok).elim⟩
    · rename_i ok
      have hok : coldError code = .ok := not_not.mp ok
      refine verifyCold_spec h region (hd'.mono fun m' issued done => ?_) sound
      obtain ⟨left, rfl | rfl | ⟨-, ready, empty⟩ | ⟨-, written⟩⟩ := done
      · cases hok
      · cases hok
      · cases code <;> first | exact absurd rfl ready | exact absurd rfl empty | cases hok
      · exact ⟨left, written⟩

inductive Event where
  | reboot
  | load (inheritLease : Bool) (visit : Visit)
  | save (next : Record) (inheritLease : Bool) (visit : Visit)

def current (policy : Policy) (base : Nat) (m : Medium Page) : Option Record :=
  (loadIn policy base m).selected.map Prod.snd

/-- The world, the saves attempted so far, and every record that a load placed
after some event would have returned, newest first and without repetition. -/
structure History where
  world : World
  ledger : List (Attempt Record) := []
  records : List Record := []

def History.see (s : History) : Option Record → History
  | none => s
  | some r => if s.records.head? = some r then s else { s with records := r :: s.records }

def History.observe (policy : Policy) (base : Nat) (s : History) : History :=
  s.see (current policy base s.world.medium)

variable (policy : Policy) (area : ColdArea)

def History.act (s : History) : Event → History
  | .reboot => { s with world := s.world.reboot }
  | .load inheritLease visit =>
    { s with world := .after (s.world.call (.coldLoad area policy inheritLease) visit) }
  | .save next inheritLease visit =>
    let outcome := s.world.call (.coldSave area next policy inheritLease) visit
    { s with
      world := .after outcome
      ledger := ⟨next, acknowledged outcome⟩ :: s.ledger }

def History.step (s : History) (event : Event) : History :=
  (s.act policy area event).observe policy (coldPageBase area)

def History.run (s : History) (events : List Event) : History :=
  events.foldl (History.step policy area) s

theorem see_rest (s : History) (r : Option Record) : (s.see r).world = s.world ∧ (s.see r).ledger = s.ledger := by
  cases r with
  | none => exact ⟨rfl, rfl⟩
  | some r =>
    rw [History.see]
    split <;> exact ⟨rfl, rfl⟩

@[simp] theorem step_world (s : History) (event : Event) :
    (s.step policy area event).world = (s.act policy area event).world := (see_rest _ _).1

@[simp] theorem step_ledger (s : History) (event : Event) :
    (s.step policy area event).ledger = (s.act policy area event).ledger := (see_rest _ _).2

theorem step_save (s : History) (next : Record) (inheritLease : Bool) (visit : Visit) :
    (s.step policy area (.save next inheritLease visit)).ledger =
      ⟨next, acknowledged (s.world.call (.coldSave area next policy inheritLease) visit)⟩ :: s.ledger :=
  step_ledger policy area s _

theorem step_reboot (s : History) : (s.step policy area .reboot).world = s.world.reboot ∧
    (s.step policy area .reboot).ledger = s.ledger :=
  ⟨step_world policy area s _, step_ledger policy area s _⟩

/-- Consecutive records are transitions and the oldest is an initial record. -/
def Chain (policy : Policy) : List Record → Prop
  | [] => True
  | [r] => r.sequence = 1 ∧ policy.initial r = true
  | next :: old :: rest => policy.transition old next = true ∧ Chain policy (old :: rest)

/-- The medium holds a record that the attempts explain and the chain ends in. -/
structure Consistent (s : History) (st : Option (Fin 2 × Record)) : Prop where
  holds : Holds policy (coldPageBase area) s.world.medium st
  recoverable : Recoverable s.ledger (st.map Prod.snd)
  newest : s.records.head? = st.map Prod.snd
  chain : Chain policy s.records

variable {policy area} {s : History} {st : Option (Fin 2 × Record)}

theorem region_low (area : ColdArea) : 2 ≤ coldPageBase area := by
  cases area <;> decide

theorem load_settles {w : World} (inheritLease : Bool) (visit : Visit)
    (h : Holds policy (coldPageBase area) w.medium st) :
    Unchanged w.medium (w.call (.coldLoad area policy inheritLease) visit).medium
        (w.call (.coldLoad area policy inheritLease) visit).issued ∧
      ∀ reply, (w.call (.coldLoad area policy inheritLease) visit).reply = some reply →
        Ended (.coldLoad area policy inheritLease) (LoadRecorded st w.medium) w.medium reply
          (w.call (.coldLoad area policy inheritLease) visit).medium
          (w.call (.coldLoad area policy inheritLease) visit).issued :=
  w.call_spec _ visit ⟨rfl, rfl⟩ (fun _ => recordColdLoad_spec h rfl) fun _ _ _ done => done.1

theorem save_settles {w : World} (next : Record) (inheritLease : Bool) (visit : Visit)
    (h : Holds policy (coldPageBase area) w.medium st) :
    SaveLeft policy (coldPageBase area) w.medium next
        (w.call (.coldSave area next policy inheritLease) visit).medium
        (w.call (.coldSave area next policy inheritLease) visit).issued ∧
      ∀ reply, (w.call (.coldSave area next policy inheritLease) visit).reply = some reply →
        Ended (.coldSave area next policy inheritLease)
          (SaveRecorded policy (coldPageBase area) w.medium next) w.medium reply
          (w.call (.coldSave area next policy inheritLease) visit).medium
          (w.call (.coldSave area next policy inheritLease) visit).issued :=
  w.call_spec _ visit (.inl ⟨rfl, rfl⟩)
    (fun _ => recordColdSave_spec h (region_low area) next rfl) fun _ _ _ done => done.1

/-- A save that the caller was told of is on the medium. -/
theorem save_durable {w : World} {next : Record} {inheritLease : Bool} {visit : Visit}
    (h : Holds policy (coldPageBase area) w.medium st)
    (told : acknowledged (w.call (.coldSave area next policy inheritLease) visit) = true) :
    Written policy (coldPageBase area) w.medium next
      (w.call (.coldSave area next policy inheritLease) visit).medium := by
  unfold acknowledged at told
  split at told
  · rename_i reply hreply
    have ok : reply.report.error = .ok := by simpa using told
    rcases (save_settles next inheritLease visit h).2 reply hreply with
      refused | ⟨recorded, done, finished⟩
    · exact (refused.1 ok).elim
    · exact done.2.2 (finished.error ▸ ok)
  · cases told

theorem current_of_holds {m : Medium Page} (h : Holds policy base m st) :
    current policy base m = st.map Prod.snd := by
  rw [current, loadIn_of_holds h]
  exact (found_sound st).2

/-- Observing the record that is already the newest changes nothing. -/
theorem Consistent.observe_same (h : Consistent policy area s st) :
    Consistent policy area (s.observe policy (coldPageBase area)) st := by
  rw [History.observe, current_of_holds h.holds]
  have newest := h.newest
  cases hst : st.map Prod.snd with
  | none => exact h
  | some r =>
    rw [hst] at newest
    rw [History.see, if_pos newest]
    exact h

/-- A written record extends the chain. -/
theorem Consistent.observe_written {w : World} {ledger : List (Attempt Record)} {next : Record}
    (h : Consistent policy area s st)
    (written : Written policy (coldPageBase area) s.world.medium next w.medium)
    (recoverable : Recoverable ledger (some next)) :
    ∃ st', Consistent policy area
      (History.observe policy (coldPageBase area) ⟨w, ledger, s.records⟩) st' := by
  obtain ⟨target, admitted, hmedium⟩ := written
  have holds : Holds policy (coldPageBase area) w.medium (some (target, next)) := by
    rw [hmedium]
    exact h.holds.write (region_low area) admitted
  refine ⟨some (target, next), ?_⟩
  rw [History.observe, current_of_holds holds, Option.map_some, History.see]
  split
  · rename_i already
    exact ⟨holds, recoverable, already, h.chain⟩
  · refine ⟨holds, recoverable, rfl, ?_⟩
    have allowed := h.holds.admitted admitted
    have newest := h.newest
    have chain := h.chain
    cases st with
    | none =>
      have empty : s.records = [] := List.head?_eq_none_iff.mp newest
      rw [empty]
      exact allowed
    | some p =>
      obtain ⟨slot, old⟩ := p
      cases hrecords : s.records with
      | nil => rw [hrecords] at newest; cases newest
      | cons r rest =>
        rw [hrecords] at newest chain
        rw [Option.some.inj newest] at chain ⊢
        have follows := allowed.1
        simp only [successor, Bool.and_eq_true] at follows
        exact ⟨follows.2, chain⟩

theorem consistent_step (h : Consistent policy area s st) (event : Event) :
    ∃ st', Consistent policy area (s.step policy area event) st' := by
  cases event with
  | reboot =>
    have same : Consistent policy area (s.act policy area .reboot) st :=
      ⟨h.holds, h.recoverable, h.newest, h.chain⟩
    exact ⟨st, same.observe_same⟩
  | load inheritLease visit =>
    have kept := (load_settles inheritLease visit h.holds).1.1
    have same : Consistent policy area (s.act policy area (.load inheritLease visit)) st := by
      refine ⟨?_, h.recoverable, h.newest, h.chain⟩
      change Holds policy _ (s.world.call (.coldLoad area policy inheritLease) visit).medium st
      rw [kept]
      exact h.holds
    exact ⟨st, same.observe_same⟩
  | save next inheritLease visit =>
    let outcome := s.world.call (.coldSave area next policy inheritLease) visit
    cases told : acknowledged outcome with
    | true =>
      apply h.observe_written (save_durable h.holds told)
      exact h.recoverable.save (.inr rfl) fun _ => rfl
    | false =>
      have left := (save_settles next inheritLease visit h.holds).1
      have unwritten : outcome.medium = s.world.medium →
          ∃ st', Consistent policy area (s.step policy area (.save next inheritLease visit)) st' := by
        intro kept
        have same : Consistent policy area (s.act policy area (.save next inheritLease visit)) st := by
          refine ⟨?_, h.recoverable.save (.inl rfl) fun ack => ?_, h.newest, h.chain⟩
          · change Holds policy _ outcome.medium st
            rw [kept]
            exact h.holds
          · exact absurd (told.symm.trans ack) (by decide)
        exact ⟨st, same.observe_same⟩
      rcases left with ⟨kept, -⟩ | ⟨target, admitted, kept | written, -⟩
      · exact unwritten kept
      · exact unwritten kept
      · apply h.observe_written ⟨target, admitted, written⟩
        exact h.recoverable.save (.inr rfl) fun _ => rfl

theorem consistent_run (h : Consistent policy area s st) (events : List Event) :
    ∃ st', Consistent policy area (s.run policy area events) st' := by
  induction events generalizing s st with
  | nil => exact ⟨st, h⟩
  | cons event rest ih =>
    obtain ⟨st', h'⟩ := consistent_step h event
    exact ih h'

def LoadExplained (s : History) (reply : Reply) : Prop :=
  Sound reply.report ∧
    (∀ r, reply.published.coldRecord = some r →
      Recoverable s.ledger (some r) ∧ s.records.head? = some r) ∧
    (reply.report.error = .ok → reply.report.coldCode = .empty → Recoverable s.ledger none)

theorem load_explained (h : Consistent policy area s st) (inheritLease : Bool) (visit : Visit)
    {reply : Reply}
    (hreply : (s.world.call (.coldLoad area policy inheritLease) visit).reply = some reply) :
    LoadExplained s reply := by
  rcases (load_settles inheritLease visit h.holds).2 reply hreply with
    refused | ⟨recorded, done, finished⟩
  · obtain ⟨failed, -, -, hcode, hpublished, -⟩ := refused
    refine ⟨?_, ?_, fun ok => (failed ok).elim⟩
    · simp [Sound, hcode]
    · simp [hpublished]
  · obtain ⟨-, sound, done⟩ := done
    refine ⟨?_, ?_, ?_⟩
    · rw [Sound, finished.coldCode]
      exact sound
    · intro r published
      rcases finished.2 with none | ⟨ok, outputs⟩
      · rw [none] at published
        cases published
      · rw [outputs] at published
        have selected : st.map Prod.snd = some r := (done ok).2.symm.trans published
        exact ⟨selected ▸ h.recoverable, selected ▸ h.newest⟩
    · intro ok empty
      rw [finished.coldCode, (done (finished.error ▸ ok)).1] at empty
      cases st with
      | none => exact h.recoverable
      | some p => cases empty

theorem save_sound (h : Consistent policy area s st) (next : Record) (inheritLease : Bool)
    (visit : Visit) {reply : Reply}
    (hreply : (s.world.call (.coldSave area next policy inheritLease) visit).reply = some reply) :
    Sound reply.report := by
  rcases (save_settles next inheritLease visit h.holds).2 reply hreply with
    refused | ⟨recorded, done, finished⟩
  · simp [Sound, refused.2.2.2.1]
  · rw [Sound, finished.coldCode]
    exact done.2.1

def Follows (policy : Policy) (next : Record) (loaded : Loaded) : Prop :=
  loaded.code = .empty ∧ next.sequence = 1 ∧ policy.initial next = true ∨
    ∃ slot old, loaded = { code := .ready, selected := some (slot, old) } ∧
      successor policy old next = true

theorem follows_of_chosen {next : Record} {loaded : Loaded} {target : Fin 2}
    (h : ColdStore.chooseTarget policy next loaded = .ok target) : Follows policy next loaded := by
  unfold ColdStore.chooseTarget at h
  split at h
  · rename_i empty
    split at h
    · cases h
    · rename_i allowed
      exact .inl ⟨empty, by simpa [not_or] using allowed⟩
  · rename_i slot old ready selected
    split at h
    · cases h
    · rename_i allowed
      refine .inr ⟨slot, old, ?_, by simpa using allowed⟩
      rw [← ready, ← selected]
  · cases h

theorem uses_verifyCold (next : Record) (protectedCrc : List Nat) (result : Report) :
    (verifyCold base policy next protectedCrc result).Uses Silent := by
  unfold verifyCold
  refine uses_deinit_bind trivial fun closed => ?_
  split
  · trivial
  refine uses_host_bind trivial fun error => ?_
  split
  · trivial
  apply (ColdStore.uses_load (fun _ _ => trivial) fun _ => trivial).bind
  intro loaded
  dsimp only
  split
  · trivial
  split
  · trivial
  apply (Uses.silent (uses_checkDigest _ _)).bind
  intro error
  split <;> trivial

/-- What a save leaves on any medium, consistent or not. -/
theorem recordColdSave_left (m : Medium Page) (next : Record) (result : Report) :
    (recordColdSave base next policy result).wp faulty
      (fun _ => Device.Leaves (SaveLeft policy base m next))
      (Device.Leaves (SaveLeft policy base m next)) (.fresh m) := by
  have start : (Device.fresh m).Leaves (SaveLeft policy base m next) :=
    Device.leaves_fresh.mpr (.inl ⟨rfl, rfl⟩)
  unfold recordColdSave
  split
  · exact start
  dsimp only
  split
  · exact start
  apply Prog.wp_bind (wp_readOnly (uses_digest _) start fun _ => (rfl : Device.fresh m = _))
  rintro digests d' rfl
  cases digests with
  | none => exact start
  | some protectedCrc =>
    apply Prog.wp_bind (ColdStore.save_spec next m)
    intro code d' hd'
    have left := hd'.mono fun _ _ done => done.1
    split
    · exact left
    · exact wp_silent (uses_verifyCold _ _ _) left fun _ _ => id

private theorem save_left (w : World) (next : Record) (inheritLease : Bool) (visit : Visit) :
    SaveLeft policy (coldPageBase area) w.medium next
      (w.call (.coldSave area next policy inheritLease) visit).medium
      (w.call (.coldSave area next policy inheritLease) visit).issued := by
  have start : SaveLeft policy (coldPageBase area) w.medium next w.medium [] := .inl ⟨rfl, rfl⟩
  have recorded : ∀ acquired : Acquired,
      ((Request.coldSave area next policy inheritLease).record acquired.report).wp faulty
        (fun _ => Device.Leaves (SaveLeft policy (coldPageBase area) w.medium next))
        (Device.Leaves (SaveLeft policy (coldPageBase area) w.medium next)) (.fresh w.medium) :=
    fun acquired => recordColdSave_left w.medium next acquired.report
  exact (w.call_spec _ visit start recorded fun _ _ _ => id).1

/-- A save that may not go ahead names no page, on any medium. -/
theorem save_refused (w : World) (next : Record) (inheritLease : Bool) (visit : Visit)
    (refused : ¬ (ColdStore.shape next = true ∧ policy.valid next = true ∧
      Follows policy next (loadIn policy (coldPageBase area) w.medium))) :
    Unchanged w.medium (w.call (.coldSave area next policy inheritLease) visit).medium
      (w.call (.coldSave area next policy inheritLease) visit).issued := by
  rcases save_left w next inheritLease visit with same | ⟨target, admitted, -⟩
  · exact same
  · exact (refused ⟨admitted.shape, admitted.valid, follows_of_chosen admitted.chosen⟩).elim

theorem chosen_of_follows {next : Record} {loaded : Loaded} (h : Follows policy next loaded) :
    ∃ target, ColdStore.chooseTarget policy next loaded = .ok target := by
  obtain ⟨empty, first, initial⟩ | ⟨slot, old, rfl, follows⟩ := h
  · refine ⟨0, ?_⟩
    unfold ColdStore.chooseTarget
    rw [empty]
    dsimp only
    rw [if_neg (by simp [first, initial])]
  · refine ⟨if slot = 0 then 1 else 0, ?_⟩
    unfold ColdStore.chooseTarget
    dsimp only
    rw [if_neg (by simp [follows])]

def Allowed (policy : Policy) (area : ColdArea) (m : Medium Page) (next : Record) : Prop :=
  ColdStore.shape next = true ∧ policy.valid next = true ∧ Follows policy next (loadIn policy (coldPageBase area) m)

/-- What a load answers none of whose calls fails. -/
def LoadAnswered (s : History) (reply : Reply) : Prop :=
  reply.report.error = .ok ∧
    (reply.report.coldCode = .empty ∧ Recoverable s.ledger none ∨
      ∃ r, reply.report.coldCode = .ready ∧ reply.published.coldRecord = some r ∧ Recoverable s.ledger (some r))

theorem load_answered (h : Consistent policy area s st) (inheritLease : Bool) {visit : Visit}
    (clear : Clear s.world (.coldLoad area policy inheritLease) visit) :
    ∃ reply, (s.world.call (.coldLoad area policy inheritLease) visit).reply = some reply ∧
      LoadAnswered s reply := by
  have loads : loadIn policy (coldPageBase area) s.world.medium = found st := loadIn_of_holds h.holds
  have sound : coldError (loadIn policy (coldPageBase area) s.world.medium).code = .ok := by
    rw [loads]
    cases st with
    | none => rfl
    | some p => rfl
  obtain ⟨reply, r, hreply, ⟨⟨ok, code⟩, record⟩, told⟩ := World.call_clear clear _
    fun acquired enough g => recordColdLoad_works (d := .fresh s.world.medium) acquired.report enough rfl sound
  rw [Device.fresh_view, loads] at code record
  refine ⟨reply, hreply, told.report ▸ ok, ?_⟩
  rw [told.report, told.published ok]
  have recoverable := h.recoverable
  cases st with
  | none => exact .inl ⟨code, recoverable⟩
  | some p => exact .inr ⟨p.2, code, record, recoverable⟩

theorem save_acknowledged (h : Consistent policy area s st) {next : Record} (inheritLease : Bool) {visit : Visit}
    (allowed : Allowed policy area s.world.medium next)
    (clear : Clear s.world (.coldSave area next policy inheritLease) visit) :
    acknowledged (s.world.call (.coldSave area next policy inheritLease) visit) = true := by
  obtain ⟨shaped, valid, follows⟩ := allowed
  obtain ⟨target, chosen⟩ := chosen_of_follows follows
  have admitted : Admitted policy (coldPageBase area) s.world.medium next target := ⟨shaped, valid, chosen⟩
  have published := loadIn_of_holds (h.holds.write (region_low area) admitted)
  obtain ⟨reply, r, hreply, ok, told⟩ := World.call_clear clear (fun r => r.report.error = .ok)
    fun acquired enough g => recordColdSave_works acquired.report enough rfl admitted published
  rw [acknowledged, hreply]
  exact beq_iff_eq.mpr (told.report ▸ ok)

/-- What holds in every state of a run: loads are explained, the records form a
chain, and a save that is not an allowed successor, or that cannot read or decode
its pages, writes nothing. A load none of whose calls fails answers, and such a save
of an allowed record is acknowledged. -/
structure CrashAtomic (policy : Policy) (area : ColdArea) (s : History) : Prop where
  load : ∀ inheritLease visit reply,
    (s.world.call (.coldLoad area policy inheritLease) visit).reply = some reply →
      LoadExplained s reply
  answers : ∀ inheritLease visit, Clear s.world (.coldLoad area policy inheritLease) visit →
    ∃ reply, (s.world.call (.coldLoad area policy inheritLease) visit).reply = some reply ∧
      LoadAnswered s reply
  save : ∀ next inheritLease visit reply,
    (s.world.call (.coldSave area next policy inheritLease) visit).reply = some reply →
      Sound reply.report
  saves : ∀ next inheritLease visit, Allowed policy area s.world.medium next →
    Clear s.world (.coldSave area next policy inheritLease) visit →
      acknowledged (s.world.call (.coldSave area next policy inheritLease) visit) = true
  chain : Chain policy s.records
  refused : ∀ next inheritLease visit, ¬ (ColdStore.shape next = true ∧ policy.valid next = true ∧
      Follows policy next (loadIn policy (coldPageBase area) s.world.medium)) →
    Unchanged s.world.medium (s.world.call (.coldSave area next policy inheritLease) visit).medium
      (s.world.call (.coldSave area next policy inheritLease) visit).issued

/-- Crash atomicity of the cold store under any policy, from two blank pages. -/
theorem cold_store_crash_atomic (policy : Policy) (area : ColdArea) (m : Medium Page)
    (formatted : Marked m) (empty : ∀ slot : Fin 2, blank (m (coldPageBase area + slot)) = true)
    (events : List Event) :
    CrashAtomic policy area (History.run policy area { world := { medium := m } } events) ∧
      ∀ (m' : Medium Page) (next : Record) (lost : Nat), ColdStore.Needed (coldPageBase area) lost →
        (ColdStore.save (coldIo (coldPageBase area)) policy next true).wp (unreadable lost)
          (fun code d => d = .fresh m' ∧ code ≠ .ready) (fun d => d = .fresh m') (.fresh m') := by
  have start : Consistent policy area { world := { medium := m } } none :=
    ⟨⟨formatted, empty⟩, recoverable_nil, rfl, trivial⟩
  obtain ⟨st, h⟩ := consistent_run start events
  refine ⟨⟨?_, ?_, ?_, ?_, h.chain, ?_⟩, fun m' next lost needed => ColdStore.save_unreadable needed next⟩
  · exact fun inheritLease visit _ hreply => load_explained h inheritLease visit hreply
  · exact fun inheritLease _ clear => load_answered h inheritLease clear
  · exact fun next inheritLease visit _ hreply => save_sound h next inheritLease visit hreply
  · exact fun _ inheritLease _ allowed clear => save_acknowledged h inheritLease allowed clear
  · exact fun next inheritLease visit refused => save_refused _ next inheritLease visit refused

def phased : Policy where
  valid r := r.size == 0
  initial r := r.phase == 1
  transition old next := next.phase == old.phase + 1

def phaseRecord (n : UInt8) : Record where
  sequence := n.toUInt64
  phase := n
  nonce := Vector.replicate _ 1
  binding := Vector.replicate _ 1
  size := 0
  payload := ByteFields.zero _

def blankPair : History := { world := { medium := StoreModel.formatted } }

def saveFirst : Event :=
  .save (phaseRecord 1) false (clearVisit blankPair.world (.coldSave .journal (phaseRecord 1) phased false))

theorem blank_pair (slot : Fin 2) : blank (StoreModel.formatted (coldPageBase .journal + slot)) = true := by
  have untouched : StoreModel.formatted (8 + slot.val) = StoreModel.erased := by
    unfold StoreModel.formatted
    rw [Function.update_of_ne (by omega), Function.update_of_ne (by omega)]
  rw [show coldPageBase .journal = 8 from rfl, untouched]
  exact StoreModel.blank_erased

private theorem shape_phaseRecord : ColdStore.shape (phaseRecord 1) = true := by
  have payload : ByteFields.zeros (phaseRecord 1).payload 0 ColdStore.payloadMax = true :=
    (ByteFields.zeros_iff _ _ _).mpr fun i _ _ => ByteFields.byteAt_zero i
  have nonce : ByteFields.anyNonzero (phaseRecord 1).nonce = true := by
    simp [phaseRecord, ByteFields.anyNonzero]
  have binding : ByteFields.anyNonzero (phaseRecord 1).binding = true := by
    simp [phaseRecord, ByteFields.anyNonzero]
  unfold ColdStore.shape
  rw [nonce, binding, show (phaseRecord 1).size.toNat = 0 from rfl, payload]
  rfl

private theorem blankPair_consistent : Consistent phased .journal blankPair none :=
  ⟨⟨StoreModel.holds_formatted.1, blank_pair⟩, recoverable_nil, rfl, trivial⟩

theorem first_acknowledged : acknowledged (blankPair.world.call (.coldSave .journal (phaseRecord 1) phased false)
    (clearVisit blankPair.world (.coldSave .journal (phaseRecord 1) phased false))) = true := by
  have loads : loadIn phased (coldPageBase .journal) blankPair.world.medium = found none :=
    loadIn_of_holds blankPair_consistent.holds
  have allowed : Allowed phased .journal blankPair.world.medium (phaseRecord 1) :=
    ⟨shape_phaseRecord, rfl, .inl ⟨congrArg Loaded.code loads, rfl, rfl⟩⟩
  exact save_acknowledged blankPair_consistent false allowed (clear_clearVisit rfl _)

/-- The second phase is saved on any visit, cut or not, and the watch starts again. -/
def cutRun (visit : Visit) : History :=
  blankPair.run phased .journal [saveFirst, .save (phaseRecord 2) false visit, .reboot]

theorem cutRun_eq (visit : Visit) : cutRun visit =
    ((blankPair.step phased .journal saveFirst).step phased .journal (.save (phaseRecord 2) false visit)).step phased
      .journal .reboot := by
  rw [cutRun, History.run, List.foldl_cons, List.foldl_cons, List.foldl_cons, List.foldl_nil]

theorem cutRun_free (visit : Visit) : (cutRun visit).world.quarantined = false := by
  rw [cutRun_eq, (step_reboot ..).1, World.reboot]

theorem first_ledger : (blankPair.step phased .journal saveFirst).ledger = [⟨phaseRecord 1, true⟩] := by
  rw [saveFirst, step_save, first_acknowledged]
  rfl

private theorem cutRun_ledger (visit : Visit) :
    ∃ told, (cutRun visit).ledger = [⟨phaseRecord 2, told⟩, ⟨phaseRecord 1, true⟩] := by
  rw [cutRun_eq, (step_reboot ..).2, step_save, first_ledger]
  generalize acknowledged (World.call _ _ _) = told
  exact ⟨told, rfl⟩

/-- A save that is acknowledged, and then one that may be cut anywhere: a load none of whose calls
fails finds one of the two records. -/
theorem cold_store_crash_atomic_cut :
    (blankPair.step phased .journal saveFirst).ledger = [⟨phaseRecord 1, true⟩] ∧ ∀ visit,
      CrashAtomic phased .journal (cutRun visit) ∧
      ∃ reply r, ((cutRun visit).world.call (.coldLoad .journal phased false)
          (clearVisit (cutRun visit).world (.coldLoad .journal phased false))).reply = some reply ∧
        reply.published.coldRecord = some r ∧ (r = phaseRecord 1 ∨ r = phaseRecord 2) := by
  refine ⟨first_ledger, fun visit => ?_⟩
  have atomic : CrashAtomic phased .journal (cutRun visit) :=
    (cold_store_crash_atomic phased .journal StoreModel.formatted StoreModel.holds_formatted.1 blank_pair _).1
  obtain ⟨told, ledger⟩ := cutRun_ledger visit
  have clear := clear_clearVisit (cutRun_free visit) (.coldLoad .journal phased false)
  obtain ⟨reply, hreply, answered⟩ := atomic.answers false _ clear
  refine ⟨atomic, reply, ?_⟩
  rcases answered.2 with ⟨-, none_⟩ | ⟨r, -, published, recoverable⟩
  · rw [ledger] at none_
    exact absurd (none_ _ (List.mem_cons_of_mem _ List.mem_cons_self)) (by decide)
  · obtain ⟨a, mem, value⟩ := recoverable.mem
    rw [ledger] at mem
    refine ⟨r, hreply, published, ?_⟩
    rw [← value]
    rcases List.mem_cons.mp mem with rfl | mem
    · exact .inr rfl
    · rw [List.mem_singleton.mp mem]
      exact .inl rfl

end Mosaico.Nand.ColdHistory
