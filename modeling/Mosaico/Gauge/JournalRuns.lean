import Mosaico.Gauge.JournalCodecs
import Mosaico.Library.SlotJournal

/-! The three journals of the gauge in their slots: `loadInto` and `saveInto`, and what any number of saves,
failures and power cuts leave. -/
namespace Mosaico.Gauge

open ByteFields Recovery SlotJournal SaveLedger Interaction

/-- What the caller attests for the whole of a save. -/
structure WriteAdmission where
  gaugeTransactionHeld : Bool := false
  otaLeaseHeld : Bool := false
  stableVoltage : Bool := false

def WriteAdmission.all (a : WriteAdmission) : Bool := a.gaugeTransactionHeld && a.otaLeaseHeld && a.stableVoltage

theorem next_generation {a b : UInt32} (last : a ≠ 0xffffffff) (next : b = a + 1) : a < b := by
  rw [next, UInt32.lt_iff_toNat_lt, UInt32.toNat_add]
  have small := a.toNat_lt
  have room : a.toNat ≠ 0xffffffff := fun same => last (UInt32.toNat_inj.mp same)
  rw [UInt32.toNat_one, Nat.mod_eq_of_lt (by omega)]
  exact Nat.lt_succ_self _

namespace ScaleJournal

def journal : Journal Record Blob (Bytes 6) where
  encode := encode
  decode := decode
  owner := Record.mac
  generation r := r.snapshot.generation
  initial r := r.snapshot.generation == 1 && r.snapshot.phase == .original
  transition := transition

def loadInto (mac : Bytes 6) : Access Blob (Loaded Record) := load journal mac

def saveInto (next : Record) (admission : WriteAdmission) : Access Blob Status := save journal {} next admission.all

theorem journal_lawful : Lawful journal where
  inverse _ _ _ := decode_eq_some_iff
  grows a b h := by
    change transition a b = true at h
    simp only [transition, Bool.and_eq_true, beq_iff_eq, bne_iff_ne] at h
    exact next_generation h.1.1.1.2 h.1.1.2

end ScaleJournal

namespace FactoryJournal

def journal : Journal Record ScaleJournal.Blob (Bytes 6) where
  encode := encode
  decode := decode
  owner := Record.mac
  generation r := r.snapshot.generation
  initial r := r.snapshot.generation == 1 && r.snapshot.phase == .original
  transition := transition

def loadInto (mac : Bytes 6) : Access ScaleJournal.Blob (Loaded Record) := load journal mac

def options : Options where
  reload := true

def saveInto (next : Record) (admission : WriteAdmission) : Access ScaleJournal.Blob Status :=
  save journal options next admission.all

theorem journal_lawful : Lawful journal where
  inverse _ _ _ := decode_eq_some_iff
  grows a b h := by
    change transition a b = true at h
    unfold transition at h
    dsimp only at h
    simp only [Bool.and_eq_true, beq_iff_eq, bne_iff_ne] at h
    exact next_generation h.1.1.1.2 h.1.1.2

end FactoryJournal

namespace ContrastJournal

def journal : Journal Record Blob (Bytes 6) where
  encode := encode
  decode := decode
  owner := Record.mac
  generation := Record.generation
  initial r := r.generation == 1 && r.phase == .original
  transition := transition

def entriesPerBlob : Nat := (blobSize + 31) / 32 + 3

def initialRequiredEntries : Nat := 3 * entriesPerBlob + 1 + 16

def options : Options where
  room := some initialRequiredEntries

def loadInto (mac : Bytes 6) : Access Blob (Loaded Record) := load journal mac

def saveInto (next : Record) (admission : WriteAdmission) : Access Blob Status :=
  save journal options next admission.all

private theorem transition_generation {a b : Record} (h : transition a b = true) :
    a.generation ≠ 0xffffffff ∧ b.generation = a.generation + 1 := by
  unfold transition at h
  split_ifs at h with refused
  all_goals
    simp only [Bool.or_eq_true, Bool.not_eq_true', bne_iff_ne, beq_iff_eq, not_or, not_not, ne_eq] at refused
    exact ⟨refused.1.1.1.2, refused.1.1.2⟩

theorem journal_lawful : Lawful journal where
  inverse _ _ _ := decode_eq_some_iff
  grows a b h := by
    obtain ⟨last, next⟩ := transition_generation h
    exact next_generation last next

end ContrastJournal

/-- The three journals. -/
inductive JournalKind where
  | scale | factory | contrast

namespace JournalKind

abbrev Record : JournalKind → Type
  | .scale => ScaleJournal.Record
  | .factory => FactoryJournal.Record
  | .contrast => ContrastJournal.Record

abbrev Blob : JournalKind → Type
  | .scale | .factory => ScaleJournal.Blob
  | .contrast => ContrastJournal.Blob

instance : (kind : JournalKind) → DecidableEq kind.Blob
  | .scale | .factory => inferInstanceAs (DecidableEq ScaleJournal.Blob)
  | .contrast => inferInstanceAs (DecidableEq ContrastJournal.Blob)

def journal : (kind : JournalKind) → Journal kind.Record kind.Blob (Bytes 6)
  | .scale => ScaleJournal.journal
  | .factory => FactoryJournal.journal
  | .contrast => ContrastJournal.journal

def options : JournalKind → Options
  | .scale => {}
  | .factory => FactoryJournal.options
  | .contrast => ContrastJournal.options

def loadInto : (kind : JournalKind) → Bytes 6 → Access kind.Blob (Loaded kind.Record)
  | .scale => ScaleJournal.loadInto
  | .factory => FactoryJournal.loadInto
  | .contrast => ContrastJournal.loadInto

def saveInto : (kind : JournalKind) → kind.Record → WriteAdmission → Access kind.Blob Status
  | .scale => ScaleJournal.saveInto
  | .factory => FactoryJournal.saveInto
  | .contrast => ContrastJournal.saveInto

theorem lawful (kind : JournalKind) : Lawful kind.journal := by
  cases kind with
  | scale => exact ScaleJournal.journal_lawful
  | factory => exact FactoryJournal.journal_lawful
  | contrast => exact ContrastJournal.journal_lawful

theorem loadInto_eq (kind : JournalKind) (mac : Bytes 6) : kind.loadInto mac = load kind.journal mac := by
  cases kind <;> rfl

theorem saveInto_eq (kind : JournalKind) (next : kind.Record) (admission : WriteAdmission) :
    kind.saveInto next admission = save kind.journal kind.options next admission.all := by
  cases kind <;> rfl

end JournalKind

/-- Saves of one device's records, one after the other from empty storage, each carried out or cut anywhere; what they
attempted, and what a load would find after each of them, newest first. -/
inductive Ran (kind : JournalKind) (mac : Bytes 6) :
    Slots kind.Blob → List (Attempt kind.Record) → List (Option kind.Record) → Prop
  | empty : Ran kind mac (fun _ => none) [] [none]
  | saved {s s' : Slots kind.Blob} {log : List (Attempt kind.Record)} {seen : List (Option kind.Record)}
      {r : kind.Record}
      {admission : WriteAdmission} {status : Status} (before : Ran kind mac s log seen)
      (owned : kind.journal.owner r = mac) (ended : (kind.saveInto r admission).Ends Faulty s status s') :
      Ran kind mac s' (⟨r, decide (status = .ready)⟩ :: log) (current kind.journal mac s' :: seen)
  | cut {s s' : Slots kind.Blob} {log : List (Attempt kind.Record)} {seen : List (Option kind.Record)}
      {r : kind.Record}
      {admission : WriteAdmission} (before : Ran kind mac s log seen) (owned : kind.journal.owner r = mac)
      (visited : (kind.saveInto r admission).Visits Faulty s s') :
      Ran kind mac s' (⟨r, false⟩ :: log) (current kind.journal mac s' :: seen)

section Runs

variable {kind : JournalKind} {mac : Bytes 6} {s : Slots kind.Blob} {log : List (Attempt kind.Record)}
  {seen : List (Option kind.Record)}

theorem Ran.reached (h : Ran kind mac s log seen) : Reached kind.journal kind.options mac s log seen := by
  induction h with
  | empty => exact .empty
  | saved before owned ended ih =>
    rw [kind.saveInto_eq] at ended
    exact .saved ih owned ended
  | cut before owned visited ih =>
    rw [kind.saveInto_eq] at visited
    exact .cut ih owned visited

/-- However the saves of a journal went, a load whose reads succeed answers the newest record that has taken
effect, which is the last one acknowledged or one saved after it; a load that may fail answers that or an
error; and the loads are a chain that begins with a first record. -/
theorem journals_survive (ran : Ran kind mac s log seen) :
    Survived kind.journal mac s log seen ∧
      (kind.loadInto mac).wp Readable (fun loaded s' => s' = s ∧ Answers (current kind.journal mac s) loaded)
        (fun s' => s' = s) s ∧
      ∀ loaded s', (kind.loadInto mac).Ends Faulty s loaded s' →
        loaded.status = .ioError ∨ Answers (current kind.journal mac s) loaded := by
  have h := survived kind.lawful ran.reached
  rw [kind.loadInto_eq]
  exact ⟨h, h.read kind.lawful, fun loaded s' ended => h.load kind.lawful ended⟩

end Runs

def trialMac : Bytes 6 := ofFn 6 fun i => UInt8.ofNat (2 * i)

def chosen (generation : UInt32) : ContrastJournal.Record where
  mac := trialMac
  generation := generation
  epoch := generation.toUInt64
  source := ContrastJournal.sourceFixture

theorem chosen_shape {n : UInt32} (h : n ≠ 0) : ContrastJournal.shape (chosen n) = true := by
  have mac : (anyNonzero trialMac && byteAt trialMac 0 &&& 1 == 0) = true := by decide +kernel
  have known : Recovery.knownIdentity (chosen n).identity = true := by
    show Recovery.knownIdentity ⟨0x0220, 0x0003, 4⟩ = true
    decide
  have epoch : (chosen n).epoch ≠ 0 := fun zero => h (UInt32.toNat_inj.mp (by
    have same := congrArg UInt64.toNat zero
    simpa [chosen] using same))
  have generation : (chosen n).generation ≠ 0 := h
  have source : ((chosen n).source == ContrastJournal.sourceFixture) = true := beq_self_eq_true _
  simp only [ContrastJournal.shape, known, source, bne_iff_ne, Bool.and_eq_true, ne_eq, epoch, generation,
    not_false_eq_true, and_true]
  exact Bool.and_eq_true_iff.mp mac

theorem chosen_encoded {n : UInt32} (h : n ≠ 0) : ∃ blob, ContrastJournal.journal.encode (chosen n) = some blob :=
  ⟨_, if_pos (chosen_shape h)⟩

theorem chosen_first : Next ContrastJournal.journal none (chosen 1) := rfl

theorem chosen_follows {m n : UInt32} (h : m ≠ 0) (next : n ≠ 0) (last : m ≠ 0xffffffff) (generation : n = m + 1)
    (lastEpoch : m.toUInt64 ≠ 0xffffffffffffffff) (epoch : n.toUInt64 = m.toUInt64 + 1) :
    Next ContrastJournal.journal (some (chosen m)) (chosen n) := by
  show ContrastJournal.transition (chosen m) (chosen n) = true
  unfold ContrastJournal.transition
  rw [if_neg, if_pos]
  · rfl
  · rw [chosen_shape h, chosen_shape next]
    simp only [chosen, bne_self_eq_false, beq_iff_eq, bne_iff_ne, Bool.or_eq_true, not_or, Bool.not_true, generation]
    exact ⟨⟨by simpa using last, fun same => lastEpoch same⟩, fun apart => apart (by rw [← generation, epoch])⟩

theorem chosen_ne {m n : UInt32} (h : m ≠ n) : chosen m ≠ chosen n :=
  fun same => h (congrArg ContrastJournal.Record.generation same)

def attested : WriteAdmission := ⟨true, true, true⟩

theorem contrast_owned (n : UInt32) : JournalKind.contrast.journal.owner (chosen n) = trialMac := rfl

theorem contrast_start : Ran .contrast trialMac (fun _ => none) [] [none] := .empty

theorem contrast_empty : Holds ContrastJournal.journal trialMac (fun _ => none) none := fun _ => rfl

/-- A first save that is acknowledged, a second one that fails although it took effect, and a third without effect. -/
theorem contrast_ran : ∃ s seen slot,
    Ran .contrast trialMac s [⟨chosen 3, false⟩, ⟨chosen 2, false⟩, ⟨chosen 1, true⟩] seen ∧
      loadedIn ContrastJournal.journal trialMac s = ⟨.ready, some (slot, chosen 2)⟩ := by
  have L := ContrastJournal.journal_lawful
  have second_follows : Next ContrastJournal.journal (some (chosen 1)) (chosen 2) :=
    chosen_follows (by decide) (by decide) (by decide) (by decide) (by decide) (by decide)
  have third_follows : Next ContrastJournal.journal (some (chosen 2)) (chosen 3) :=
    chosen_follows (by decide) (by decide) (by decide) (by decide) (by decide) (by decide)
  have some_ : (1 : UInt32) ≠ 0 ∧ (2 : UInt32) ≠ 0 ∧ (3 : UInt32) ≠ 0 := by decide
  obtain ⟨a, first⟩ := chosen_encoded some_.1
  obtain ⟨b, second⟩ := chosen_encoded some_.2.1
  obtain ⟨c, third⟩ := chosen_encoded some_.2.2
  obtain ⟨-, slot, one, -, saved⟩ :=
    save_ends ContrastJournal.options L contrast_empty chosen_first first (contrast_owned 1)
  obtain ⟨-, slot', two, lost, -⟩ := save_ends ContrastJournal.options L one second_follows second (contrast_owned 2)
  obtain ⟨failed, -⟩ := save_ends ContrastJournal.options L two third_follows third (contrast_owned 3)
  have saved_ : (JournalKind.contrast.saveInto (chosen 1) attested).Ends Faulty _ _ _ := saved rfl
  have lost_ : (JournalKind.contrast.saveInto (chosen 2) attested).Ends Faulty _ _ _ := lost
  have failed_ : (JournalKind.contrast.saveInto (chosen 3) attested).Ends Faulty _ _ _ := failed
  have ran := Ran.saved (Ran.saved (Ran.saved contrast_start (contrast_owned 1) saved_) (contrast_owned 2) lost_)
    (contrast_owned 3) failed_
  rcases two.loaded L with ⟨bad, -⟩ | ⟨final, r, same, -, ready⟩
  · cases bad
  · cases same
    exact ⟨_, _, final, ran, ready⟩

/-- The load after that run finds the second record. -/
theorem journals_survive_contrast : ∃ s seen,
    Survived ContrastJournal.journal trialMac s
      [⟨chosen 3, false⟩, ⟨chosen 2, false⟩, ⟨chosen 1, true⟩] seen ∧
      (ContrastJournal.loadInto trialMac).wp Readable
        (fun loaded s' => s' = s ∧ loaded.selected.map Prod.snd = some (chosen 2) ∧ loaded.status = .ready)
        (fun s' => s' = s) s := by
  obtain ⟨s, seen, slot, ran, ready⟩ := contrast_ran
  obtain ⟨survived, read, -⟩ := journals_survive ran
  have second : current JournalKind.contrast.journal trialMac s = some (chosen 2) := by
    show (loadedIn ContrastJournal.journal trialMac s).selected.map Prod.snd = _
    rw [ready]
    rfl
  rw [second] at read
  exact ⟨s, seen, survived, read⟩

/-- A first save that fails leaves a journal that is not ready. And when a second save has failed although
it took effect, a third one without effect leaves neither the acknowledged record nor its own. -/
theorem contrast_saves_fail :
    (∃ s seen, Ran .contrast trialMac s [⟨chosen 1, false⟩] seen ∧
      (ContrastJournal.loadInto trialMac).Ends Faulty s ⟨.missing, none⟩ s) ∧
    ∃ s seen slot, Ran .contrast trialMac s [⟨chosen 3, false⟩, ⟨chosen 2, false⟩, ⟨chosen 1, true⟩] seen ∧
      (ContrastJournal.loadInto trialMac).Ends Faulty s ⟨.ready, some (slot, chosen 2)⟩ s ∧
      chosen 2 ≠ chosen 1 ∧ chosen 2 ≠ chosen 3 := by
  have L := ContrastJournal.journal_lawful
  constructor
  · obtain ⟨a, first⟩ := chosen_encoded (show (1 : UInt32) ≠ 0 by decide)
    obtain ⟨failed, -⟩ := save_ends ContrastJournal.options L contrast_empty chosen_first first (contrast_owned 1)
    have failed_ : (JournalKind.contrast.saveInto (chosen 1) attested).Ends Faulty _ _ _ := failed
    refine ⟨_, _, Ran.saved contrast_start (contrast_owned 1) failed_, ?_⟩
    have ends := load_ends ContrastJournal.journal trialMac (fun _ => none)
    rcases contrast_empty.loaded L with ⟨-, missing⟩ | ⟨_, _, bad, -⟩
    · rw [missing] at ends
      exact ends
    · cases bad
  · obtain ⟨s, seen, slot, ran, ready⟩ := contrast_ran
    have ends := load_ends ContrastJournal.journal trialMac s
    rw [ready] at ends
    exact ⟨s, seen, slot, ran, ends, chosen_ne (by decide), chosen_ne (by decide)⟩

end Mosaico.Gauge
