import Mosaico.Library.Interaction
import Mosaico.Library.SaveLedger
import Mathlib.Data.List.Chain
import Mathlib.Logic.Function.Basic

/-! A journal of records in two slots. A record may only follow the one before it, so the two that are there
tell which is the newer; a save overwrites the older one. A write is atomic, and may take effect or not
whatever it answers. -/
namespace SlotJournal

open Interaction SaveLedger

variable {R B K : Type}

/-- What a journal keeps: how a record becomes a blob of its owner, and what may follow what. -/
structure Journal (R B K : Type) where
  encode : R → Option B
  decode : B → K → Option R
  owner : R → K
  generation : R → UInt32
  initial : R → Bool
  transition : R → R → Bool

structure Lawful (J : Journal R B K) : Prop where
  inverse : ∀ b k r, J.decode b k = some r ↔ J.encode r = some b ∧ J.owner r = k
  grows : ∀ a b, J.transition a b = true → J.generation a < J.generation b

inductive ReadResult (B : Type) where
  | missing | present (blob : B) | error

inductive Call (B : Type) where
  | read (slot : Bool)
  | write (slot : Bool) (blob : B)
  | commit
  | available

abbrev Answer : Call B → Type
  | .read _ => ReadResult B
  | .write _ _ => Bool
  | .commit => Bool
  | .available => Option Nat

abbrev Access (B α : Type) := Prog (Call B) Answer α

inductive Status where
  | missing | ready | corrupt | ioError | ambiguous | rejected | noSpace | writeFailed | commitFailed | readbackFailed
  deriving DecidableEq

structure Loaded (R : Type) where
  status : Status
  /-- The record that may be used, and its slot. -/
  selected : Option (Bool × R) := none

inductive Found (R : Type) where
  | missing | error | corrupt | valid (record : R)

section Programs

variable (J : Journal R B K)

def readSlot (k : K) (slot : Bool) : Access B (Found R) := do
  match ← Prog.perform (Call.read slot) with
  | .missing => return .missing
  | .error => return .error
  | .present blob => return (J.decode blob k).elim .corrupt .valid

def judgeAlone (slot : Bool) (r : R) : Loaded R :=
  if J.initial r then ⟨.ready, some (slot, r)⟩ else ⟨.ambiguous, none⟩

def judgeBoth (a b : R) : Loaded R :=
  if J.generation a = J.generation b then ⟨.ambiguous, none⟩
  else if J.generation b < J.generation a then
    if J.transition b a then ⟨.ready, some (false, a)⟩ else ⟨.ambiguous, none⟩
  else if J.transition a b then ⟨.ready, some (true, b)⟩ else ⟨.ambiguous, none⟩

def judge : Found R → Found R → Loaded R
  | .error, _ => ⟨.ioError, none⟩
  | _, .error => ⟨.ioError, none⟩
  | .corrupt, _ => ⟨.corrupt, none⟩
  | _, .corrupt => ⟨.corrupt, none⟩
  | .missing, .missing => ⟨.missing, none⟩
  | .valid r, .missing => judgeAlone J false r
  | .missing, .valid r => judgeAlone J true r
  | .valid a, .valid b => judgeBoth J a b

def load (k : K) : Access B (Loaded R) := do
  let first ← readSlot J k false
  let second ← readSlot J k true
  return judge J first second

/-- How the saves of a journal differ: the entries that must be free before a first record is written, and
whether both slots are loaded again at the end. -/
structure Options where
  room : Option Nat := none
  reload : Bool := false

/-- The slot that a record goes to, if it may be saved. -/
def slotFor (o : Options) (next : R) (old : Loaded R) : Access B (Except Status Bool) :=
  match old.status, old.selected with
  | .missing, _ =>
    if !J.initial next then return .error .rejected
    else match o.room with
      | none => return .ok false
      | some required => do
        match ← Prog.perform (Call.available (B := B)) with
        | none => return .error .ioError
        | some n => return if n < required then .error .noSpace else .ok false
  | .ready, some (slot, current) => return if J.transition current next then .ok !slot else .error .rejected
  | status, _ => return .error status

def confirm [DecidableEq B] (o : Options) (next : R) (encoded : B) : ReadResult B → Access B Status
  | .present readback => do
    if readback ≠ encoded ∨ (J.decode readback (J.owner next)).isNone then return .readbackFailed
    if o.reload then return (← load J (J.owner next)).status
    return .ready
  | _ => return .readbackFailed

def store [DecidableEq B] (o : Options) (next : R) (encoded : B) (slot : Bool) : Access B Status := do
  if !(← Prog.perform (Call.write slot encoded)) then return .writeFailed
  if !(← Prog.perform (Call.commit (B := B))) then return .commitFailed
  confirm J o next encoded (← Prog.perform (Call.read (B := B) slot))

def save [DecidableEq B] (o : Options) (next : R) (admitted : Bool) : Access B Status :=
  if !admitted then return .rejected
  else match J.encode next with
    | none => return .rejected
    | some encoded => do
      match ← slotFor J o next (← load J (J.owner next)) with
      | .error status => return status
      | .ok slot => store J o next encoded slot

end Programs

abbrev Slots (B : Type) := Bool → Option B

def Slots.put (s : Slots B) (slot : Bool) (blob : B) : Slots B := Function.update s slot (some blob)

/-- Reads are truthful or fail; a write takes effect when it succeeds, and may when it does not. -/
def Faulty : Behaviour (Call B) Answer (Slots B)
  | .read slot, s, .missing, s' => s' = s ∧ s slot = none
  | .read slot, s, .present blob, s' => s' = s ∧ s slot = some blob
  | .read _, s, .error, s' => s' = s
  | .write slot blob, s, ok, s' => s' = s.put slot blob ∨ (s' = s ∧ ok = false)
  | .commit, s, _, s' => s' = s
  | .available, s, _, s' => s' = s

def Call.Read : (c : Call B) → Answer c → Prop
  | .read _, .error => False
  | _, _ => True

def Readable (c : Call B) (s : Slots B) (r : Answer c) (s' : Slots B) : Prop := Faulty c s r s' ∧ c.Read r

section Loads

variable (J : Journal R B K) (k : K) {s s' : Slots B} {slot : Bool} {r : R}

def foundIn (s : Slots B) (slot : Bool) : Found R :=
  match s slot with
  | none => .missing
  | some blob => (J.decode blob k).elim .corrupt .valid

def loadedIn (s : Slots B) : Loaded R := judge J (foundIn J k s false) (foundIn J k s true)

def current (s : Slots B) : Option R := (loadedIn J k s).selected.map Prod.snd

theorem readSlot_wp (s : Slots B) (slot : Bool) : (readSlot J k slot).wp Faulty
    (fun found s' => s' = s ∧ (found = .error ∨ found = foundIn J k s slot)) (fun s' => s' = s) s := by
  intro answer s' step
  cases answer with
  | missing =>
    obtain ⟨same, none_⟩ := step
    refine ⟨same, same, Or.inr ?_⟩
    rw [foundIn, none_]
  | present blob =>
    obtain ⟨same, there⟩ := step
    refine ⟨same, same, Or.inr ?_⟩
    rw [foundIn, there]
  | error => exact ⟨step, step, Or.inl rfl⟩

theorem readSlot_read (s : Slots B) (slot : Bool) : (readSlot J k slot).wp Readable
    (fun found s' => s' = s ∧ found = foundIn J k s slot) (fun s' => s' = s) s := by
  intro answer s' step
  cases answer with
  | missing =>
    obtain ⟨same, none_⟩ := step.1
    refine ⟨same, same, ?_⟩
    rw [foundIn, none_]
  | present blob =>
    obtain ⟨same, there⟩ := step.1
    refine ⟨same, same, ?_⟩
    rw [foundIn, there]
  | error => exact step.2.elim

theorem judge_error_left (found : Found R) : judge J .error found = ⟨.ioError, none⟩ := by
  cases found <;> rfl

theorem judge_error_right (found : Found R) : judge J found .error = ⟨.ioError, none⟩ := by
  cases found <;> rfl

theorem load_wp (s : Slots B) : (load J k).wp Faulty
    (fun loaded s' => s' = s ∧ (loaded = ⟨.ioError, none⟩ ∨ loaded = loadedIn J k s)) (fun s' => s' = s) s := by
  refine Prog.wp_bind (readSlot_wp J k s false) fun first s' h => ?_
  obtain ⟨rfl, first_⟩ := h
  refine Prog.wp_bind (readSlot_wp J k s' true) fun second t h => ?_
  obtain ⟨rfl, second_⟩ := h
  refine ⟨rfl, ?_⟩
  rcases first_ with rfl | rfl
  · exact Or.inl (judge_error_left J second)
  · rcases second_ with rfl | rfl
    · exact Or.inl (judge_error_right J _)
    · exact Or.inr rfl

theorem load_read (s : Slots B) : (load J k).wp Readable
    (fun loaded s' => s' = s ∧ loaded = loadedIn J k s) (fun s' => s' = s) s := by
  refine Prog.wp_bind (readSlot_read J k s false) fun first s' h => ?_
  obtain ⟨rfl, rfl⟩ := h
  refine Prog.wp_bind (readSlot_read J k s' true) fun second t h => ?_
  obtain ⟨rfl, rfl⟩ := h
  exact ⟨rfl, rfl⟩

end Loads

section Saves

variable {J : Journal R B K} {k : K} {s s' : Slots B} {slot : Bool} {r next : R} {cur : Option R}

def InSlot (J : Journal R B K) (k : K) (s : Slots B) (slot : Bool) (r : R) : Prop :=
  ∃ blob, J.encode r = some blob ∧ J.owner r = k ∧ s slot = some blob

/-- The newest record is in this slot, and the other one has the record before it, unless it is the first. -/
def Newest (J : Journal R B K) (k : K) (s : Slots B) (slot : Bool) (r : R) : Prop :=
  InSlot J k s slot r ∧
    ((s (!slot) = none ∧ J.initial r = true) ∨ ∃ old, InSlot J k s (!slot) old ∧ J.transition old r = true)

def Holds (J : Journal R B K) (k : K) (s : Slots B) : Option R → Prop
  | none => ∀ slot, s slot = none
  | some r => ∃ slot, Newest J k s slot r

def Next (J : Journal R B K) : Option R → R → Prop
  | none, next => J.initial next = true
  | some r, next => J.transition r next = true

theorem InSlot.found (L : Lawful J) (h : InSlot J k s slot r) : foundIn J k s slot = .valid r := by
  obtain ⟨blob, made, owned, there⟩ := h
  rw [foundIn, there]
  show (J.decode blob k).elim Found.corrupt Found.valid = _
  rw [(L.inverse blob k r).mpr ⟨made, owned⟩]
  rfl

theorem foundIn_none (h : s slot = none) : foundIn J k s slot = .missing := by
  rw [foundIn, h]

theorem judgeBoth_follows (L : Lawful J) {old new : R} (h : J.transition old new = true) :
    judgeBoth J old new = ⟨.ready, some (true, new)⟩ ∧ judgeBoth J new old = ⟨.ready, some (false, new)⟩ := by
  have grows := L.grows old new h
  have apart : J.generation old ≠ J.generation new := fun same => UInt32.lt_irrefl _ (same ▸ grows)
  have back : ¬J.generation new < J.generation old := fun other => UInt32.lt_irrefl _ (UInt32.lt_trans other grows)
  constructor
  · rw [judgeBoth, if_neg apart, if_neg back, if_pos h]
  · rw [judgeBoth, if_neg apart.symm, if_pos grows, if_pos h]

theorem Newest.loaded (L : Lawful J) (h : Newest J k s slot r) : loadedIn J k s = ⟨.ready, some (slot, r)⟩ := by
  obtain ⟨here, alone | ⟨old, other, follows⟩⟩ := h
  · have mine := here.found L
    have none_ : foundIn J k s (!slot) = .missing := foundIn_none alone.1
    cases slot with
    | false =>
      rw [loadedIn, mine, show foundIn J k s true = .missing from none_]
      exact if_pos alone.2
    | true =>
      rw [loadedIn, show foundIn J k s false = .missing from none_, mine]
      exact if_pos alone.2
  · have mine := here.found L
    have before := other.found L
    cases slot with
    | false =>
      rw [loadedIn, mine, show foundIn J k s true = .valid old from before]
      exact (judgeBoth_follows L follows).2
    | true =>
      rw [loadedIn, show foundIn J k s false = .valid old from before, mine]
      exact (judgeBoth_follows L follows).1

theorem Holds.loaded (L : Lawful J) (h : Holds J k s cur) :
    (cur = none ∧ loadedIn J k s = ⟨.missing, none⟩) ∨
      ∃ slot r, cur = some r ∧ Newest J k s slot r ∧ loadedIn J k s = ⟨.ready, some (slot, r)⟩ := by
  cases cur with
  | none =>
    refine Or.inl ⟨rfl, ?_⟩
    rw [loadedIn, foundIn_none (h false), foundIn_none (h true)]
    rfl
  | some r =>
    obtain ⟨slot, newest⟩ := h
    exact Or.inr ⟨slot, r, rfl, newest, newest.loaded L⟩

theorem Holds.current (L : Lawful J) (h : Holds J k s cur) : current J k s = cur := by
  rcases h.loaded L with ⟨rfl, loaded⟩ | ⟨slot, r, rfl, -, loaded⟩
  · rw [SlotJournal.current, loaded]
    rfl
  · rw [SlotJournal.current, loaded]
    rfl

/-- A first record, written to an empty journal. -/
theorem Holds.first {blob : B} (h : Holds J k s none) (made : J.encode next = some blob) (owned : J.owner next = k)
    (initial : J.initial next = true) (slot : Bool) : Holds J k (s.put slot blob) (some next) := by
  refine ⟨slot, ⟨blob, made, owned, Function.update_self _ _ _⟩, Or.inl ⟨?_, initial⟩⟩
  have apart : (!slot) ≠ slot := by simp
  rw [Slots.put, Function.update_of_ne apart]
  exact h _

/-- A later record, written over the older one. -/
theorem Newest.later {blob : B} (h : Newest J k s slot r) (made : J.encode next = some blob)
    (owned : J.owner next = k) (follows : J.transition r next = true) :
    Holds J k (s.put (!slot) blob) (some next) := by
  obtain ⟨⟨blob', made', owned', there⟩, -⟩ := h
  refine ⟨!slot, ⟨blob, made, owned, Function.update_self _ _ _⟩,
    Or.inr ⟨r, ⟨blob', made', owned', ?_⟩, follows⟩⟩
  have apart : (!(!slot)) ≠ !slot := by simp
  rw [Slots.put, Function.update_of_ne apart, Bool.not_not]
  exact there

/-- Where a save may be cut: before the write, or after it. -/
def Cut (J : Journal R B K) (k : K) (cur : Option R) (next : R) (s : Slots B) : Prop :=
  Holds J k s cur ∨ (Next J cur next ∧ Holds J k s (some next))

/-- What `slotFor` may say: a refusal, or a slot where the record would be the newest. -/
def Admits (J : Journal R B K) (k : K) (cur : Option R) (next : R) (s : Slots B) : Except Status Bool → Prop
  | .error status => status ≠ .ready
  | .ok slot => Next J cur next ∧ ∀ blob, J.encode next = some blob → J.owner next = k →
      Holds J k (s.put slot blob) (some next)

theorem admit_wp (o : Options) (L : Lawful J) (h : Holds J k s cur) (old : Loaded R)
    (loaded : old = ⟨.ioError, none⟩ ∨ old = loadedIn J k s) : (slotFor J o next old).wp Faulty
      (fun target s' => s' = s ∧ Admits J k cur next s target) (fun s' => s' = s) s := by
  rcases loaded with rfl | rfl
  · exact ⟨rfl, Status.noConfusion⟩
  · rcases h.loaded L with ⟨rfl, loaded⟩ | ⟨slot, r, rfl, newest, loaded⟩
    · rw [loaded]
      unfold slotFor
      dsimp only
      split
      · exact ⟨rfl, Status.noConfusion⟩
      · rename_i initial
        have first : J.initial next = true := by simpa using initial
        have admits : Admits J k none next s (.ok false) :=
          ⟨first, fun blob made owned => Holds.first h made owned first false⟩
        split
        · exact ⟨rfl, admits⟩
        · intro answer s' step
          have same : s' = s := step
          refine ⟨same, ?_⟩
          cases answer with
          | none => exact ⟨same, Status.noConfusion⟩
          | some n =>
            refine ⟨same, ?_⟩
            split
            · exact Status.noConfusion
            · exact admits
    · rw [loaded]
      unfold slotFor
      dsimp only
      refine ⟨rfl, ?_⟩
      split
      · rename_i follows
        exact ⟨follows, fun blob made owned => newest.later made owned follows⟩
      · exact Status.noConfusion

theorem load_status (L : Lawful J) (h : Holds J k s (some r)) : (load J k).wp Faulty
    (fun loaded s' => s' = s ∧ (loaded.status = .ioError ∨ loaded.status = .ready)) (fun s' => s' = s) s := by
  refine Prog.wp_mono (load_wp J k s) ?_ fun _ same => same
  rintro loaded s' ⟨same, either⟩
  refine ⟨same, either.imp (fun failed => by rw [failed]) fun found => ?_⟩
  rcases h.loaded L with ⟨bad, -⟩ | ⟨slot, r, -, -, ready⟩
  · cases bad
  · rw [found, ready]

theorem load_ends (J : Journal R B K) (k : K) (s : Slots B) : (load J k).Ends Faulty s (loadedIn J k s) s := by
  have reads : ∀ slot, (readSlot J k slot).Ends Faulty s (foundIn J k s slot) s := by
    intro slot
    cases there : s slot with
    | none => exact ⟨.missing, s, ⟨rfl, there⟩, by rw [foundIn, there], rfl⟩
    | some blob => exact ⟨.present blob, s, ⟨rfl, there⟩, by rw [foundIn, there], rfl⟩
  exact Prog.ends_bind (reads false) (Prog.ends_bind (reads true) ⟨rfl, rfl⟩)

/-- A slot that `slotFor` gives to an allowed record, when there is no bound on the free entries or enough of them. -/
theorem admit_ends (o : Options) (L : Lawful J) (h : Holds J k s cur) (allowed : Next J cur next) :
    ∃ slot, (slotFor J o next (loadedIn J k s)).Ends Faulty s (.ok slot) s := by
  rcases h.loaded L with ⟨rfl, loaded⟩ | ⟨slot, r, rfl, -, loaded⟩
  · refine ⟨false, ?_⟩
    have initial : (!J.initial next) = false := by rw [show J.initial next = true from allowed]; rfl
    rw [loaded]
    unfold slotFor
    dsimp only
    rw [if_neg (by rw [initial]; exact Bool.false_ne_true)]
    cases o.room with
    | none => exact ⟨rfl, rfl⟩
    | some required =>
      refine ⟨some required, s, rfl, ?_, rfl⟩
      rw [if_neg (Nat.lt_irrefl _)]
  · refine ⟨!slot, ?_⟩
    have follows : J.transition r next = true := allowed
    rw [loaded]
    unfold slotFor
    dsimp only
    rw [if_pos follows]
    exact ⟨rfl, rfl⟩

variable [DecidableEq B]

theorem confirm_wp (o : Options) (L : Lawful J) (h : Holds J k s (some next)) (owned : J.owner next = k) (encoded : B)
    (answer : ReadResult B) : (confirm J o next encoded answer).wp Faulty (fun _ s' => s' = s)
    (fun s' => s' = s) s := by
  cases answer with
  | missing => exact rfl
  | error => exact rfl
  | present blob =>
    unfold confirm
    dsimp only
    split
    · exact rfl
    · split
      · rw [owned]
        exact Prog.wp_bind (load_status L h) fun loaded s' found => found.1
      · exact rfl

theorem store_wp (o : Options) (L : Lawful J) (h : Holds J k s cur) {encoded : B} (allowed : Next J cur next)
    (owned : J.owner next = k) (written : Holds J k (s.put slot encoded) (some next)) :
    (store J o next encoded slot).wp Faulty
      (fun status s' => Cut J k cur next s' ∧ (status = .ready → Holds J k s' (some next))) (Cut J k cur next) s := by
  have done : Cut J k cur next (s.put slot encoded) := Or.inr ⟨allowed, written⟩
  intro ok s₁ step
  have cut₁ : Cut J k cur next s₁ := by
    rcases step with taken | ⟨kept, -⟩
    · rw [taken]
      exact done
    · rw [kept]
      exact Or.inl h
  refine ⟨cut₁, ?_⟩
  cases ok with
  | false => exact ⟨cut₁, fun bad => by cases bad⟩
  | true =>
    have taken : s₁ = s.put slot encoded := step.resolve_right fun bad => by cases bad.2
    intro committed s₂ step
    have same : s₂ = s.put slot encoded := Eq.trans step taken
    rw [same]
    refine ⟨done, ?_⟩
    cases committed with
    | false => exact ⟨done, fun bad => by cases bad⟩
    | true =>
      intro answer s₃ step
      have same₃ : s₃ = s.put slot encoded := by
        cases answer with
        | missing => exact step.1
        | present blob => exact step.1
        | error => exact step
      rw [same₃]
      refine ⟨done, Prog.wp_mono (confirm_wp o L written owned encoded answer) ?_ ?_⟩
      · rintro status s' rfl
        exact ⟨done, fun _ => written⟩
      · rintro s' rfl
        exact done

/-- A save leaves the record that was newest, or has added its own; once it is acknowledged, it has. -/
theorem save_wp (o : Options) (L : Lawful J) (h : Holds J k s cur) (owned : J.owner next = k) (admitted : Bool) :
    (save J o next admitted).wp Faulty
      (fun status s' => Cut J k cur next s' ∧ (status = .ready → Holds J k s' (some next))) (Cut J k cur next) s := by
  have unchanged : Cut J k cur next s := Or.inl h
  unfold save
  split
  · exact ⟨unchanged, fun bad => by cases bad⟩
  · cases made : J.encode next with
    | none => exact ⟨unchanged, fun bad => by cases bad⟩
    | some encoded =>
      dsimp only
      rw [owned]
      refine Prog.wp_bind (Prog.wp_mono (load_wp J k s) (fun _ _ => id) fun s' same => same ▸ unchanged) ?_
      rintro old s' ⟨rfl, loaded⟩
      refine Prog.wp_bind (Prog.wp_mono (admit_wp o L h old loaded)
        (fun _ _ => id) fun s' same => same ▸ unchanged) ?_
      rintro target t ⟨rfl, allowed⟩
      cases target with
      | error status => exact ⟨unchanged, fun ready => absurd ready allowed⟩
      | ok slot =>
        obtain ⟨follows, written⟩ := allowed
        exact store_wp o L h follows owned (written encoded made owned)

section Outcomes

variable {encoded : B}

/-- What an allowed save may come to: an error before the write takes effect or after it, or success. -/
theorem save_ends (o : Options) (L : Lawful J) (h : Holds J k s cur) (allowed : Next J cur next)
    (made : J.encode next = some encoded) (owned : J.owner next = k) :
    (save J o next true).Ends Faulty s .writeFailed s ∧
      ∃ slot, Holds J k (s.put slot encoded) (some next) ∧
        (save J o next true).Ends Faulty s .commitFailed (s.put slot encoded) ∧
        (o.reload = false → (save J o next true).Ends Faulty s .ready (s.put slot encoded)) := by
  obtain ⟨slot, target⟩ := admit_ends o L h allowed
  have newest := (Prog.wp_ends (admit_wp o L h _ (Or.inr rfl)) target).2.2 encoded made owned
  have before : ∀ {status s'}, (store J o next encoded slot).Ends Faulty s status s' →
      (save J o next true).Ends Faulty s status s' := by
    intro status s' stored
    unfold save
    rw [if_neg (by simp), made]
    dsimp only
    rw [owned]
    exact Prog.ends_bind (load_ends J k s) (Prog.ends_bind target stored)
  refine ⟨before ⟨false, s, Or.inr ⟨rfl, rfl⟩, rfl, rfl⟩, slot, newest,
    before ⟨true, s.put slot encoded, Or.inl rfl, false, _, rfl, rfl, rfl⟩, fun once => before ?_⟩
  have read : (s.put slot encoded) slot = some encoded := Function.update_self _ _ _
  refine ⟨true, s.put slot encoded, Or.inl rfl, true, _, rfl, .present encoded, _, ⟨rfl, read⟩, ?_⟩
  have decoded : J.decode encoded (J.owner next) = some next := (L.inverse _ _ _).mpr ⟨made, rfl⟩
  show (confirm J o next encoded (.present encoded)).Ends Faulty _ _ _
  unfold confirm
  dsimp only
  rw [if_neg (by simp [decoded]), if_neg (by simp [once])]
  exact ⟨rfl, rfl⟩

end Outcomes

end Saves

section Runs

variable {J : Journal R B K} {o : Options} {k : K} {s s' : Slots B} {r : R} {log : List (Attempt R)}
  {seen : List (Option R)}

/-- Saves of the owner, one after the other from empty slots, each carried out or cut anywhere; what they
attempted, and what a load would find after each of them, newest first. -/
inductive Reached [DecidableEq B] (J : Journal R B K) (o : Options) (k : K) :
    Slots B → List (Attempt R) → List (Option R) → Prop
  | empty : Reached J o k (fun _ => none) [] [none]
  | saved {s s' : Slots B} {log : List (Attempt R)} {seen : List (Option R)} {r : R} {admitted : Bool}
      {status : Status}
      (before : Reached J o k s log seen) (owned : J.owner r = k)
        (ended : (save J o r admitted).Ends Faulty s status s') :
      Reached J o k s' (⟨r, decide (status = .ready)⟩ :: log) (current J k s' :: seen)
  | cut {s s' : Slots B} {log : List (Attempt R)} {seen : List (Option R)} {r : R} {admitted : Bool}
      (before : Reached J o k s log seen) (owned : J.owner r = k)
        (visited : (save J o r admitted).Visits Faulty s s') :
      Reached J o k s' (⟨r, false⟩ :: log) (current J k s' :: seen)

/-- Loads in turn find the same, a first record, or one that may follow. -/
def Continues (J : Journal R B K) (later earlier : Option R) : Prop :=
  later = earlier ∨ ∃ r, later = some r ∧ Next J earlier r

theorem continues_cut {cur : Option R} (L : Lawful J) (h : Cut J k cur r s) :
    Continues J (current J k s) cur ∧ (current J k s = cur ∨ current J k s = some r) := by
  rcases h with kept | ⟨next, added⟩
  · rw [kept.current L]
    exact ⟨Or.inl rfl, Or.inl rfl⟩
  · rw [added.current L]
    exact ⟨Or.inr ⟨r, rfl, next⟩, Or.inr rfl⟩

theorem Cut.holds {cur : Option R} (L : Lawful J) (h : Cut J k cur r s) : Holds J k s (current J k s) := by
  rcases h with kept | ⟨-, added⟩
  · rw [kept.current L]
    exact kept
  · rw [added.current L]
    exact added

/-- What a run leaves: the newest record is one that was not overtaken by an acknowledged one, and the loads
are a chain. -/
structure Survived (J : Journal R B K) (k : K) (s : Slots B) (log : List (Attempt R))
    (seen : List (Option R)) : Prop where
  holds : Holds J k s (current J k s)
  recoverable : Recoverable log (current J k s)
  newest : seen.head? = some (current J k s)
  chain : seen.IsChain (Continues J)
  first : seen.getLast? = some none

theorem survived_step (L : Lawful J) (h : Survived J k s log seen) {acknowledged : Bool}
    (cut : Cut J k (current J k s) r s') (done : acknowledged = true → Holds J k s' (some r)) :
    Survived J k s' (⟨r, acknowledged⟩ :: log) (current J k s' :: seen) := by
  obtain ⟨continues, moved⟩ := continues_cut L cut
  have old := h.newest
  refine ⟨cut.holds L, h.recoverable.save moved fun yes => (done yes).current L, rfl, ?_, ?_⟩
  · cases seen with
    | nil => cases old
    | cons latest earlier =>
      cases old
      exact List.isChain_cons_cons.mpr ⟨continues, h.chain⟩
  · cases seen with
    | nil => cases old
    | cons latest earlier => exact (List.getLast?_cons_cons ..).trans h.first

theorem survived [DecidableEq B] (L : Lawful J) (h : Reached J o k s log seen) : Survived J k s log seen := by
  induction h with
  | empty =>
    have holds : Holds J k (fun _ => none) none := fun _ => rfl
    have none_ := holds.current L
    refine ⟨?_, ?_, ?_, List.isChain_singleton _, rfl⟩
    · rw [none_]
      exact holds
    · rw [none_]
      exact recoverable_nil
    · rw [none_]
      rfl
  | saved before owned ended ih =>
    obtain ⟨cut, done⟩ := Prog.wp_ends (save_wp o L ih.holds owned _) ended
    exact survived_step L ih cut fun yes => done (of_decide_eq_true yes)
  | cut before owned visited ih =>
    have cut := Prog.wp_visits (save_wp o L ih.holds owned _) (Or.inl ih.holds) visited
    exact survived_step L ih cut fun no => absurd no Bool.false_ne_true

/-- A load answers the newest record, or that nothing was written yet. -/
def Answers (cur : Option R) (loaded : Loaded R) : Prop :=
  loaded.selected.map Prod.snd = cur ∧ loaded.status = if cur.isSome then .ready else .missing

theorem Survived.answers (L : Lawful J) (h : Survived J k s log seen) : Answers (current J k s) (loadedIn J k s) := by
  refine ⟨rfl, ?_⟩
  rcases h.holds.loaded L with ⟨none_, missing⟩ | ⟨slot, r, some_, -, ready⟩
  · rw [none_, missing]
    rfl
  · rw [some_, ready]
    rfl

/-- A load, wherever its reads fail. -/
theorem Survived.load {loaded : Loaded R} (L : Lawful J) (h : Survived J k s log seen)
    (ended : (load J k).Ends Faulty s loaded s') : loaded.status = .ioError ∨ Answers (current J k s) loaded := by
  obtain ⟨-, failed | found⟩ := Prog.wp_ends (load_wp J k s) ended
  · exact Or.inl (by rw [failed])
  · rw [found]
    exact Or.inr (h.answers L)

/-- A load whose reads all succeed. -/
theorem Survived.read (L : Lawful J) (h : Survived J k s log seen) : (SlotJournal.load J k).wp Readable
    (fun loaded s' => s' = s ∧ Answers (current J k s) loaded) (fun s' => s' = s) s := by
  refine Prog.wp_mono (load_read J k s) ?_ fun _ same => same
  rintro loaded s' ⟨same, rfl⟩
  exact ⟨same, h.answers L⟩

end Runs

end SlotJournal
