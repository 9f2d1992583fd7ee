import Mosaico.Gauge.HalNominal
import Mosaico.Gauge.HalAccessSteps

/-! A gauge that answers truthfully and the journal of its capacity fields: what each call of a
transaction may do to them. -/
namespace Mosaico.Gauge.Hal

open ByteFields Interaction DurableCell

section Plant

def fieldAt (lowByte highByte : UInt8) : Option Field :=
  [Field.initialFcc, .design].find? fun f =>
    low f.address == lowByte && high f.address == highByte

def GaugePair.value (pair : GaugePair) : Field → UInt16
  | .design => pair.design
  | .initialFcc => pair.fcc

def GaugePair.set (pair : GaugePair) (field : Field) (value : UInt16) : GaugePair :=
  match field with
  | .design => { pair with design := value }
  | .initialFcc => { pair with fcc := value }

/-- The two fields of the data memory, the one that can be read, and what a commit would write. -/
structure Device where
  dm : GaugePair
  selected : Option Field := none
  buffer : Option (Field × UInt16) := none

def Device.takes (d : Device) : List UInt8 → Device
  | [0x3e, lowByte, highByte] => { d with selected := fieldAt lowByte highByte, buffer := none }
  | [0x3e, lowByte, highByte, valueHigh, valueLow] =>
    { d with
      selected := fieldAt lowByte highByte
      buffer := (fieldAt lowByte highByte).map fun f => (f, bigEndian (valueHigh, valueLow)) }
  | [0x60, _, _] =>
    { d with dm := d.buffer.elim d.dm fun w => d.dm.set w.1 w.2, buffer := none }
  | _ => { d with selected := none, buffer := none }

/-- A failed transfer may have taken effect or not; a commit may also be refused. -/
def Device.after (d : Device) (packet : List UInt8) (ok : Bool) (d' : Device) : Prop :=
  d' = d.takes packet ∨ d' = { d.takes packet with dm := d.dm } ∨ (ok = false ∧ d' = d)

/-- Reads show the selected field or fail. -/
def deviceActs : (c : Call) → Device → Answer c → Device → Prop
  | .transmit packet, d, ok, d' => d.after packet ok d'
  | .read reg, d, r, d' => d' = d ∧ ∀ b f, reg = 0x40 → d.selected = some f → r = some b →
      bigEndian b = d.dm.value f
  | .enters _, d, _, d' => d'.dm = d.dm
  | _, d, _, d' => d' = d

def journalActs : (c : Call) → Cell Journal → Answer c → Cell Journal → Prop
  | .nvsOpen .gaugecal _, cell, r, cell' => Opened cell r cell'
  | .nvsGet .nominal, cell, r, cell' => Loaded cell r cell'
  | .nvsSet .nominal v, cell, r, cell' => Put v cell r cell'
  | .nvsCommit .nominal, cell, r, cell' => Committed cell r cell'
  | _, cell, _, cell' => cell' = cell

def Journal.original (j : Journal) : GaugePair := { design := j.originalDesign, fcc := j.originalFcc }

def Journal.covers (j : Journal) (dm : GaugePair) : Bool := restorePairAllowed j dm.design dm.fcc

/-- The journal, the device, the steps of the present call with the newest first, whether the data
memory was covered when the call began, and the pair that was stored first. -/
structure Plant where
  cell : Cell Journal := {}
  device : Device
  steps : List Step := []
  heldBefore : Bool := true
  original : Option GaugePair := none

def Plant.after (s : Plant) (c : Call) (r : Answer c) (cell : Cell Journal) (device : Device) :
    Plant :=
  { s with
    cell := cell
    device := device
    steps := ⟨c, r⟩ :: s.steps
    original := s.original.or (cell.durable.map Journal.original) }

def plant : Behaviour Call Answer Plant := fun c s r s' =>
  ∃ cell device, journalActs c s.cell r cell ∧ deviceActs c s.device r device ∧
    s' = s.after c r cell device

end Plant

section Discipline

def writes : List UInt8 → Bool
  | 0x3e :: _ :: _ :: _ :: _ => true
  | _ => false

def commits : List UInt8 → Bool
  | 0x60 :: _ => true
  | _ => false

def enterPacket : List UInt8 := [0, 0x90, 0]

def exitOwed : List Step → Bool
  | [] => false
  | ⟨.transmit packet, _⟩ :: older => decide (packet = enterPacket) || exitOwed older
  | ⟨.enters .exitConfig, _⟩ :: _ => false
  | _ :: older => exitOwed older

def JournalReadBack (j : Journal) (steps : List Step) : Prop :=
  [(⟨.nvsGet .nominal, .ok j⟩ : Step), ⟨.nvsOpen .gaugecal false, .ok⟩, ⟨.nvsCommit .nominal, true⟩,
    ⟨.nvsSet .nominal j, true⟩] <:+: steps

def Journal.values (j : Journal) : Field → List UInt16
  | .design => [j.originalDesign, j.targetDesign]
  | .initialFcc => [j.originalFcc, j.targetFcc]

/-- What a value may be written for: the status was read right before. -/
structure Writable (s : Plant) (older : List Step) (packet : List UInt8) : Prop where
  value : ∃ field value j, packet = fieldPacket field value ∧ s.cell.durable = some j ∧
    j.state = State.pending.byte ∧ JournalReadBack j older ∧ value ∈ j.values field
  status : ∃ b rest, older = ⟨.read 0x3a, some b⟩ :: rest ∧ writable (word b) = true

/-- The newest step, where it wrote, wrote what it might. -/
structure Orderly (s : Plant) : Prop where
  write : ∀ packet ok older, s.steps = ⟨.transmit packet, ok⟩ :: older → writes packet = true →
    Writable s older packet
  commit : ∀ packet ok older, s.steps = ⟨.transmit packet, ok⟩ :: older → commits packet = true →
    ∃ field value rest, older = ⟨.transmit (fieldPacket field value), true⟩ :: rest

/-- The data memory is covered where it was, and the first pair is kept. -/
structure Sound (s : Plant) : Prop where
  orderly : Orderly s
  held : s.heldBefore = true → ∀ j, s.cell.durable = some j → j.covers s.device.dm = true
  original : s.cell.durable.map Journal.original = s.original

end Discipline

/-- A call that touches neither the journal nor the data memory, and does not ask for
configuration update. -/
def Call.mild : Call → Prop
  | .transmit packet => writes packet = false ∧ commits packet = false ∧ packet ≠ enterPacket
  | .nvsSet .nominal _ | .nvsCommit .nominal => False
  | _ => True

section Mild

variable {s t u : Plant} {c : Call} {r : Answer c} {cell : Cell Journal} {device : Device}
  {j v : Journal}

structure Mild (s t : Plant) : Prop where
  cell : t.cell = s.cell
  dm : t.device.dm = s.device.dm
  steps : ∃ more, t.steps = more ++ s.steps
  owed : exitOwed t.steps = true → exitOwed s.steps = true

theorem Mild.refl (s : Plant) : Mild s s := ⟨rfl, rfl, ⟨[], rfl⟩, id⟩

theorem Mild.trans (h : Mild s t) (h' : Mild t u) : Mild s u := by
  obtain ⟨more, steps⟩ := h.steps
  obtain ⟨more', steps'⟩ := h'.steps
  exact ⟨h'.cell.trans h.cell, h'.dm.trans h.dm,
    ⟨more' ++ more, by rw [steps', steps, List.append_assoc]⟩, fun owed => h.owed (h'.owed owed)⟩

theorem JournalReadBack.append {steps : List Step} (h : JournalReadBack j steps)
    (more : List Step) : JournalReadBack j (more ++ steps) :=
  h.trans (List.suffix_append more steps).isInfix

private theorem takes_dm (d : Device) {packet : List UInt8} (h : commits packet = false) :
    (d.takes packet).dm = d.dm := by
  unfold Device.takes
  split
  · rfl
  · rfl
  · cases h
  · rfl

theorem after_dm {d d' : Device} {packet : List UInt8} {ok : Bool} (h : commits packet = false)
    (after : d.after packet ok d') : d'.dm = d.dm := by
  obtain rfl | rfl | ⟨-, rfl⟩ := after
  · exact takes_dm d h
  · rfl
  · rfl

theorem device_dm (h : ∀ packet, c = .transmit packet → commits packet = false)
    (acts : deviceActs c s.device r device) : device.dm = s.device.dm := by
  cases c with
  | transmit packet => exact after_dm (h packet rfl) acts
  | read reg => rw [acts.1]
  | enters f => exact acts
  | gate | nvsOpen | nvsGet | nvsSet | nvsCommit => rw [show device = s.device from acts]

theorem journal_same (h : c.mild) (acts : journalActs c s.cell r cell) : cell = s.cell := by
  cases c with
  | nvsOpen ns write =>
    cases ns with
    | gaugeacc => exact acts
    | gaugecal => exact acts.1
  | nvsGet k =>
    cases k with
    | nominal => exact acts.1
    | access | normalTarget => exact acts
  | nvsSet k v =>
    cases k with
    | nominal => exact h.elim
    | access | normalTarget => exact acts
  | nvsCommit k =>
    cases k with
    | nominal => exact h.elim
    | access | normalTarget => exact acts
  | gate | enters | read | transmit => exact acts

theorem orderly_of_not (h : ∀ packet, c = .transmit packet → writes packet = false ∧ commits packet = false) :
    Orderly (s.after c r cell device) := by
  constructor
  · intro packet ok older steps write
    have head := congrArg Sigma.fst (List.cons.inj steps).1
    rw [(h packet head).1] at write
    cases write
  · intro packet ok older steps commit
    have head := congrArg Sigma.fst (List.cons.inj steps).1
    rw [(h packet head).2] at commit
    cases commit

theorem owed_mild (h : c.mild) : exitOwed (s.after c r cell device).steps = true →
    exitOwed s.steps = true := by
  intro owed
  cases c with
  | transmit packet =>
    have other : decide (packet = enterPacket) = false := decide_eq_false h.2.2
    simpa [Plant.after, exitOwed, other] using owed
  | enters f =>
    cases f with
    | exitConfig => cases owed
    | bootDiagnostic | nearBootApply => exact owed
  | gate | read | nvsOpen | nvsGet | nvsSet | nvsCommit => exact owed

theorem Sound.original_after (sound : Sound s) (device : Device) :
    (s.after c r s.cell device).original = s.original := by
  show s.original.or (s.cell.durable.map Journal.original) = s.original
  rw [sound.original, Option.or_self]

/-- A call that neither writes nor stores. -/
theorem Sound.still (sound : Sound s)
    (silent : ∀ packet, c = .transmit packet → writes packet = false ∧ commits packet = false)
    (moves : deviceActs c s.device r device) :
    Sound (s.after c r s.cell device) ∧ device.dm = s.device.dm := by
  have dm := device_dm (fun packet sent => (silent packet sent).2) moves
  refine ⟨⟨orderly_of_not silent, fun held j found => ?_, ?_⟩, dm⟩
  · rw [show (s.after c r s.cell device).device.dm = s.device.dm from dm]
    exact sound.held held j found
  · rw [sound.original_after device, ← sound.original]
    rfl

theorem mild_step (h : c.mild) (sound : Sound s) (acts : journalActs c s.cell r cell)
    (moves : deviceActs c s.device r device) :
    Sound (s.after c r cell device) ∧ Mild s (s.after c r cell device) := by
  have silent : ∀ packet, c = .transmit packet → writes packet = false ∧ commits packet = false := by
    rintro packet rfl
    exact ⟨h.1, h.2.1⟩
  obtain rfl := journal_same h acts
  obtain ⟨sound', dm⟩ := sound.still silent moves
  exact ⟨sound', rfl, dm, ⟨[_], rfl⟩, owed_mild h⟩

theorem mild_wp {α : Type} {program : Bus α} {post : α → Plant → Prop}
    (mild : program.Uses Call.mild) (sound : Sound s)
    (rest : ∀ a t, Sound t → Mild s t → post a t) : program.wp plant post Sound s := by
  have keeps : ∀ (c : Call) t r t', c.mild → plant c t r t' → (Sound t ∧ Mild s t) →
      Sound t' ∧ Mild s t' := by
    rintro c t r _ mild ⟨cell, device, acts, moves, rfl⟩ ⟨sound, same⟩
    obtain ⟨sound', same'⟩ := mild_step mild sound acts moves
    exact ⟨sound', same.trans same'⟩
  have kept := mild.wp keeps ⟨sound, Mild.refl s⟩
  exact Prog.wp_mono kept (fun a t h => rest a t h.1 h.2) fun t h => h.1

private theorem quiet_mild (c : Call) (h : c.quiet) : c.mild := by
  cases c with
  | transmit packet =>
    have all : ∀ packet ∈ controlPackets,
        writes packet = false ∧ commits packet = false ∧ packet ≠ enterPacket := by decide
    exact all packet h
  | nvsSet | nvsCommit => exact h.elim
  | gate | enters | read | nvsOpen | nvsGet => trivial

theorem mild_of_quiet {α : Type} {program : Bus α} (h : program.Uses Call.quiet) :
    program.Uses Call.mild := h.mono quiet_mild

end Mild

section Reading

variable {s t : Plant} {j v : Journal} {mac : Bytes 6} {field : Field} {value : UInt16}

theorem macPayload_quiet (n : Nat) (reg : UInt8) : (macPayload n reg).Uses Call.quiet := by
  induction n generalizing reg with
  | zero => trivial
  | succ n ih =>
    apply Prog.Uses.bind (gaugeRead_quiet reg)
    intro bytes
    split
    · apply Prog.Uses.bind (ih _)
      intro rest
      split <;> trivial
    · trivial

theorem select_mild (field : Field) : (Call.transmit (selectPacket field)).mild := by
  have packets : writes (selectPacket field) = false ∧ commits (selectPacket field) = false ∧
      selectPacket field ≠ enterPacket := by
    cases field <;> decide
  exact packets

theorem fieldAt_address (field : Field) : fieldAt (low field.address) (high field.address) = some field := by
  cases field <;> decide

theorem gaugeMacWord_mild (field : Field) : (gaugeMacWord field).Uses Call.mild := by
  apply Prog.Uses.bind ((Prog.uses_perform _ _).mpr (select_mild field))
  intro sent
  split
  · trivial
  apply Prog.Uses.bind (mild_of_quiet (gaugeRead_quiet _))
  intro echo
  split
  · apply Prog.Uses.bind (mild_of_quiet (gaugeRead_quiet _))
    intro value
    split
    · apply Prog.Uses.bind (mild_of_quiet (macPayload_quiet _ _))
      intro rest
      split
      · split_ifs <;> trivial
      · trivial
    · trivial
  · trivial

/-- What is read of the data memory is there. -/
theorem gaugeMacWord_wp {post : Option UInt16 → Plant → Prop} (sound : Sound s)
    (rest : ∀ r t, Sound t → Mild s t → (∀ v, r = some v → v = s.device.dm.value field) → post r t) :
    (gaugeMacWord field).wp plant post Sound s := by
  apply (Prog.wp_perform_bind ..).mpr
  rintro sent _ ⟨cell, device, acts, moves, rfl⟩
  obtain ⟨sound, mild⟩ := mild_step (select_mild field) sound acts moves
  refine ⟨sound, ?_⟩
  cases sent with
  | false => exact rest none _ sound mild nofun
  | true =>
    have selected : device.selected = some field := by
      obtain rfl | rfl | ⟨failed, -⟩ := moves
      · exact fieldAt_address field
      · exact fieldAt_address field
      · cases failed
    have dm : device.dm = s.device.dm := mild.dm
    rw [Bool.not_true, if_neg Bool.false_ne_true]
    apply (Prog.wp_perform_bind ..).mpr
    rintro echo _ ⟨cell, device', acts, moves, rfl⟩
    obtain ⟨sound, mild'⟩ := mild_step (c := .read 0x3e) trivial sound acts moves
    have mild := mild.trans mild'
    obtain ⟨rfl, -⟩ := moves
    refine ⟨sound, ?_⟩
    cases echo with
    | none => exact rest none _ sound mild nofun
    | some echo =>
      apply (Prog.wp_perform_bind ..).mpr
      rintro value _ ⟨cell, device', acts, moves, rfl⟩
      obtain ⟨sound, mild'⟩ := mild_step (c := .read 0x40) trivial sound acts moves
      have mild := mild.trans mild'
      obtain ⟨rfl, truth⟩ := moves
      refine ⟨sound, ?_⟩
      cases value with
      | none => exact rest none _ sound mild nofun
      | some value =>
        have shown := truth value field rfl selected rfl
        rw [Prog.wp_bind_iff]
        apply mild_wp (mild_of_quiet (macPayload_quiet 16 0x42)) sound
        intro payload t sound mild'
        have mild := mild.trans mild'
        cases payload with
        | none => exact rest none _ sound mild nofun
        | some payload =>
          dsimp only
          split_ifs
          · apply rest _ _ sound mild
            intro v same
            cases same
            rw [← dm]
            exact shown
          · exact rest none _ sound mild nofun

theorem gaugePair_wp {post : Option GaugePair → Plant → Prop} (sound : Sound s)
    (rest : ∀ r t, Sound t → Mild s t → (∀ pair, r = some pair → pair = s.device.dm) → post r t) :
    gaugePair.wp plant post Sound s := by
  unfold gaugePair
  rw [Prog.wp_bind_iff]
  apply gaugeMacWord_wp sound
  intro design t sound mild truth
  rw [Prog.wp_bind_iff]
  apply gaugeMacWord_wp sound
  intro fcc u sound mild' truth'
  split
  · rename_i d f
    apply rest _ _ sound (mild.trans mild')
    intro pair same
    cases same
    rw [truth d rfl, truth' f rfl, mild.dm]
    rfl
  · exact rest _ _ sound (mild.trans mild') nofun

end Reading

section Storing

variable {s t : Plant} {j v : Journal} {c : Call} {r : Answer c} {cell : Cell Journal}
  {device : Device} {mac : Bytes 6}

/-- What a journal must show to take the place of the present one. -/
structure Storable (s : Plant) (j : Journal) : Prop where
  held : s.heldBefore = true → j.covers s.device.dm = true
  original : ∀ pair, s.original = some pair → j.original = pair

theorem Sound.store (sound : Sound s) (storable : Storable s v)
    (stores : ∀ packet, c ≠ .transmit packet) (moves : deviceActs c s.device r device)
    (moved : cell.durable = s.cell.durable ∨ cell.durable = some v) :
    Sound (s.after c r cell device) := by
  have dm : device.dm = s.device.dm :=
    device_dm (fun packet sent => absurd sent (stores packet)) moves
  refine ⟨orderly_of_not fun packet sent => absurd sent (stores packet), fun held j found => ?_, ?_⟩
  · rw [show (s.after c r cell device).device.dm = s.device.dm from dm]
    cases moved with
    | inl same =>
      apply sound.held held
      rw [← same]
      exact found
    | inr new =>
      obtain rfl := Option.some.inj (new.symm.trans found)
      exact storable.held held
  · show cell.durable.map Journal.original = s.original.or (cell.durable.map Journal.original)
    cases moved with
    | inl same => rw [same, sound.original, Option.or_self]
    | inr new =>
      rw [new]
      cases known : s.original with
      | none => rfl
      | some pair => exact congrArg some (storable.original pair known)

theorem Storable.after (h : Storable s v) (sound : Sound s) (dm : device.dm = s.device.dm)
    (moved : cell.durable = s.cell.durable ∨ cell.durable = some v) :
    Storable (s.after c r cell device) v := by
  refine ⟨fun held => ?_, fun pair known => ?_⟩
  · rw [show (s.after c r cell device).device.dm = s.device.dm from dm]
    exact h.held held
  have known : s.original.or (cell.durable.map Journal.original) = some pair := known
  cases first : s.original with
  | some old =>
    rw [first] at known
    exact h.original pair (first.trans known)
  | none =>
    rw [first, Option.none_or] at known
    cases moved with
    | inl same =>
      rw [same, sound.original, first] at known
      cases known
    | inr new =>
      rw [new] at known
      exact Option.some.inj known

/-- From `s` to `t` the journal was stored, or was to be. -/
structure Journalled (s : Plant) (j : Journal) (ok : Bool) (t : Plant) : Prop where
  durable : t.cell.durable = s.cell.durable ∨ t.cell.durable = some j
  done : ok = true → t.cell.durable = some j ∧ JournalReadBack j t.steps
  dm : t.device.dm = s.device.dm
  owed : exitOwed t.steps = true → exitOwed s.steps = true

theorem Journalled.refl (s : Plant) (j : Journal) : Journalled s j false s :=
  ⟨Or.inl rfl, nofun, rfl, id⟩

theorem Journalled.after {ok : Bool} (h : Journalled s j false t)
    (owed : exitOwed (t.after c r cell device).steps = true → exitOwed t.steps = true)
    (dm : device.dm = t.device.dm)
    (moved : cell.durable = t.cell.durable ∨ cell.durable = some j)
    (done : ok = true → cell.durable = some j ∧ JournalReadBack j (⟨c, r⟩ :: t.steps)) :
    Journalled s j ok (t.after c r cell device) := by
  refine ⟨?_, done, dm.trans h.dm, fun owes => h.owed (owed owes)⟩
  cases moved with
  | inl kept =>
    rw [show (t.after c r cell device).cell.durable = cell.durable from rfl, kept]
    exact h.durable
  | inr new => exact Or.inr new

theorem journalStore_wp {post : Bool → Plant → Prop} (sound : Sound s)
    (storable : Storable s j.seal)
    (rest : ∀ ok t, Sound t → Journalled s j.seal ok t → post ok t) :
    (gaugeStoreJournal mac j).wp plant post Sound s := by
  unfold gaugeStoreJournal store
  split
  · exact rest false s sound (Journalled.refl s _)
  rename_i refused
  have fits : validJournal j.seal mac = true := by simpa using refused
  apply (Prog.wp_perform_bind ..).mpr
  rintro opened _ ⟨cell, device, acts, moves, rfl⟩
  have sound1 := (mild_step (c := .nvsOpen .gaugecal true) trivial sound acts moves).1
  obtain ⟨rfl, -⟩ := acts
  obtain rfl : device = s.device := moves
  have stored1 : Journalled s j.seal false
      (s.after (.nvsOpen .gaugecal true) opened s.cell s.device) :=
    (Journalled.refl s _).after id rfl (Or.inl rfl) nofun
  have storable1 := storable.after (c := .nvsOpen .gaugecal true) (r := opened)
    sound rfl (Or.inl rfl)
  refine ⟨sound1, ?_⟩
  split
  · exact rest false _ sound1 stored1
  apply (Prog.wp_perform_bind ..).mpr
  rintro put _ ⟨cell2, device, acts, moves, rfl⟩
  obtain rfl : device = s.device := moves
  have sound2 := sound1.store (c := .nvsSet .nominal j.seal) (r := put) storable1 nofun rfl acts.2
  have stored2 : Journalled s j.seal false (Plant.after _ (.nvsSet .nominal j.seal) put cell2 s.device) :=
    stored1.after id rfl acts.2 nofun
  have storable2 := storable1.after (c := .nvsSet .nominal j.seal) (r := put)
    sound1 rfl acts.2
  refine ⟨sound2, ?_⟩
  split
  · exact rest false _ sound2 stored2
  rename_i notFailed
  have done : put = true := by simpa using notFailed
  subst done
  apply (Prog.wp_perform_bind ..).mpr
  rintro committed _ ⟨cell3, device, acts', moves, rfl⟩
  obtain rfl : device = s.device := moves
  have moved : cell3.durable = cell2.durable ∨ cell3.durable = some j.seal :=
    acts'.2.1.imp_right fun taken => taken.trans acts.1
  have sound3 := sound2.store (c := .nvsCommit .nominal) (r := committed) storable2 nofun rfl moved
  have stored3 : Journalled s j.seal false (Plant.after _ (.nvsCommit .nominal) committed cell3 s.device) :=
    stored2.after id rfl moved nofun
  refine ⟨sound3, ?_⟩
  split
  · exact rest false _ sound3 stored3
  rename_i notFailed
  have done : committed = true := by simpa using notFailed
  subst done
  have durable := acts'.2.2 rfl _ acts.1
  unfold load
  rw [Prog.wp_bind_iff]
  apply (Prog.wp_perform_bind ..).mpr
  rintro reopened _ ⟨cell4, device, acts4, moves, rfl⟩
  have sound4 := (mild_step (c := .nvsOpen .gaugecal false) trivial sound3 acts4 moves).1
  obtain ⟨rfl, -⟩ := acts4
  obtain rfl : device = s.device := moves
  have stored4 : Journalled s j.seal false
      (Plant.after _ (.nvsOpen .gaugecal false) reopened cell4 s.device) :=
    stored3.after id rfl (Or.inl rfl) nofun
  refine ⟨sound4, ?_⟩
  split
  · apply (Prog.wp_perform_bind ..).mpr
    rintro found _ ⟨cell5, device, acts5, moves, rfl⟩
    have sound5 := (mild_step (c := .nvsGet .nominal) trivial sound4 acts5 moves).1
    obtain ⟨rfl, truth, -⟩ := acts5
    obtain rfl : device = s.device := moves
    refine ⟨sound5, ?_⟩
    cases found with
    | error e => exact rest false _ sound5 (stored4.after id rfl (Or.inl rfl) nofun)
    | ok v =>
      obtain rfl := Option.some.inj ((truth v rfl).symm.trans durable)
      have stored5 (ok : Bool) :
          Journalled s j.seal ok (Plant.after _ (.nvsGet .nominal) (.ok j.seal) _ s.device) :=
        stored4.after id rfl (Or.inl rfl) fun _ =>
          ⟨durable, [], ⟨.nvsOpen .gaugecal true, opened⟩ :: s.steps, rfl⟩
      dsimp only
      rw [if_pos fits]
      exact rest _ _ sound5 (stored5 _)
  · exact rest false _ sound4 stored4

end Storing

section Writing

variable {s t : Plant} {j d : Journal} {mac : Bytes 6} {field : Field} {value : UInt16}

/-- Two journals with the same old and new values. -/
structure Journal.Same (d j : Journal) : Prop where
  originalDesign : d.originalDesign = j.originalDesign
  originalFcc : d.originalFcc = j.originalFcc
  targetDesign : d.targetDesign = j.targetDesign
  targetFcc : d.targetFcc = j.targetFcc
  changedFcc : d.changedFcc = j.changedFcc

theorem Journal.Same.covers (h : d.Same j) (dm : GaugePair) : d.covers dm = j.covers dm := by
  simp only [Journal.covers, restorePairAllowed, h.originalDesign, h.originalFcc, h.targetDesign,
    h.targetFcc, h.changedFcc]

theorem Journal.Same.original (h : d.Same j) : d.original = j.original := by
  rw [Journal.original, Journal.original, h.originalDesign, h.originalFcc]

theorem allowed_mem (target : j.targetDesign = nominalMah) (allowed : allowedValue j field value = true) :
    value ∈ j.values field := by
  cases field with
  | design =>
    have either : value = nominalMah ∨ value = j.originalDesign := by
      simpa [allowedValue] using allowed
    rw [Journal.values, target]
    simp only [List.mem_cons, List.not_mem_nil, or_false]
    exact either.symm
  | initialFcc =>
    have either : value = j.targetFcc ∨ value = j.originalFcc := by
      simp only [allowedValue, Bool.and_eq_true, Bool.or_eq_true, beq_iff_eq] at allowed
      exact allowed.2
    simp only [Journal.values, List.mem_cons, List.not_mem_nil, or_false]
    exact either.symm

/-- A value that may be written keeps the data memory covered. -/
theorem covers_set (target : j.targetDesign = nominalMah)
    (allowed : allowedValue j field value = true) {dm : GaugePair} (covered : j.covers dm = true) :
    j.covers (dm.set field value) = true := by
  simp only [Journal.covers, restorePairAllowed, Bool.and_eq_true] at covered ⊢
  cases field with
  | design =>
    refine ⟨?_, covered.2⟩
    have either : value = nominalMah ∨ value = j.originalDesign := by
      simpa [allowedValue] using allowed
    rw [target]
    simp only [GaugePair.set, Bool.or_eq_true, beq_iff_eq]
    exact either.symm
  | initialFcc =>
    refine ⟨covered.1, ?_⟩
    simp only [allowedValue, Bool.and_eq_true, Bool.or_eq_true, beq_iff_eq] at allowed
    rw [if_pos allowed.1]
    simp only [GaugePair.set, Bool.or_eq_true, beq_iff_eq]
    exact allowed.2.symm

/-- The pending journal is stored and was read back in this call. -/
structure Holding (s : Plant) (j : Journal) : Prop where
  sound : Sound s
  target : j.targetDesign = nominalMah
  pending : ∃ d, s.cell.durable = some d ∧ d.Same j ∧ d.state = State.pending.byte ∧
    JournalReadBack d s.steps

theorem Holding.mild (h : Holding s j) (sound : Sound t) (mild : Mild s t) : Holding t j := by
  obtain ⟨d, durable, same, state, read⟩ := h.pending
  obtain ⟨more, steps⟩ := mild.steps
  refine ⟨sound, h.target, d, by rw [mild.cell, durable], same, state, ?_⟩
  rw [steps]
  exact read.append more

theorem bigEndian_bytes (value : UInt16) : bigEndian (high value, low value) = value := by
  apply UInt16.toNat_inj.mp
  have bound : value.toNat < 2 ^ 16 := value.toNat_lt
  have shift : UInt16.toNat 8 % 16 = 8 := rfl
  have small : value.toNat / 2 ^ 8 < 2 ^ 8 := by omega
  have whole : value.toNat / 2 ^ 8 * 2 ^ 8 < 2 ^ 16 := by omega
  have joined := Nat.shiftLeft_add_eq_or_of_lt (Nat.mod_lt value.toNat (show 0 < 2 ^ 8 by decide))
    (value.toNat / 2 ^ 8)
  simp only [bigEndian, high, low, UInt16.toNat_or, UInt16.toNat_shiftLeft, UInt8.toNat_toUInt16,
    UInt16.toNat_toUInt8, UInt16.toNat_shiftRight, shift, Nat.shiftRight_eq_div_pow,
    Nat.mod_eq_of_lt small]
  rw [Nat.shiftLeft_eq] at joined ⊢
  rw [Nat.mod_eq_of_lt whole, ← joined, Nat.div_add_mod']

private theorem fieldPacket_shape (field : Field) (value : UInt16) :
    writes (fieldPacket field value) = true ∧ commits (fieldPacket field value) = false ∧
      fieldPacket field value ≠ enterPacket := by
  refine ⟨rfl, rfl, fun same => ?_⟩
  have lengths := congrArg List.length same
  cases lengths

/-- The value is sent where the status was read right before. -/
theorem field_step (h : Holding s j) (allowed : allowedValue j field value = true)
    {b : UInt8 × UInt8} {older : List Step} (steps : s.steps = ⟨.read 0x3a, some b⟩ :: older)
    (status : writable (word b) = true) {ok : Bool} {cell : Cell Journal} {device : Device}
    (acts : journalActs (.transmit (fieldPacket field value)) s.cell ok cell)
    (moves : deviceActs (.transmit (fieldPacket field value)) s.device ok device) :
    Holding (s.after (.transmit (fieldPacket field value)) ok cell device) j ∧
      device.dm = s.device.dm ∧ (ok = true → device.buffer = some (field, value)) := by
  obtain ⟨shape, silent, other⟩ := fieldPacket_shape field value
  obtain ⟨d, durable, same, state, read⟩ := h.pending
  obtain rfl : cell = s.cell := acts
  have dm : device.dm = s.device.dm := after_dm silent moves
  have original := h.sound.original_after (c := .transmit (fieldPacket field value)) (r := ok)
    device
  refine ⟨⟨⟨⟨?_, ?_⟩, ?_, ?_⟩, h.target, d, durable, same, state, read.append [_]⟩, dm, ?_⟩
  · intro packet ok' older' head _
    obtain ⟨head, tail⟩ := List.cons.inj head
    cases head
    refine ⟨⟨field, value, d, rfl, durable, state, by rw [← tail]; exact read, ?_⟩, ?_⟩
    · have listed := allowed_mem h.target allowed
      cases field with
      | design => rw [Journal.values, same.originalDesign, same.targetDesign]; exact listed
      | initialFcc => rw [Journal.values, same.originalFcc, same.targetFcc]; exact listed
    · exact ⟨b, older, by rw [← tail, steps], status⟩
  · intro packet ok' older' head committed
    have packets := Call.transmit.inj (congrArg Sigma.fst (List.cons.inj head).1)
    rw [← packets, silent] at committed
    cases committed
  · intro held j' found
    rw [show (s.after (.transmit (fieldPacket field value)) ok s.cell device).device.dm = s.device.dm from dm]
    exact h.sound.held held j' found
  · rw [original, ← h.sound.original]
    rfl
  · intro done
    have buffered : (s.device.takes (fieldPacket field value)).buffer = some (field, value) := by
      show (fieldAt (low field.address) (high field.address)).map _ = _
      rw [fieldAt_address, Option.map_some, bigEndian_bytes]
    obtain rfl | rfl | ⟨failed, -⟩ := moves
    · exact buffered
    · exact buffered
    · rw [done] at failed
      cases failed

/-- The commit writes the value that was sent before it, or nothing. -/
theorem commit_step (h : Holding s j) (allowed : allowedValue j field value = true)
    {older : List Step} (steps : s.steps = ⟨.transmit (fieldPacket field value), true⟩ :: older)
    (buffer : s.device.buffer = some (field, value)) {ok : Bool} {cell : Cell Journal}
    {device : Device} (acts : journalActs (.transmit (commitPacket field value)) s.cell ok cell)
    (moves : deviceActs (.transmit (commitPacket field value)) s.device ok device) :
    Holding (s.after (.transmit (commitPacket field value)) ok cell device) j := by
  obtain ⟨d, durable, same, state, read⟩ := h.pending
  obtain rfl : cell = s.cell := acts
  have dm : device.dm = s.device.dm ∨ device.dm = s.device.dm.set field value := by
    have taken : (s.device.takes (commitPacket field value)).dm = s.device.dm.set field value := by
      show s.device.buffer.elim s.device.dm (fun w => s.device.dm.set w.1 w.2) = _
      rw [buffer]
      rfl
    obtain rfl | rfl | ⟨-, rfl⟩ := moves
    · exact Or.inr taken
    · exact Or.inl rfl
    · exact Or.inl rfl
  have original := h.sound.original_after (c := .transmit (commitPacket field value)) (r := ok)
    device
  refine ⟨⟨⟨?_, ?_⟩, ?_, ?_⟩, h.target, d, durable, same, state, read.append [_]⟩
  · intro packet ok' older' head wrote
    have packets := Call.transmit.inj (congrArg Sigma.fst (List.cons.inj head).1)
    rw [← packets] at wrote
    cases wrote
  · intro packet ok' older' head _
    exact ⟨field, value, older, by rw [← (List.cons.inj head).2, steps]⟩
  · intro held j' found
    obtain rfl := Option.some.inj (durable.symm.trans found)
    have covered := h.sound.held held d durable
    show d.covers device.dm = true
    rw [same.covers] at covered ⊢
    cases dm with
    | inl kept => rw [kept]; exact covered
    | inr wrote => rw [wrote]; exact covers_set h.target allowed covered
  · rw [original, ← h.sound.original]
    rfl

private theorem readBackWord_mild (n : Nat) : (readBackWord field value n).Uses Call.mild := by
  induction n with
  | zero => trivial
  | succ n ih =>
    apply Prog.Uses.bind (gaugeMacWord_mild field)
    intro shown
    split
    · exact ih
    · trivial

theorem gaugeWriteField_wp {post : Bool → Plant → Prop} (h : Holding s j)
    (rest : ∀ ok t, Holding t j → post ok t) :
    (gaugeWriteField j field value).wp plant post Sound s := by
  unfold gaugeWriteField
  split
  · exact rest false s h
  rename_i refused
  have allowed : allowedValue j field value = true := by simpa using refused
  rw [Prog.wp_bind_iff]
  apply (Prog.wp_perform_bind ..).mpr
  rintro status _ ⟨cell, device, acts, moves, rfl⟩
  obtain ⟨sound1, mild1⟩ := mild_step (c := .read 0x3a) trivial h.sound acts moves
  have holding1 := h.mild sound1 mild1
  refine ⟨sound1, ?_⟩
  cases status with
  | none => exact rest false _ holding1
  | some b =>
    cases full : writable (word b) with
    | false =>
      show Prog.wp plant (if (!writable (word b)) = true then pure false else _) post Sound _
      rw [full]
      exact rest false _ holding1
    | true =>
      show Prog.wp plant (if (!writable (word b)) = true then pure false else _) post Sound _
      rw [full]
      apply (Prog.wp_perform_bind ..).mpr
      rintro sent _ ⟨cell2, device2, acts, moves, rfl⟩
      obtain ⟨holding2, -, buffered⟩ := field_step holding1 allowed rfl full acts moves
      refine ⟨holding2.sound, ?_⟩
      cases sent with
      | false => exact rest false _ holding2
      | true =>
        rw [Bool.not_true, if_neg Bool.false_ne_true]
        apply (Prog.wp_perform_bind ..).mpr
        rintro committed _ ⟨cell3, device3, acts, moves, rfl⟩
        have holding3 := commit_step holding2 allowed rfl (buffered rfl) acts moves
        refine ⟨holding3.sound, ?_⟩
        split
        · exact rest false _ holding3
        · apply mild_wp (readBackWord_mild 2) holding3.sound
          intro ok t sound mild
          exact rest ok t (holding3.mild sound mild)

end Writing

end Mosaico.Gauge.Hal
