import Mosaico.Gauge.HalCalls

/-! What the calls of an access to the gauge may do to its record: the calls that only read, the
packets of the words, and the store. -/
namespace Mosaico.Gauge.Hal

open ByteFields Interaction DurableCell

def unsealPackets : List (List UInt8) :=
  [AccessWord.unsealFirst.lowPacket, AccessWord.unsealFirst.highPacket,
    AccessWord.unsealSecond.lowPacket, AccessWord.unsealSecond.highPacket]

def fullPackets : List (List UInt8) := [AccessWord.full.lowPacket, AccessWord.full.highPacket]

def sealPackets : List (List UInt8) := [AccessWord.seal.lowPacket, AccessWord.seal.highPacket]

def Call.sends (packets : List (List UInt8)) : Call → Bool
  | .transmit packet => decide (packet ∈ packets)
  | _ => false

/-- The record, the steps of the present call with the newest first, what the call began with, and
whether a key word may have been sent that no durable record calls verified. -/
structure Ledger where
  cell : Cell AccessJournal := {}
  steps : List Step := []
  began : Option AccessJournal := none
  owedBefore : Bool := false
  unsealOwed : Bool := false
  fullOwed : Bool := false

def cellActs : (c : Call) → Cell AccessJournal → Answer c → Cell AccessJournal → Prop
  | .nvsOpen .gaugeacc _, cell, r, cell' => Opened cell r cell'
  | .nvsGet .access, cell, r, cell' => Loaded cell r cell'
  | .nvsSet .access v, cell, r, cell' => Put v cell r cell'
  | .nvsCommit .access, cell, r, cell' => Committed cell r cell'
  | _, cell, _, cell' => cell' = cell

def Ledger.after (s : Ledger) (c : Call) (r : Answer c) (cell : Cell AccessJournal) : Ledger :=
  { s with
    cell := cell
    steps := ⟨c, r⟩ :: s.steps
    unsealOwed := c.sends unsealPackets ||
      (s.unsealOwed && !cell.durable.any fun j => j.unsealVerified != 0)
    fullOwed := c.sends fullPackets ||
      (s.fullOwed && !cell.durable.any fun j => j.fullVerified != 0) }

/-- The gauge answers as it likes; the storage keeps to its rules. -/
def ledger : Behaviour Call Answer Ledger := fun c s r s' =>
  ∃ cell, cellActs c s.cell r cell ∧ s' = s.after c r cell

def ReadBack (j : AccessJournal) (steps : List Step) : Prop :=
  [(⟨.nvsGet .access, .ok j⟩ : Step), ⟨.nvsOpen .gaugeacc false, .ok⟩, ⟨.nvsCommit .access, true⟩,
    ⟨.nvsSet .access j, true⟩] <:+: steps

/-- What a packet may be sent for. -/
structure Sendable (s : Ledger) (packet : List UInt8) : Prop where
  unsealing : packet ∈ unsealPackets → ∃ j, s.cell.durable = some j ∧ ReadBack j s.steps ∧
    j.unsealAttempted ≠ 0 ∧ j.unsealVerified = 0
  full : packet ∈ fullPackets → ∃ j, s.cell.durable = some j ∧ ReadBack j s.steps ∧
    j.unsealVerified ≠ 0 ∧ j.fullAttempted ≠ 0 ∧ j.fullVerified = 0
  key : packet ∈ unsealPackets ++ fullPackets → s.owedBefore = false ∧
    ∀ j, s.began = some j → j.state = AccessState.restored.byte
  sealing : packet ∈ sealPackets → (∀ ok, (⟨.transmit packet, ok⟩ : Step) ∉ s.steps) ∧
    (∃ j, s.cell.durable = some j ∧ j.priorSecurity = 3) ∧
    ∃ operation, lastStatus s.steps = some operation ∧ operation &&& 0x0401 = 0

/-- The newest step, where it sent a packet, was one that might be sent. -/
def Lawful (s : Ledger) : Prop :=
  ∀ packet ok older, s.steps = ⟨.transmit packet, ok⟩ :: older →
    Sendable { s with steps := older } packet

/-- An open attempt is on record. -/
structure Kept (s : Ledger) : Prop where
  unsealing : s.unsealOwed = true → ∃ j, s.cell.durable = some j ∧ j.unsealAttempted ≠ 0 ∧
    j.unsealVerified = 0
  full : s.fullOwed = true → ∃ j, s.cell.durable = some j ∧ j.fullAttempted ≠ 0 ∧
    j.fullVerified = 0

structure Inv (s : Ledger) : Prop where
  lawful : Lawful s
  kept : Kept s

section Steps

variable {s t u : Ledger} {c : Call} {r : Answer c} {cell : Cell AccessJournal} {v : AccessJournal}
  {j : AccessJournal}

theorem ReadBack.append {steps : List Step} (h : ReadBack j steps) (more : List Step) :
    ReadBack j (more ++ steps) :=
  h.trans (List.suffix_append more steps).isInfix

theorem lawful_of_not_transmit (h : ∀ packet, c ≠ .transmit packet) : Lawful (s.after c r cell) := by
  intro packet ok older same
  exact absurd (congrArg Sigma.fst (List.cons.inj same).1) (h packet)

/-- What a record must show to take the place of the present one. -/
structure Continues (s : Ledger) (v : AccessJournal) : Prop where
  unsealing : s.unsealOwed = true → v.unsealAttempted ≠ 0
  full : s.fullOwed = true → v.fullAttempted ≠ 0

theorem Kept.after (h : Kept s) (unsent : c.sends unsealPackets = false)
    (unsent' : c.sends fullPackets = false)
    (moved : cell.durable = s.cell.durable ∨ (cell.durable = some v ∧ Continues s v)) :
    Kept (s.after c r cell) := by
  constructor
  · intro owed
    simp only [Ledger.after, unsent, Bool.false_or, Bool.and_eq_true, Bool.not_eq_true'] at owed
    obtain ⟨owed, unverified⟩ := owed
    cases moved with
    | inl same =>
      obtain ⟨j, found, attempted⟩ := h.unsealing owed
      exact ⟨j, same.trans found, attempted⟩
    | inr new =>
      rw [new.1] at unverified
      exact ⟨v, new.1, new.2.unsealing owed, by simpa using unverified⟩
  · intro owed
    simp only [Ledger.after, unsent', Bool.false_or, Bool.and_eq_true, Bool.not_eq_true'] at owed
    obtain ⟨owed, unverified⟩ := owed
    cases moved with
    | inl same =>
      obtain ⟨j, found, attempted⟩ := h.full owed
      exact ⟨j, same.trans found, attempted⟩
    | inr new =>
      rw [new.1] at unverified
      exact ⟨v, new.1, new.2.full owed, by simpa using unverified⟩

/-- While the record stays an attempt stays open. -/
theorem Kept.owed (h : Kept s) (same : cell.durable = s.cell.durable) :
    (s.unsealOwed && !cell.durable.any fun j => j.unsealVerified != 0) = s.unsealOwed ∧
      (s.fullOwed && !cell.durable.any fun j => j.fullVerified != 0) = s.fullOwed := by
  constructor
  · cases owed : s.unsealOwed with
    | false => rfl
    | true =>
      obtain ⟨j, found, _, unverified⟩ := h.unsealing owed
      simp [same, found, unverified]
  · cases owed : s.fullOwed with
    | false => rfl
    | true =>
      obtain ⟨j, found, _, unverified⟩ := h.full owed
      simp [same, found, unverified]

/-- From `s` to `t` nothing was stored and no seal was sent. -/
structure Sent (s t : Ledger) : Prop where
  cell : t.cell = s.cell
  began : t.began = s.began
  owedBefore : t.owedBefore = s.owedBefore
  steps : ∃ more, t.steps = more ++ s.steps ∧ ∀ x ∈ more, x.1.sends sealPackets = false

/-- And no key word either. -/
structure Calm (s t : Ledger) : Prop extends Sent s t where
  unsealOwed : t.unsealOwed = s.unsealOwed
  fullOwed : t.fullOwed = s.fullOwed

theorem Sent.refl (s : Ledger) : Sent s s := ⟨rfl, rfl, rfl, [], rfl, fun _ mem => nomatch mem⟩

theorem Calm.refl (s : Ledger) : Calm s s := ⟨Sent.refl s, rfl, rfl⟩

theorem Sent.trans (h : Sent s t) (h' : Sent t u) : Sent s u := by
  obtain ⟨more, steps, unsealed⟩ := h.steps
  obtain ⟨more', steps', unsealed'⟩ := h'.steps
  refine ⟨h'.cell.trans h.cell, h'.began.trans h.began, h'.owedBefore.trans h.owedBefore,
    more' ++ more, by rw [steps', steps, List.append_assoc], fun x mem => ?_⟩
  cases List.mem_append.mp mem with
  | inl new => exact unsealed' x new
  | inr old => exact unsealed x old

theorem Calm.trans (h : Calm s t) (h' : Calm t u) : Calm s u :=
  ⟨h.toSent.trans h'.toSent, h'.unsealOwed.trans h.unsealOwed, h'.fullOwed.trans h.fullOwed⟩

theorem sent_after (same : cell = s.cell) (unsealed : c.sends sealPackets = false) :
    Sent s (s.after c r cell) := by
  refine ⟨same, rfl, rfl, [⟨c, r⟩], rfl, fun x mem => ?_⟩
  rw [List.mem_singleton.mp mem]
  exact unsealed

theorem controlPackets_apart : ∀ packet ∈ controlPackets,
    packet ∉ unsealPackets ++ fullPackets ++ sealPackets := by
  decide

private theorem quiet_sends (h : c.quiet) : c.sends unsealPackets = false ∧ c.sends fullPackets = false ∧
    c.sends sealPackets = false := by
  cases c with
  | transmit packet =>
    have apart := controlPackets_apart packet h
    simp only [List.mem_append, not_or] at apart
    exact ⟨decide_eq_false apart.1.1, decide_eq_false apart.1.2, decide_eq_false apart.2⟩
  | gate | enters | read | nvsOpen | nvsGet | nvsSet | nvsCommit => exact ⟨rfl, rfl, rfl⟩

private theorem quiet_cell (h : c.quiet) (acts : cellActs c s.cell r cell) : cell = s.cell := by
  cases c with
  | nvsOpen ns write =>
    cases ns with
    | gaugeacc => exact acts.1
    | gaugecal => exact acts
  | nvsGet k =>
    cases k with
    | access => exact acts.1
    | nominal | normalTarget => exact acts
  | gate | enters | read | transmit => exact acts
  | nvsSet | nvsCommit => exact h.elim

theorem quiet_step (h : c.quiet) (inv : Inv s) (acts : cellActs c s.cell r cell) :
    Inv (s.after c r cell) ∧ Calm s (s.after c r cell) := by
  have same := quiet_cell h acts
  have kept := @Kept.owed s cell inv.kept (by rw [same])
  obtain ⟨unsent, unsent', unsealed⟩ := quiet_sends h
  have lawful : Lawful (s.after c r cell) := by
    intro packet ok older sent
    have head := congrArg Sigma.fst (List.cons.inj sent).1
    rw [show c = .transmit packet from head] at h
    have apart := controlPackets_apart packet h
    simp only [List.mem_append, not_or] at apart
    refine ⟨fun mem => absurd mem apart.1.1, fun mem => absurd mem apart.1.2, fun mem => ?_,
      fun mem => absurd mem apart.2⟩
    cases List.mem_append.mp mem with
    | inl mem => exact absurd mem apart.1.1
    | inr mem => exact absurd mem apart.1.2
  refine ⟨⟨lawful, inv.kept.after (v := {}) unsent unsent' (Or.inl (by rw [same]))⟩,
    sent_after same unsealed, ?_, ?_⟩
  · show (c.sends unsealPackets || _) = _
    rw [unsent, Bool.false_or, kept.1]
  · show (c.sends fullPackets || _) = _
    rw [unsent', Bool.false_or, kept.2]

theorem quiet_wp {α : Type} {program : Bus α} {post : α → Ledger → Prop}
    (quiet : program.Uses Call.quiet) (inv : Inv s)
    (rest : ∀ a t, Inv t → Calm s t → post a t) : program.wp ledger post Inv s := by
  have keeps : ∀ (c : Call) t r t', c.quiet → ledger c t r t' → (Inv t ∧ Calm s t) →
      Inv t' ∧ Calm s t' := by
    rintro c t r _ quiet ⟨cell, acts, rfl⟩ ⟨inv, calm⟩
    obtain ⟨inv', calm'⟩ := quiet_step quiet inv acts
    exact ⟨inv', calm.trans calm'⟩
  have kept := quiet.wp keeps ⟨inv, Calm.refl s⟩
  exact Prog.wp_mono kept (fun a t h => rest a t h.1 h.2) fun t h => h.1

/-- A call of the storage that may change the record. -/
theorem stored_step (stores : ∀ packet, c ≠ .transmit packet) (inv : Inv s)
    (moved : cell.durable = s.cell.durable ∨ (cell.durable = some v ∧ Continues s v)) :
    Inv (s.after c r cell) := by
  have unsent (packets : List (List UInt8)) : c.sends packets = false := by
    cases c with
    | transmit packet => exact absurd rfl (stores packet)
    | gate | enters | read | nvsOpen | nvsGet | nvsSet | nvsCommit => rfl
  exact ⟨lawful_of_not_transmit stores, inv.kept.after (unsent _) (unsent _) moved⟩

end Steps

section Words

variable {s t : Ledger} {j : AccessJournal}

/-- The call began without a debt, and with a closed record if with any. -/
def Fresh (s : Ledger) : Prop :=
  s.owedBefore = false ∧ ∀ j, s.began = some j → j.state = AccessState.restored.byte

theorem Sent.fresh (h : Sent s t) (fresh : Fresh s) : Fresh t := by
  rw [Fresh, h.began, h.owedBefore]
  exact fresh

theorem Sent.readBack (h : Sent s t) (read : ReadBack j s.steps) : ReadBack j t.steps := by
  obtain ⟨more, steps, _⟩ := h.steps
  rw [steps]
  exact read.append more

def Call.word (packets : List (List UInt8)) : Call → Prop
  | .transmit packet => packet ∈ packets
  | .gate _ => True
  | _ => False

private theorem transmit_word {packets : List (List UInt8)} {packet : List UInt8} (mem : packet ∈ packets) :
    (transmit packet).Uses (Call.word packets) := (Prog.uses_perform _ _).mpr mem

private theorem accessWord_uses (packets : List (List UInt8)) (w : AccessWord)
    (first : w.lowPacket ∈ packets) (second : w.highPacket ∈ packets) :
    (gaugeAccessWord w).Uses (Call.word packets) := by
  apply Prog.Uses.bind ((Prog.uses_perform _ _).mpr trivial)
  intro allowed
  split
  · trivial
  · apply Prog.Uses.bind (transmit_word first)
    intro sent
    split
    · trivial
    · exact transmit_word second

theorem accessWords_uses (packets : List (List UInt8)) (first second : AccessWord)
    (all : ∀ w ∈ [first, second], w.lowPacket ∈ packets ∧ w.highPacket ∈ packets) :
    (accessWords first second).Uses (Call.word packets) := by
  have one := all first (by simp)
  have two := all second (by simp)
  apply Prog.Uses.bind (accessWord_uses packets first one.1 one.2)
  intro sent
  split
  · trivial
  · exact accessWord_uses packets second two.1 two.2

/-- Words that may be sent whatever was sent of them before. -/
theorem words_wp {α : Type} {program : Bus α} {packets : List (List UInt8)}
    {post : α → Ledger → Prop} (uses : program.Uses (Call.word packets)) (inv : Inv s)
    (keys : ∀ packet ∈ packets, packet ∉ sealPackets)
    (sendable : ∀ t, Inv t → Sent s t → ∀ packet ∈ packets, ∀ ok,
      Sendable t packet ∧ Kept (t.after (.transmit packet) ok t.cell))
    (rest : ∀ a t, Inv t → Sent s t → post a t) : program.wp ledger post Inv s := by
  have keeps : ∀ (c : Call) t r t', c.word packets → ledger c t r t' → (Inv t ∧ Sent s t) →
      Inv t' ∧ Sent s t' := by
    rintro c t r _ word ⟨cell, acts, rfl⟩ ⟨inv, sent⟩
    cases c with
    | gate g =>
      obtain ⟨inv', calm⟩ := quiet_step (c := .gate g) trivial inv acts
      exact ⟨inv', sent.trans calm.toSent⟩
    | transmit packet =>
      have same : cell = t.cell := acts
      obtain ⟨may, kept⟩ := sendable t inv sent packet word r
      have lawful : Lawful (t.after (.transmit packet) r cell) := by
        rintro packet' ok older steps
        obtain ⟨head, tail⟩ := List.cons.inj steps
        cases head
        rw [← tail, Ledger.after, same]
        exact ⟨may.unsealing, may.full, may.key, may.sealing⟩
      rw [same] at lawful ⊢
      exact ⟨⟨lawful, kept⟩, sent.trans (sent_after rfl (decide_eq_false (keys packet word)))⟩
    | enters | read | nvsOpen | nvsGet | nvsSet | nvsCommit => exact word.elim
  have kept := uses.wp keeps ⟨inv, Sent.refl s⟩
  exact Prog.wp_mono kept (fun a t h => rest a t h.1 h.2) fun t h => h.1

theorem unsealWords_wp {post : Bool → Ledger → Prop} (inv : Inv s) (fresh : Fresh s)
    (durable : s.cell.durable = some j) (read : ReadBack j s.steps) (attempted : j.unsealAttempted ≠ 0)
    (unverified : j.unsealVerified = 0) (rest : ∀ a t, Inv t → Sent s t → post a t) :
    (accessWords .unsealFirst .unsealSecond).wp ledger post Inv s := by
  apply words_wp (accessWords_uses unsealPackets _ _ (by decide)) inv (by decide) _ rest
  intro t inv sent packet mem ok
  have durable : t.cell.durable = some j := by rw [sent.cell, durable]
  have apart : packet ∉ fullPackets ∧ packet ∉ sealPackets := by
    revert packet
    decide
  refine ⟨⟨fun _ => ⟨j, durable, sent.readBack read, attempted, unverified⟩,
    fun full => absurd full apart.1, fun _ => sent.fresh fresh, fun closes => absurd closes apart.2⟩,
    fun _ => ⟨j, durable, attempted, unverified⟩, fun owed => ?_⟩
  simp only [Ledger.after, Call.sends, decide_eq_false apart.1, Bool.false_or, Bool.and_eq_true] at owed
  exact inv.kept.full owed.1

theorem fullWords_wp {post : Bool → Ledger → Prop} (inv : Inv s) (fresh : Fresh s)
    (durable : s.cell.durable = some j) (read : ReadBack j s.steps) (verified : j.unsealVerified ≠ 0)
    (attempted : j.fullAttempted ≠ 0) (unverified : j.fullVerified = 0)
    (rest : ∀ a t, Inv t → Sent s t → post a t) :
    (accessWords .full .full).wp ledger post Inv s := by
  apply words_wp (accessWords_uses fullPackets _ _ (by decide)) inv (by decide) _ rest
  intro t inv sent packet mem ok
  have durable : t.cell.durable = some j := by rw [sent.cell, durable]
  have apart : packet ∉ unsealPackets ∧ packet ∉ sealPackets := by
    revert packet
    decide
  refine ⟨⟨fun opens => absurd opens apart.1,
    fun _ => ⟨j, durable, sent.readBack read, verified, attempted, unverified⟩,
    fun _ => sent.fresh fresh, fun closes => absurd closes apart.2⟩, fun owed => ?_,
    fun _ => ⟨j, durable, attempted, unverified⟩⟩
  simp only [Ledger.after, Call.sends, decide_eq_false apart.1, Bool.false_or, Bool.and_eq_true] at owed
  exact inv.kept.unsealing owed.1

end Words

section Storing

variable {s t : Ledger} {j : AccessJournal} {mac : Bytes 6}

/-- From `s` to `t` a record was stored, or was to be. -/
structure Stored (s : Ledger) (j : AccessJournal) (ok : Bool) (t : Ledger) : Prop where
  durable : t.cell.durable = s.cell.durable ∨ t.cell.durable = some j
  done : ok = true → t.cell.durable = some j ∧ ReadBack j t.steps
  began : t.began = s.began
  owedBefore : t.owedBefore = s.owedBefore
  unsealOwed : t.unsealOwed = true → s.unsealOwed = true
  fullOwed : t.fullOwed = true → s.fullOwed = true
  steps : ∃ more, t.steps = more ++ s.steps ∧ ∀ x ∈ more, x.1.sends sealPackets = false

theorem Stored.refl (s : Ledger) (j : AccessJournal) : Stored s j false s :=
  ⟨Or.inl rfl, nofun, rfl, rfl, id, id, [], rfl, fun _ mem => nomatch mem⟩

theorem owed_of_and {sent owed verified : Bool} (unsent : sent = false)
    (h : (sent || (owed && !verified)) = true) : owed = true := by
  rw [unsent, Bool.false_or, Bool.and_eq_true] at h
  exact h.1

theorem Stored.after {c : Call} {r : Answer c} {cell : Cell AccessJournal} {ok : Bool}
    (h : Stored s j false t) (unsent : ∀ packets, c.sends packets = false)
    (moved : cell.durable = t.cell.durable ∨ cell.durable = some j)
    (done : ok = true → cell.durable = some j ∧ ReadBack j (⟨c, r⟩ :: t.steps)) :
    Stored s j ok (t.after c r cell) := by
  obtain ⟨more, steps, unsealed⟩ := h.steps
  refine ⟨?_, done, h.began, h.owedBefore, fun owed => h.unsealOwed (owed_of_and (unsent _) owed),
    fun owed => h.fullOwed (owed_of_and (unsent _) owed), ⟨c, r⟩ :: more,
    congrArg (List.cons _) steps, fun x mem => ?_⟩
  · cases moved with
    | inl kept =>
      rw [show (t.after c r cell).cell.durable = cell.durable from rfl, kept]
      exact h.durable
    | inr new => exact Or.inr new
  · cases List.mem_cons.mp mem with
    | inl same =>
      rw [same]
      exact unsent sealPackets
    | inr old => exact unsealed x old

theorem store_wp {post : Bool → Ledger → Prop} (inv : Inv s) (continues : Continues s j)
    (rest : ∀ ok t, Inv t → Stored s j.seal ok t → post ok t) :
    (gaugeStoreAccess mac j).wp ledger post Inv s := by
  have sealed : Continues s j.seal := ⟨continues.unsealing, continues.full⟩
  unfold gaugeStoreAccess store
  split
  · exact rest false s inv (Stored.refl s _)
  rename_i refused
  have fits : validAccessJournal j.seal mac = true := by simpa using refused
  apply (Prog.wp_perform_bind ..).mpr
  rintro opened _ ⟨cell, acts, rfl⟩
  have inv1 := (quiet_step (c := .nvsOpen .gaugeacc true) trivial inv acts).1
  obtain ⟨rfl, -⟩ := acts
  have stored1 : Stored s j.seal false (s.after (.nvsOpen .gaugeacc true) opened s.cell) :=
    (Stored.refl s _).after (fun _ => rfl) (Or.inl rfl) nofun
  refine ⟨inv1, ?_⟩
  split
  · exact rest false _ inv1 stored1
  apply (Prog.wp_perform_bind ..).mpr
  rintro put _ ⟨cell2, acts, rfl⟩
  have stored2 : Stored s j.seal false (Ledger.after _ (.nvsSet .access j.seal) put cell2) :=
    stored1.after (fun _ => rfl) acts.2 nofun
  have sealed1 : Continues (s.after (.nvsOpen .gaugeacc true) opened s.cell) j.seal :=
    ⟨fun owed => sealed.unsealing (stored1.unsealOwed owed), fun owed => sealed.full (stored1.fullOwed owed)⟩
  have inv2 := stored_step (c := .nvsSet .access j.seal) (r := put) nofun inv1
    (acts.2.imp_right fun new => ⟨new, sealed1⟩)
  refine ⟨inv2, ?_⟩
  split
  · exact rest false _ inv2 stored2
  rename_i notFailed
  have done : put = true := by simpa using notFailed
  subst done
  apply (Prog.wp_perform_bind ..).mpr
  rintro committed _ ⟨cell3, acts', rfl⟩
  have moved : cell3.durable = cell2.durable ∨ cell3.durable = some j.seal :=
    acts'.2.1.imp_right fun taken => taken.trans acts.1
  have stored3 : Stored s j.seal false (Ledger.after _ (.nvsCommit .access) committed cell3) :=
    stored2.after (fun _ => rfl) moved nofun
  have sealed2 : Continues (Ledger.after _ (.nvsSet .access j.seal) true cell2) j.seal :=
    ⟨fun owed => sealed.unsealing (stored2.unsealOwed owed), fun owed => sealed.full (stored2.fullOwed owed)⟩
  have inv3 := stored_step (c := .nvsCommit .access) (r := committed) nofun inv2
    (moved.imp_right fun new => ⟨new, sealed2⟩)
  refine ⟨inv3, ?_⟩
  split
  · exact rest false _ inv3 stored3
  rename_i notFailed
  have done : committed = true := by simpa using notFailed
  subst done
  have durable := acts'.2.2 rfl _ acts.1
  unfold load
  rw [Prog.wp_bind_iff]
  apply (Prog.wp_perform_bind ..).mpr
  rintro reopened _ ⟨cell4, acts4, rfl⟩
  have inv4 := (quiet_step (c := .nvsOpen .gaugeacc false) trivial inv3 acts4).1
  obtain ⟨rfl, -⟩ := acts4
  have stored4 : Stored s j.seal false (Ledger.after _ (.nvsOpen .gaugeacc false) reopened cell4) :=
    stored3.after (fun _ => rfl) (Or.inl rfl) nofun
  refine ⟨inv4, ?_⟩
  split
  · apply (Prog.wp_perform_bind ..).mpr
    rintro found _ ⟨cell5, acts5, rfl⟩
    have inv5 := (quiet_step (c := .nvsGet .access) trivial inv4 acts5).1
    obtain ⟨rfl, truth, -⟩ := acts5
    refine ⟨inv5, ?_⟩
    cases found with
    | error e =>
      exact rest false _ inv5 (stored4.after (c := .nvsGet .access) (fun _ => rfl) (Or.inl rfl) nofun)
    | ok v =>
      obtain rfl := Option.some.inj ((truth v rfl).symm.trans durable)
      have stored5 (ok : Bool) : Stored s j.seal ok (Ledger.after _ (.nvsGet .access) (.ok j.seal) _) :=
        stored4.after (fun _ => rfl) (Or.inl rfl) fun _ =>
          ⟨durable, [], ⟨.nvsOpen .gaugeacc true, opened⟩ :: s.steps, rfl⟩
      dsimp only
      rw [if_pos fits]
      exact rest _ _ inv5 (stored5 _)
  · exact rest false _ inv4 stored4

end Storing

end Mosaico.Gauge.Hal
