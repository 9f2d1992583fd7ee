import Mosaico.Gauge.HalAccessSteps

/-! The durable access record over any number of calls and boots: no key word leaves without its
attempt on record, none is sent again while an attempt is open, and a seal closes only what was
found sealed. -/
namespace Mosaico.Gauge.Hal

open ByteFields Interaction DurableCell

section Closing

variable {s t : Ledger} {j : AccessJournal} {mac : Bytes 6}

/-- The record shows where `j` comes from, nothing of the call was sealed yet, and `j` may be
stored. -/
structure Ready (s : Ledger) (j : AccessJournal) : Prop where
  inv : Inv s
  unsealed : ∀ x ∈ s.steps, x.1.sends sealPackets = false
  recorded : ∃ d, s.cell.durable = some d ∧ d.priorSecurity = j.priorSecurity
  continues : Continues s j

theorem Continues.calm (h : Continues s j) (calm : Calm s t) : Continues t j := by
  refine ⟨fun owed => h.unsealing ?_, fun owed => h.full ?_⟩
  · rw [← calm.unsealOwed, owed]
  · rw [← calm.fullOwed, owed]

theorem Ready.calm (h : Ready s j) (inv : Inv t) (calm : Calm s t) : Ready t j := by
  obtain ⟨more, steps, unsealed⟩ := calm.steps
  refine ⟨inv, fun x mem => ?_, by rw [calm.cell]; exact h.recorded, h.continues.calm calm⟩
  rw [steps] at mem
  cases List.mem_append.mp mem with
  | inl new => exact unsealed x new
  | inr old => exact h.unsealed x old

theorem ready_quiet {α : Type} {program : Bus α} {post : α → Ledger → Prop}
    (quiet : program.Uses Call.quiet) (h : Ready s j) (rest : ∀ a t, Ready t j → post a t) :
    program.wp ledger post Inv s :=
  quiet_wp quiet h.inv fun a t inv calm => rest a t (h.calm inv calm)

theorem status_wp {post : Option UInt16 → Ledger → Prop} (h : Ready s j)
    (rest : ∀ b t, Ready t j → lastStatus t.steps = b → post b t) :
    (gaugeWord 0x3a).wp ledger post Inv s := by
  apply (Prog.wp_perform_bind ..).mpr
  rintro b _ ⟨cell, acts, rfl⟩
  obtain ⟨inv, calm⟩ := quiet_step (c := .read 0x3a) trivial h.inv acts
  exact ⟨inv, rest _ _ (h.calm inv calm) rfl⟩

private theorem sealPackets_apart : ∀ packet ∈ sealPackets, packet ∉ unsealPackets ∧ packet ∉ fullPackets := by
  decide

theorem seal_step {packet : List UInt8} (mem : packet ∈ sealPackets) (inv : Inv s)
    (new : ∀ ok, (⟨.transmit packet, ok⟩ : Step) ∉ s.steps)
    (recorded : ∃ d, s.cell.durable = some d ∧ d.priorSecurity = 3) {operation : UInt16}
    (status : lastStatus s.steps = some operation) (closed : operation &&& 0x0401 = 0) (ok : Bool) :
    Inv (s.after (.transmit packet) ok s.cell) := by
  have apart := sealPackets_apart packet mem
  refine ⟨?_, inv.kept.after (v := {}) (decide_eq_false apart.1) (decide_eq_false apart.2) (Or.inl rfl)⟩
  rintro packet' ok' older steps
  obtain ⟨head, tail⟩ := List.cons.inj steps
  cases head
  rw [← tail]
  refine ⟨fun unseals => absurd unseals apart.1, fun opens => absurd opens apart.2, fun key => ?_,
    fun _ => ⟨new, recorded, operation, status, closed⟩⟩
  cases List.mem_append.mp key with
  | inl unseals => exact absurd unseals apart.1
  | inr opens => exact absurd opens apart.2

/-- The two packets of a seal. -/
theorem sealWord_wp {post : Bool → Ledger → Prop} (h : Ready s j) (prior : j.priorSecurity = 3)
    {operation : UInt16} (status : lastStatus s.steps = some operation)
    (closed : operation &&& 0x0401 = 0) (rest : ∀ ok t, Inv t → Continues t j → post ok t) :
    (gaugeAccessWord .seal).wp ledger post Inv s := by
  have lowSeals : AccessWord.seal.lowPacket ∈ sealPackets := by decide
  have highSeals : AccessWord.seal.highPacket ∈ sealPackets := by decide
  apply (Prog.wp_perform_bind ..).mpr
  rintro allowed _ ⟨cell, acts, rfl⟩
  obtain ⟨inv1, calm⟩ := quiet_step (c := .gate .keyWindowAllowed) trivial h.inv acts
  have ready := h.calm inv1 calm
  obtain rfl : cell = s.cell := acts
  refine ⟨inv1, ?_⟩
  split
  · exact rest false _ inv1 ready.continues
  have recorded : ∃ d, s.cell.durable = some d ∧ d.priorSecurity = 3 := by
    rw [← prior]
    exact h.recorded
  have unsent (packet : List UInt8) (mem : packet ∈ sealPackets) (ok : Bool) :
      (⟨.transmit packet, ok⟩ : Step) ∉ (s.after (.gate .keyWindowAllowed) allowed s.cell).steps := by
    intro sent
    have calls := ready.unsealed _ sent
    exact absurd mem (of_decide_eq_false calls)
  apply (Prog.wp_perform_bind ..).mpr
  rintro sent _ ⟨cell2, acts, rfl⟩
  obtain rfl : cell2 = s.cell := acts
  have inv2 := seal_step lowSeals inv1 (unsent _ lowSeals) recorded status closed sent
  have continues2 : Continues (Ledger.after _ (.transmit AccessWord.seal.lowPacket) sent s.cell) j :=
    ⟨fun owed => ready.continues.unsealing (owed_of_and rfl owed),
      fun owed => ready.continues.full (owed_of_and rfl owed)⟩
  refine ⟨inv2, ?_⟩
  split
  · exact rest false _ inv2 continues2
  rintro sent' _ ⟨cell3, acts, rfl⟩
  obtain rfl : cell3 = s.cell := acts
  have new (ok : Bool) : (⟨.transmit AccessWord.seal.highPacket, ok⟩ : Step) ∉
      (Ledger.after (s.after (.gate .keyWindowAllowed) allowed s.cell)
        (.transmit AccessWord.seal.lowPacket) sent s.cell).steps := by
    intro mem
    cases List.mem_cons.mp mem with
    | inl same =>
      have packets := Call.transmit.inj (congrArg Sigma.fst same)
      exact absurd packets (by decide)
    | inr old => exact unsent _ highSeals ok old
  have inv3 := seal_step highSeals inv2 new recorded status closed sent'
  refine ⟨inv3, rest sent' _ inv3 ⟨fun owed => ?_, fun owed => ?_⟩⟩
  · exact continues2.unsealing (owed_of_and rfl owed)
  · exact continues2.full (owed_of_and rfl owed)

theorem sealAgain_wp {post : Bool → Ledger → Prop} (h : Ready s j) (prior : j.priorSecurity = 3)
    (rest : ∀ ok t, Inv t → Continues t j → post ok t) : sealAgain.wp ledger post Inv s := by
  unfold sealAgain
  rw [Prog.wp_bind_iff]
  apply status_wp h
  intro found t ready status
  cases found with
  | none => exact rest false t ready.inv ready.continues
  | some operation =>
    dsimp only
    split
    · exact rest false t ready.inv ready.continues
    · rename_i closed
      rw [Prog.wp_bind_iff]
      apply sealWord_wp ready prior status (not_not.mp closed)
      intro sent u inv continues
      apply quiet_wp (waitSecurity_quiet 3 20) inv
      exact fun ok v inv calm => rest ok v inv (continues.calm calm)

theorem leaveConfig_quiet (operation : UInt16) : (leaveConfig operation).Uses Call.quiet := by
  unfold leaveConfig
  split
  · exact gaugeExitConfig_quiet false
  · trivial

theorem returnAccess_wp {post : Bool → Ledger → Prop} (h : Ready s j)
    (rest : ∀ ok t, Inv t → Continues t j → post ok t) :
    (gaugeReturnAccess j).wp ledger post Inv s := by
  unfold gaugeReturnAccess
  rw [Prog.wp_bind_iff]
  apply ready_quiet (gaugeWord_quiet _) h
  intro found t h
  cases found with
  | none => exact rest false t h.inv h.continues
  | some operation =>
    dsimp only
    split
    · exact rest false t h.inv h.continues
    rw [Prog.wp_bind_iff]
    apply ready_quiet (leaveConfig_quiet operation) h
    intro left t h
    split
    · exact rest false t h.inv h.continues
    rw [Prog.wp_bind_iff]
    apply ready_quiet (gaugeWord_quiet _) h
    intro found t h
    cases found with
    | none => exact rest false t h.inv h.continues
    | some operation =>
      dsimp only
      split_ifs with active same other
      · exact rest false t h.inv h.continues
      · exact ready_quiet (waitSecurity_quiet _ 20) h fun ok u h => rest ok u h.inv h.continues
      · exact rest false t h.inv h.continues
      · exact sealAgain_wp h (not_not.mp other) rest

/-- Closing changes neither where the record comes from nor what was attempted. -/
theorem closeAccess_wp {post : Bool × Bool → Ledger → Prop} (h : Ready s j)
    (rest : ∀ x t, Inv t → post x t) : (closeAccess mac j).wp ledger post Inv s := by
  unfold closeAccess
  rw [Prog.wp_bind_iff]
  apply returnAccess_wp h
  intro restored t inv continues
  rw [Prog.wp_bind_iff]
  apply quiet_wp observedSecurity_quiet inv
  intro last u inv calm
  have continues := continues.calm calm
  rw [Prog.wp_bind_iff]
  have closed (state : AccessState) :
      Continues u { j with lastSecurity := last, state := state.byte } :=
    ⟨continues.unsealing, continues.full⟩
  apply store_wp inv (closed _)
  intro recorded v inv _
  exact rest _ v inv

end Closing

section Opening

variable {s t : Ledger} {j j' : AccessJournal} {mac : Bytes 6} {profile : GaugePair}

def Opens (x : Outcome × Cleanup) (t : Ledger) : Prop :=
  Inv t ∧ (x.1.success = true →
    ∃ j, t.cell.durable = some j ∧ j.state = AccessState.opened.byte)

abbrev Finishes (program : Bus (Outcome × Cleanup)) (s : Ledger) : Prop := program.wp ledger Opens Inv s

theorem refused (inv : Inv s) (why : String) (cleanup : Cleanup) :
    Finishes (report false why cleanup) s := by
  unfold Finishes report
  rw [Prog.wp_bind_iff]
  exact quiet_wp sampleBattery_quiet inv fun _ t inv _ => ⟨inv, nofun⟩

theorem accepted (inv : Inv s) (durable : s.cell.durable = some j)
    (isOpen : j.state = AccessState.opened.byte) (why : String) : Finishes (report true why) s := by
  unfold Finishes report
  rw [Prog.wp_bind_iff]
  apply quiet_wp sampleBattery_quiet inv
  exact fun _ t inv calm => ⟨inv, fun _ => ⟨j, by rw [calm.cell, durable], isOpen⟩⟩

theorem abort_ends (h : Ready s j) : Finishes (abort mac j) s := by
  unfold Finishes abort
  rw [Prog.wp_bind_iff]
  apply closeAccess_wp h
  intro x t inv
  exact refused inv _ _

theorem Kept.continues (h : Kept s) (durable : s.cell.durable = some j)
    (first : j.unsealAttempted = j'.unsealAttempted) (second : j.fullAttempted = j'.fullAttempted) :
    Continues s j' := by
  constructor
  · intro owed
    obtain ⟨d, found, attempted, _⟩ := h.unsealing owed
    obtain rfl := Option.some.inj (durable.symm.trans found)
    rw [← first]
    exact attempted
  · intro owed
    obtain ⟨d, found, attempted, _⟩ := h.full owed
    obtain rfl := Option.some.inj (durable.symm.trans found)
    rw [← second]
    exact attempted

/-- Between the words, in a call that may send them. -/
structure Working (s : Ledger) (j : AccessJournal) : Prop extends Ready s j where
  fresh : Fresh s

theorem Working.calm (h : Working s j) (inv : Inv t) (calm : Calm s t) : Working t j :=
  ⟨h.toReady.calm inv calm, calm.toSent.fresh h.fresh⟩

/-- The record of a working call as it is stored. -/
structure OnRecord (s : Ledger) (j : AccessJournal) : Prop where
  durable : s.cell.durable = some j.seal
  read : ReadBack j.seal s.steps

theorem OnRecord.calm (h : OnRecord s j) (calm : Calm s t) : OnRecord t j :=
  ⟨by rw [calm.cell]; exact h.durable, calm.toSent.readBack h.read⟩

theorem Stored.working {ok : Bool} (inv : Inv t) (fresh : Fresh s)
    (unsealed : ∀ x ∈ s.steps, x.1.sends sealPackets = false) (continues : Continues s j)
    (recorded : ok = false → ∃ d, s.cell.durable = some d ∧ d.priorSecurity = j.priorSecurity)
    (h : Stored s j.seal ok t) : Working t j := by
  obtain ⟨more, steps, unsealed'⟩ := h.steps
  refine ⟨⟨inv, fun x mem => ?_, ?_, ?_⟩, ?_⟩
  · rw [steps] at mem
    cases List.mem_append.mp mem with
    | inl new => exact unsealed' x new
    | inr old => exact unsealed x old
  · cases ok with
    | true => exact ⟨j.seal, (h.done rfl).1, rfl⟩
    | false =>
      cases h.durable with
      | inl kept =>
        rw [kept]
        exact recorded rfl
      | inr new => exact ⟨j.seal, new, rfl⟩
  · exact ⟨fun owed => continues.unsealing (h.unsealOwed owed),
      fun owed => continues.full (h.fullOwed owed)⟩
  · rw [Fresh, h.began, h.owedBefore]
    exact fresh

/-- A record that goes on from the present one is stored. -/
theorem working_store {post : Bool → Ledger → Prop} {v : AccessJournal} (h : Working s j)
    (prior : v.priorSecurity = j.priorSecurity) (continues : Continues s v)
    (rest : ∀ ok t, Working t v → (ok = true → OnRecord t v) → post ok t) :
    (gaugeStoreAccess mac v).wp ledger post Inv s := by
  apply store_wp h.inv continues
  intro ok t inv stored
  apply rest ok t
  · apply stored.working inv h.fresh h.unsealed continues
    rw [prior]
    exact fun _ => h.recorded
  · exact fun done => ⟨(stored.done done).1, (stored.done done).2⟩

theorem Working.sent (h : Working s j) (record : OnRecord s j) (inv : Inv t) (sent : Sent s t) :
    Working t j := by
  have durable : t.cell.durable = some j.seal := by rw [sent.cell, record.durable]
  obtain ⟨more, steps, unsealed⟩ := sent.steps
  refine ⟨⟨inv, fun x mem => ?_, ⟨j.seal, durable, rfl⟩, inv.kept.continues durable rfl rfl⟩,
    sent.fresh h.fresh⟩
  rw [steps] at mem
  cases List.mem_append.mp mem with
  | inl new => exact unsealed x new
  | inr old => exact h.unsealed x old

theorem keyed_wp {first second : AccessWord} {expected : UInt16} {post : Bool → Ledger → Prop}
    (h : Working s j) (record : OnRecord s j)
    (words : ∀ post : Bool → Ledger → Prop, (∀ a t, Inv t → Sent s t → post a t) →
      (accessWords first second).wp ledger post Inv s)
    (rest : ∀ ok t, Working t j → post ok t) : (keyed first second expected).wp ledger post Inv s := by
  unfold keyed
  rw [Prog.wp_bind_iff]
  apply words
  intro went t inv sent
  have working := h.sent record inv sent
  rw [Prog.wp_bind_iff]
  apply quiet_wp (waitSecurity_quiet expected 20) inv
  exact fun seen u inv calm => rest _ u (working.calm inv calm)

theorem conclude_ends (h : Working s j) : Finishes (conclude mac j) s := by
  unfold Finishes conclude
  rw [Prog.wp_bind_iff]
  apply working_store (v := { j with state := AccessState.opened.byte }) h rfl
    ⟨h.continues.unsealing, h.continues.full⟩
  intro ok t h record
  split
  · exact abort_ends h.toReady
  · rename_i stored
    have durable := (record (by simpa using stored)).durable
    exact accepted h.inv durable rfl _

theorem fullPhase_ends (h : Working s j) (unverified : j.fullVerified = 0) :
    Finishes (fullPhase mac profile j) s := by
  have full : (1 : UInt8) ≠ 0 := by decide
  unfold Finishes fullPhase
  rw [Prog.wp_bind_iff]
  apply working_store
    (v := { j with unsealVerified := 1, lastSecurity := 2, fullAttempted := 1 }) h rfl
    ⟨h.continues.unsealing, fun _ => full⟩
  intro ok t h record
  split
  · exact abort_ends h.toReady
  rename_i stored
  have record := record (by simpa using stored)
  rw [Prog.wp_bind_iff]
  apply quiet_wp (steady_quiet 2 profile) h.inv
  intro same u inv calm
  have h := h.calm inv calm
  have record := record.calm calm
  split
  · exact abort_ends h.toReady
  rw [Prog.wp_bind_iff]
  apply keyed_wp h record
  · exact fun post => fullWords_wp h.inv h.fresh record.durable record.read full full unverified
  intro opened v h
  split
  · exact abort_ends h.toReady
  · exact conclude_ends ⟨⟨h.inv, h.unsealed, h.recorded, ⟨h.continues.unsealing, h.continues.full⟩⟩,
      h.fresh⟩

theorem unsealPhase_ends (h : Working s j) (unverified : j.unsealVerified = 0)
    (unverified' : j.fullVerified = 0) : Finishes (unsealPhase mac profile j) s := by
  have attempted : (1 : UInt8) ≠ 0 := by decide
  unfold Finishes unsealPhase
  rw [Prog.wp_bind_iff]
  apply working_store (v := { j with unsealAttempted := 1 }) h rfl ⟨fun _ => attempted, h.continues.full⟩
  intro ok t h record
  split
  · exact abort_ends h.toReady
  rename_i stored
  have record := record (by simpa using stored)
  rw [Prog.wp_bind_iff]
  apply quiet_wp (steady_quiet 3 profile) h.inv
  intro same u inv calm
  have h := h.calm inv calm
  have record := record.calm calm
  split
  · exact abort_ends h.toReady
  rw [Prog.wp_bind_iff]
  apply keyed_wp h record
  · exact fun post => unsealWords_wp h.inv h.fresh record.durable record.read attempted unverified
  intro opened v h
  split
  · exact abort_ends h.toReady
  · exact fullPhase_ends h unverified'

/-- A call that has only read so far. -/
structure Begun (s : Ledger) : Prop where
  inv : Inv s
  unsealed : ∀ x ∈ s.steps, x.1.sends sealPackets = false
  began : s.began = s.cell.durable
  owed : s.owedBefore = (s.unsealOwed || s.fullOwed)

theorem Begun.calm (h : Begun s) (inv : Inv t) (calm : Calm s t) : Begun t := by
  obtain ⟨more, steps, unsealed⟩ := calm.steps
  refine ⟨inv, fun x mem => ?_, by rw [calm.began, calm.cell, h.began], ?_⟩
  · rw [steps] at mem
    cases List.mem_append.mp mem with
    | inl new => exact unsealed x new
    | inr old => exact h.unsealed x old
  · rw [calm.owedBefore, calm.unsealOwed, calm.fullOwed, h.owed]

theorem begun_quiet {α : Type} {program : Bus α} {post : α → Ledger → Prop}
    (quiet : program.Uses Call.quiet) (h : Begun s)
    (rest : ∀ a t, Begun t → t.cell.durable = s.cell.durable → post a t) :
    program.wp ledger post Inv s :=
  quiet_wp quiet h.inv fun a t inv calm => rest a t (h.calm inv calm) (by rw [calm.cell])

/-- A record without an open attempt leaves nothing owed. -/
theorem Kept.settled (h : Kept s) (closed : (s.cell.durable.any failedDefaultAttempt) = false) :
    s.unsealOwed = false ∧ s.fullOwed = false := by
  constructor
  · apply Bool.eq_false_iff.mpr
    intro owed
    obtain ⟨j, found, attempted, unverified⟩ := h.unsealing owed
    simp [found, failedDefaultAttempt, attempted, unverified] at closed
  · apply Bool.eq_false_iff.mpr
    intro owed
    obtain ⟨j, found, attempted, unverified⟩ := h.full owed
    simp [found, failedDefaultAttempt, attempted, unverified] at closed

theorem beginAccess_ends {operation : UInt16} (h : Begun s)
    (restored : ∀ j, s.cell.durable = some j → j.state = AccessState.restored.byte)
    (closed : (s.cell.durable.any failedDefaultAttempt) = false) :
    Finishes (beginAccess mac operation profile) s := by
  obtain ⟨settled, settled'⟩ := h.inv.kept.settled closed
  have fresh : Fresh s := by
    refine ⟨by rw [h.owed, settled, settled']; rfl, fun j began => restored j ?_⟩
    rw [← h.began, began]
  have continues : Continues s (freshAccess mac operation profile) := by
    constructor
    · intro owed
      rw [settled] at owed
      cases owed
    · intro owed
      rw [settled'] at owed
      cases owed
  unfold Finishes beginAccess
  rw [Prog.wp_bind_iff]
  apply store_wp h.inv continues
  intro ok t inv stored
  split
  · exact refused inv _ _
  rename_i done
  have done : ok = true := by simpa using done
  have working := stored.working inv fresh h.unsealed continues fun failed => by
    rw [done] at failed
    cases failed
  rw [Prog.wp_bind_iff]
  apply quiet_wp (steady_quiet _ profile) inv
  intro same u inv calm
  have working := working.calm inv calm
  split
  · exact refused inv _ _
  split
  · exact unsealPhase_ends working rfl rfl
  · exact conclude_ends working

theorem openFrom_ends {operation : UInt16} (h : Begun s) :
    Finishes (openFrom mac s.cell.durable operation profile) s := by
  unfold openFrom
  split
  · split
    · rename_i isOpen
      obtain ⟨j, found, isOpen⟩ := (Option.any_eq_true _ _).mp isOpen
      simp only [alreadyOpen, Bool.and_eq_true, beq_iff_eq] at isOpen
      exact accepted h.inv found isOpen.1.1 _
    · exact refused h.inv _ _
  rename_i restored
  split
  · exact refused h.inv _ _
  rename_i closed
  split
  · exact refused h.inv _ _
  apply beginAccess_ends h
  · intro j found
    simpa [found] using restored
  · exact Bool.eq_false_iff.mpr closed

theorem openAccess_ends {saved : Option AccessJournal} (h : Begun s) (found : s.cell.durable = saved) :
    Finishes (openAccess mac saved) s := by
  unfold Finishes openAccess
  rw [Prog.wp_bind_iff]
  apply begun_quiet accessPreflight_quiet h
  intro seen t h same
  split
  · exact refused h.inv _ _
  rw [Prog.wp_bind_iff]
  apply begun_quiet gaugeIdentity_quiet h
  intro known u h same'
  split
  · exact refused h.inv _ _
  rw [Prog.wp_bind_iff]
  apply begun_quiet (accessCandidate_quiet mac _) h
  intro candidate v h same''
  split
  · exact refused h.inv _ _
  · have kept : saved = v.cell.durable := by rw [same'', same', same, found]
    rw [kept]
    exact openFrom_ends h

theorem restoreAccess_keeps {post : Outcome × Cleanup → Ledger → Prop} (h : Begun s)
    (found : s.cell.durable = some j) (rest : ∀ x t, Inv t → post x t) :
    (restoreAccess mac j).wp ledger post Inv s := by
  have reported (success : Bool) (why : String) (cleanup : Cleanup) {t : Ledger} (inv : Inv t) :
      (report success why cleanup).wp ledger post Inv t :=
    quiet_wp (report_quiet success why cleanup) inv fun x u inv _ => rest x u inv
  unfold restoreAccess
  rw [Prog.wp_bind_iff]
  apply begun_quiet gaugeIdentity_quiet h
  intro known t h same
  split
  · exact reported _ _ _ h.inv
  rw [← same] at found
  have ready : Ready t j := ⟨h.inv, h.unsealed, ⟨j, found, rfl⟩, h.inv.kept.continues found rfl rfl⟩
  rw [Prog.wp_bind_iff]
  apply closeAccess_wp ready
  intro x u inv
  dsimp only
  split_ifs <;> exact reported _ _ _ inv

end Opening

section Calls

variable {s t : Ledger} {mac : Bytes 6} {action : Action} {cleanup : Cleanup}

theorem load_wp {post : Except Status AccessJournal → Ledger → Prop} (h : Begun s)
    (rest : ∀ r t, Begun t → (∀ j, r = .ok j → t.cell.durable = some j) →
      (r = .error .notFound → t.cell.durable = none) → post r t) :
    (gaugeLoadAccess mac).wp ledger post Inv s := by
  apply (Prog.wp_perform_bind ..).mpr
  rintro opened _ ⟨cell, acts, rfl⟩
  obtain ⟨inv, calm⟩ := quiet_step (c := .nvsOpen .gaugeacc false) trivial h.inv acts
  have h := h.calm inv calm
  obtain ⟨rfl, missing⟩ := acts
  refine ⟨inv, ?_⟩
  split
  · apply (Prog.wp_perform_bind ..).mpr
    rintro found _ ⟨cell, acts, rfl⟩
    obtain ⟨inv, calm⟩ := quiet_step (c := .nvsGet .access) trivial h.inv acts
    have h := h.calm inv calm
    obtain ⟨rfl, truth, missing⟩ := acts
    refine ⟨inv, ?_⟩
    split
    · rename_i v
      apply rest _ _ h
      · intro j same
        split_ifs at same
        cases same
        exact truth v rfl
      · intro same
        split_ifs at same
        cases same
    · rename_i e
      apply rest _ _ h
      · exact nofun
      · intro same
        exact missing (by rw [Except.error.inj same])
  · apply rest _ _ h
    · exact nofun
    · intro same
      exact missing (Except.error.inj same)

def Answers (action : Action) (x : Outcome × Cleanup) (t : Ledger) : Prop :=
  Inv t ∧ (action = .open → x.1.success = true →
    ∃ j, t.cell.durable = some j ∧ j.state = AccessState.opened.byte)

theorem gaugeAccess_answers (h : Begun s) :
    (gaugeAccess mac action cleanup).wp ledger (Answers action) Inv s := by
  have failed {why : String} {cleanup : Cleanup} {t : Ledger} (inv : Inv t) :
      (report false why cleanup).wp ledger (Answers action) Inv t :=
    Prog.wp_mono (refused inv why cleanup) (fun x u opens => ⟨opens.1, fun _ => opens.2⟩) fun _ => id
  unfold gaugeAccess
  rw [Prog.wp_bind_iff]
  apply begun_quiet (gate_quiet _) h
  intro lease t h _
  split
  · exact ⟨h.inv, nofun⟩
  rw [Prog.wp_bind_iff]
  apply begun_quiet (fenced_quiet action) h
  intro blocked t h _
  split
  · exact ⟨h.inv, nofun⟩
  rw [Prog.wp_bind_iff]
  apply begun_quiet gaugeReady_quiet h
  intro ready t h _
  split
  · exact failed h.inv
  rw [Prog.wp_bind_iff]
  apply load_wp h
  intro found t h truth missing
  split
  · rename_i j
    exact restoreAccess_keeps h (truth j rfl) fun x u inv => ⟨inv, nofun⟩
  · rename_i j
    exact Prog.wp_mono (openAccess_ends h (truth j rfl))
      (fun x u opens => ⟨opens.1, fun _ => opens.2⟩) fun _ => id
  · exact failed h.inv
  · exact Prog.wp_mono (openAccess_ends h (missing rfl))
      (fun x u opens => ⟨opens.1, fun _ => opens.2⟩) fun _ => id
  · exact failed h.inv

/-- The ledger as a call begins, after a return of the one before or after a power loss in it. -/
def Ledger.begin (s : Ledger) : Ledger where
  cell := { durable := s.cell.durable }
  began := s.cell.durable
  owedBefore := s.unsealOwed || s.fullOwed
  unsealOwed := s.unsealOwed
  fullOwed := s.fullOwed

/-- The ledgers that calls pass through, on a board that starts without a record. -/
inductive Reached (mac : Bytes 6) : Ledger → Prop
  | fresh : Reached mac {}
  | call {s t : Ledger} (before : Reached mac s) (action : Action) (cleanup : Cleanup)
      (visited : (gaugeAccess mac action cleanup).Visits ledger s.begin t) : Reached mac t

theorem Inv.begun (h : Inv s) : Begun s.begin :=
  ⟨⟨nofun, h.kept.unsealing, h.kept.full⟩, nofun, rfl, rfl⟩

theorem Reached.inv (h : Reached mac s) : Inv s := by
  induction h with
  | fresh => exact ⟨nofun, nofun, nofun⟩
  | call before action cleanup visited ih =>
    exact Prog.wp_visits (gaugeAccess_answers ih.begun) ih.begun.inv visited

end Calls

/-- Every packet of the access sequence is sent as `Sendable` says, whatever the gauge answers and
wherever a run is cut; and a call to open that returns success leaves an opened record. -/
theorem access_never_replays {mac : Bytes 6} {s : Ledger} (reached : Reached mac s) :
    Lawful s ∧ ∀ cleanup x t, (gaugeAccess mac .open cleanup).Ends ledger s.begin x t →
      x.1.success = true → ∃ j, t.cell.durable = some j ∧ j.state = AccessState.opened.byte := by
  refine ⟨reached.inv.lawful, fun cleanup x t ended success => ?_⟩
  exact (Prog.wp_ends (gaugeAccess_answers reached.inv.begun) ended).2 rfl success

section Bench

def benchStatus (steps : List Step) : UInt16 :=
  if steps.any fun x => x.1.sends [AccessWord.full.highPacket] then 0x22
  else if steps.any fun x => x.1.sends [AccessWord.unsealSecond.highPacket] then 0x24
  else 0x26

def benchWord (steps : List Step) (reg : UInt8) : UInt16 :=
  if reg = 0x3a then benchStatus steps else if reg = 0x2c then 100 else if reg = 0x08 then 4200
  else if reg = 0x06 then 3000 else if reg = 0x3c ∨ reg = 0x12 then 65 else if reg = 0x10 then 60
  else if reg = 0x40 then 0x0220 else 0

def benchAnswer (s : Ledger) : (c : Call) → Answer c × Cell AccessJournal
  | .gate g => (g != .otaBusy && g != .bootFactoryReloadScope, s.cell)
  | .enters _ => ((), s.cell)
  | .read reg => (some (low (benchWord s.steps reg), high (benchWord s.steps reg)), s.cell)
  | .transmit _ => (true, s.cell)
  | .nvsOpen _ _ => (.ok, s.cell)
  | .nvsGet .access => (match s.cell.durable with
    | some j => .ok j
    | none => .error .notFound, s.cell)
  | .nvsGet .nominal | .nvsGet .normalTarget => (.error .failed, s.cell)
  | .nvsSet .access v => (true, { s.cell with staged := some v })
  | .nvsSet .nominal _ | .nvsSet .normalTarget _ => (true, s.cell)
  | .nvsCommit .access => (true, { durable := s.cell.staged.or s.cell.durable })
  | .nvsCommit .nominal | .nvsCommit .normalTarget => (true, s.cell)

def bench : Machine Call Answer Ledger := fun c s =>
  (some (benchAnswer s c).1, s.after c (benchAnswer s c).1 (benchAnswer s c).2)

theorem bench_realises : Prog.Realises bench ledger id := by
  refine ⟨fun c s r s' step => ?_, fun c s s' step => nomatch step⟩
  obtain ⟨answer, rfl⟩ := Prod.mk.inj step
  obtain rfl := Option.some.inj answer
  refine ⟨_, ?_, rfl⟩
  cases c with
  | gate | enters | read | transmit => rfl
  | nvsOpen ns write =>
    cases ns with
    | gaugeacc => exact ⟨rfl, nofun⟩
    | gaugecal => rfl
  | nvsGet k =>
    cases k with
    | access =>
      refine ⟨rfl, fun v found => ?_, fun missing => ?_⟩
      · cases there : s.cell.durable with
        | none => simp [benchAnswer, there] at found
        | some j =>
          have same : (.ok j : Except Status AccessJournal) = .ok v := by
            simpa [benchAnswer, there] using found
          exact there.trans (congrArg some (Except.ok.inj same))
      · cases there : s.cell.durable with
        | none => exact there
        | some j => simp [benchAnswer, there] at missing
    | nominal | normalTarget => rfl
  | nvsSet k v =>
    cases k with
    | access => exact ⟨rfl, Or.inl rfl⟩
    | nominal | normalTarget => rfl
  | nvsCommit k =>
    cases k with
    | access =>
      refine ⟨rfl, ?_, fun _ v staged => ?_⟩
      · cases there : s.cell.staged with
        | none => exact Or.inl (by simp [benchAnswer, there])
        | some j => exact Or.inr (by simp [benchAnswer, there])
      · simp [benchAnswer, show s.cell.staged = some v from staged]
    | nominal | normalTarget => rfl

private theorem bench_opens : ((gaugeAccess (zero 6) .open {}).run bench ({} : Ledger)).1 =
    some ({ success := true, reason := "access_opened_default_verified" }, {}) := by
  decide +kernel

theorem bench_ends : (gaugeAccess (zero 6) .open {}).Ends ledger ({} : Ledger).begin
    ({ success := true, reason := "access_opened_default_verified" }, {})
    ((gaugeAccess (zero 6) .open {}).run bench ({} : Ledger)).2 := by
  have begins : ({} : Ledger).begin = {} := rfl
  have ended := Prog.ends_run bench_realises bench_opens
  rw [id_eq, id_eq] at ended
  rw [begins]
  exact ended

def benchUntil (packet : List UInt8) : Machine Call Answer Ledger := fun c s =>
  if s.steps.head?.any fun x => x.1.sends [packet] then (none, s) else bench c s

private theorem benchUntil_realises (packet : List UInt8) : Prog.Realises (benchUntil packet) ledger id := by
  refine ⟨fun c s r s' step => ?_, fun c s s' step => ?_⟩
  · unfold benchUntil at step
    split at step
    · cases step
    · exact bench_realises.answered c s r s' step
  · unfold benchUntil at step
    split at step
    · exact .inl (Prod.mk.inj step).2.symm
    · exact bench_realises.cut c s s' step

def lostAt (packet : List UInt8) : Ledger := ((gaugeAccess (zero 6) .open {}).run (benchUntil packet) ({} : Ledger)).2

private theorem lostAt_reached (packet : List UInt8) : Reached (zero 6) (lostAt packet) :=
  .call .fresh .open {} (Prog.visits_run (benchUntil_realises packet) (gaugeAccess (zero 6) .open {}) ({} : Ledger))

private theorem lostAt_sent : (lostAt AccessWord.full.highPacket).steps.head?.any
    (fun x => x.1.sends [AccessWord.full.highPacket]) = true := by
  decide +kernel

/-- The last packet of the access may be sent when it is, and a call that runs to its end leaves an opened record. -/
theorem access_never_replays_bench :
    (∃ ok older, (lostAt AccessWord.full.highPacket).steps = ⟨.transmit AccessWord.full.highPacket, ok⟩ :: older ∧
      Sendable { lostAt AccessWord.full.highPacket with steps := older } AccessWord.full.highPacket) ∧
    ∃ j, ((gaugeAccess (zero 6) .open {}).run bench ({} : Ledger)).2.cell.durable = some j ∧
      j.state = AccessState.opened.byte := by
  refine ⟨?_, (access_never_replays (@Reached.fresh (zero 6))).2 {} _ _ bench_ends rfl⟩
  have lawful := (access_never_replays (lostAt_reached AccessWord.full.highPacket)).1
  obtain ⟨⟨c, ok⟩, first, sends⟩ := (Option.any_eq_true _ _).mp lostAt_sent
  obtain ⟨older, steps⟩ := List.head?_eq_some_iff.mp first
  cases c with
  | transmit packet =>
    obtain rfl : packet = AccessWord.full.highPacket := by simpa [Call.sends] using sends
    exact ⟨ok, older, steps, lawful _ ok older steps⟩
  | gate | enters | read | nvsOpen | nvsGet | nvsSet | nvsCommit => cases sends

end Bench

end Mosaico.Gauge.Hal
