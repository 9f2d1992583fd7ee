import Mosaico.Gauge.HalNominalReads

/-! The transaction of the capacity fields can be undone: whatever fails, the journal keeps the old
pair and tells which values the data memory may hold. -/
namespace Mosaico.Gauge.Hal

open ByteFields Interaction DurableCell

section Stored

variable {s t : Plant} {j v : Journal} {mac : Bytes 6}

/-- The stored journal has the old and new values of `j`. -/
structure Known (s : Plant) (j : Journal) : Prop where
  sound : Sound s
  target : j.targetDesign = nominalMah
  stored : ∃ d, s.cell.durable = some d ∧ d.Same j

theorem Holding.known (h : Holding s j) : Known s j := by
  obtain ⟨d, durable, same, -, -⟩ := h.pending
  exact ⟨h.sound, h.target, d, durable, same⟩

theorem Known.mild (h : Known s j) (sound : Sound t) (mild : Mild s t) : Known t j :=
  ⟨sound, h.target, by rw [mild.cell]; exact h.stored⟩

theorem Journal.Same.symm (h : v.Same j) : j.Same v :=
  ⟨h.originalDesign.symm, h.originalFcc.symm, h.targetDesign.symm, h.targetFcc.symm,
    h.changedFcc.symm⟩

theorem Journal.Same.refl (j : Journal) : j.Same j := ⟨rfl, rfl, rfl, rfl, rfl⟩

theorem Journal.seal_same (j : Journal) : j.seal.Same j := ⟨rfl, rfl, rfl, rfl, rfl⟩

theorem Journal.withState_same (j : Journal) (state : State) : (j.withState state).Same j :=
  ⟨rfl, rfl, rfl, rfl, rfl⟩

theorem Journal.withLast_same (j : Journal) (pair : GaugePair) : (j.withLast pair).Same j :=
  ⟨rfl, rfl, rfl, rfl, rfl⟩

theorem Journal.intent_same (j : Journal) (action : UInt8) : (j.intent action).Same j :=
  ⟨rfl, rfl, rfl, rfl, rfl⟩

theorem Journal.Same.trans {a b c : Journal} (h : a.Same b) (h' : b.Same c) : a.Same c :=
  ⟨h.originalDesign.trans h'.originalDesign, h.originalFcc.trans h'.originalFcc,
    h.targetDesign.trans h'.targetDesign, h.targetFcc.trans h'.targetFcc,
    h.changedFcc.trans h'.changedFcc⟩

theorem Known.as (h : Known s j) (same : v.Same j) : Known s v := by
  obtain ⟨d, durable, same'⟩ := h.stored
  exact ⟨h.sound, same.targetDesign.trans h.target, d, durable, same'.trans same.symm⟩

/-- A journal of the same values may take the place of the stored one. -/
theorem Known.storable (h : Known s j) (same : v.Same j) : Storable s v := by
  obtain ⟨d, durable, same'⟩ := h.stored
  refine ⟨fun held => ?_, fun pair known => ?_⟩
  · rw [same.covers, ← same'.covers]
    exact h.sound.held held d durable
  · have first := h.sound.original
    rw [durable, known] at first
    rw [same.original, ← same'.original]
    exact Option.some.inj first

theorem Mild.paid (h : Mild s t) (paid : exitOwed s.steps = false) : exitOwed t.steps = false := by
  by_contra owes
  have owed := h.owed (eq_true_of_ne_false owes)
  rw [paid] at owed
  cases owed

theorem Journalled.paid {ok : Bool} (h : Journalled s j ok t) (paid : exitOwed s.steps = false) :
    exitOwed t.steps = false := by
  by_contra owes
  have owed := h.owed (eq_true_of_ne_false owes)
  rw [paid] at owed
  cases owed

/-- What the storing of a journal of the same values leaves behind. -/
structure Replaced (s : Plant) (j v : Journal) (ok : Bool) (t : Plant) : Prop where
  known : Known t j
  dm : t.device.dm = s.device.dm
  paid : exitOwed s.steps = false → exitOwed t.steps = false
  done : ok = true → t.cell.durable = some v.seal ∧ JournalReadBack v.seal t.steps

theorem keep_wp {post : Bool → Plant → Prop} (known : Known s j) (same : v.Same j)
    (rest : ∀ ok t, Replaced s j v ok t → post ok t) :
    (gaugeStoreJournal mac v).wp plant post Sound s := by
  have sealed : v.seal.Same j := v.seal_same.trans same
  apply journalStore_wp known.sound (known.storable sealed)
  intro ok t sound stored
  refine rest ok t ⟨⟨sound, known.target, ?_⟩, stored.dm, stored.paid, stored.done⟩
  cases stored.durable with
  | inl kept => rw [kept]; exact known.stored
  | inr new => exact ⟨_, new, sealed⟩

/-- A pending journal that was stored is held. -/
theorem pend_wp {post : Bool → Plant → Prop} (sound : Sound s) (storable : Storable s v.seal)
    (target : v.targetDesign = nominalMah) (pending : v.state = State.pending.byte)
    (rest : ∀ ok t, Sound t → t.device.dm = s.device.dm →
      (exitOwed s.steps = false → exitOwed t.steps = false) → (ok = true → Holding t v) → post ok t) :
    (gaugeStoreJournal mac v).wp plant post Sound s := by
  apply journalStore_wp sound storable
  intro ok t sound stored
  refine rest ok t sound stored.dm stored.paid fun done => ⟨sound, target, ?_⟩
  obtain ⟨durable, read⟩ := stored.done done
  exact ⟨_, durable, v.seal_same, pending, read⟩

end Stored

section Writing

variable {s t : Plant} {j : Journal} {mac : Bytes 6} {desired before : GaugePair}

/-- A pair that was verified in the data memory is there. -/
theorem gaugeVerifyPair_wp {post : Bool → Plant → Prop} (sound : Sound s)
    (rest : ∀ ok t, Sound t → Mild s t → (ok = true → s.device.dm = desired) → post ok t) :
    (gaugeVerifyPair mac desired false).wp plant post Sound s := by
  show Prog.wp plant (do
    let shown ← pairShown desired false
    if shown then verifyPairTimes mac desired false 1 else return false) post Sound s
  unfold pairShown
  rw [Prog.wp_bind_iff, Prog.wp_bind_iff]
  apply gaugePair_wp sound
  intro pair t sound mild truth
  by_cases same : pair = some desired
  · rw [if_neg (not_not.mpr same)]
    apply mild_wp (verifyPairTimes_mild mac desired false 1) sound
    intro ok u sound mild'
    exact rest ok u sound (mild.trans mild') fun _ => (truth desired same).symm
  · rw [if_pos same]
    exact rest false t sound mild nofun

theorem rollbackField_wp {post : Bool → Plant → Prop} {field : Field} {value : UInt16}
    {touched : Bool} (h : Holding s j) (rest : ∀ ok t, Holding t j → post ok t) :
    (rollbackField j field value touched).wp plant post Sound s := by
  unfold rollbackField
  split
  · exact gaugeWriteField_wp h rest
  · exact rest true s h

theorem gaugeRollback_wp {post : Bool → Plant → Prop} {touchedDc touchedFcc : Bool}
    (h : Holding s j)
    (rest : ∀ ok t, Holding t j → (ok = true → t.device.dm = before) → post ok t) :
    (gaugeRollback mac j before touchedDc touchedFcc).wp plant post Sound s := by
  unfold gaugeRollback
  rw [Prog.wp_bind_iff]
  apply rollbackField_wp h
  intro dc t holding
  rw [Prog.wp_bind_iff]
  apply rollbackField_wp holding
  intro fcc u holding
  split
  · apply gaugeVerifyPair_wp holding.sound
    intro ok w sound mild shown
    exact rest ok w (holding.mild sound mild) fun done => mild.dm.trans (shown done)
  · exact rest false u holding nofun

/-- Configuration update is asked for; from here an exit is owed. -/
theorem enterConfig_wp {post : Bool → Plant → Prop} (h : Holding s j)
    (rest : ∀ ok t, Holding t j → t.device.dm = s.device.dm → post ok t) :
    enterConfig.wp plant post Sound s := by
  have waited : ∀ sent t, Holding t j → t.device.dm = s.device.dm →
      (do return sent && (← gaugeWaitConfig true) : Bus Bool).wp plant post Sound t := by
    intro sent t holding dm
    rw [Prog.wp_bind_iff]
    apply mild_wp (mild_of_quiet (waitConfig_quiet true 10)) holding.sound
    intro observed u sound mild
    exact rest _ u (holding.mild sound mild) (mild.dm.trans dm)
  unfold enterConfig gaugeControl
  rw [if_pos (by decide), Prog.wp_bind_iff, Prog.wp_bind_iff]
  apply (Prog.wp_perform ..).mpr
  rintro allowed _ ⟨cell, device, acts, moves, rfl⟩
  obtain ⟨sound, mild⟩ := mild_step (c := .gate .keyWindowAllowed) trivial h.sound acts moves
  have holding := h.mild sound mild
  refine ⟨sound, ?_⟩
  cases allowed with
  | false => exact waited false _ holding mild.dm
  | true =>
    apply (Prog.wp_perform ..).mpr
    rintro sent _ ⟨cell', device', acts', moves', rfl⟩
    obtain ⟨d, durable, same, state, read⟩ := holding.pending
    obtain rfl := acts'
    obtain ⟨sound', dm⟩ := sound.still (c := .transmit enterPacket)
      (fun packet sent => by cases sent; decide) moves'
    exact ⟨sound', waited sent _ ⟨sound', h.target, d, durable, same, state, read.append [_]⟩
      (dm.trans mild.dm)⟩

/-- The way out of configuration update; what is owed is paid with its first step. -/
theorem gaugeExitConfig_wp {post : Bool → Plant → Prop} (sound : Sound s)
    (rest : ∀ ok t, Sound t → Mild s t → exitOwed t.steps = false → post ok t) :
    gaugeExitConfig.wp plant post Sound s := by
  unfold gaugeExitConfig
  apply (Prog.wp_perform_bind ..).mpr
  rintro begun _ ⟨cell, device, acts, moves, rfl⟩
  obtain ⟨sound, mild⟩ := mild_step (c := .enters .exitConfig) trivial sound acts moves
  refine ⟨sound, ?_⟩
  apply mild_wp (mild_of_quiet ((gaugeExitConfig_quiet false).2 begun)) sound
  intro ok t sound mild'
  exact rest ok t sound (mild.trans mild') (mild'.paid rfl)

end Writing

section Outcomes

variable {s t : Plant} {j v : Journal} {mac : Bytes 6} {desired before : GaugePair} {out : Outcome}
  {why : String}

def Journal.last (j : Journal) : GaugePair := { design := j.lastDesign, fcc := j.lastFcc }

def Resolved (t : Plant) : Prop :=
  ∀ j, t.cell.durable = some j → recoveryState j.state = false

/-- The journal tells the pair that the data memory holds. -/
def Recorded (t : Plant) : Prop := ∃ j, t.cell.durable = some j ∧ j.last = t.device.dm

def observing : List String :=
  ["already_nominal_not_learned", "reconciled_std_target_observed_sec3_normal65_persisted"]

/-- What holds when a command is over. -/
structure Over (out : Outcome) (t : Plant) : Prop where
  sound : Sound t
  paid : exitOwed t.steps = false
  resolved : out.success = true → Resolved t
  recorded : out.success = true → out.reason ∉ observing → Recorded t

theorem Over.failed (sound : Sound t) (paid : exitOwed t.steps = false) :
    Over (outcome false why) t := ⟨sound, paid, nofun, nofun⟩

theorem Resolved.mild (h : Resolved s) (mild : Mild s t) : Resolved t := by
  intro j found
  rw [mild.cell] at found
  exact h j found

theorem Recorded.mild (h : Recorded s) (mild : Mild s t) : Recorded t := by
  obtain ⟨j, durable, last⟩ := h
  exact ⟨j, by rw [mild.cell, durable], last.trans mild.dm.symm⟩

theorem Resolved.of_durable (durable : t.cell.durable = some j)
    (resolved : recoveryState j.state = false) : Resolved t := by
  intro d found
  obtain rfl := Option.some.inj (durable.symm.trans found)
  exact resolved

/-- A last look, and the failure is told. -/
theorem failed_wp {α : Type} {program : Bus α} (mild : program.Uses Call.mild) (sound : Sound s)
    (paid : exitOwed s.steps = false) :
    (do let _ ← program; return outcome false why : Bus Outcome).wp plant Over Sound s := by
  rw [Prog.wp_bind_iff]
  apply mild_wp mild sound
  intro _ t sound mild
  exact Over.failed sound (mild.paid paid)

theorem sealedMark_wp {post : Journal → Plant → Prop} (sound : Sound s)
    (rest : ∀ v t, Sound t → Mild s t → v.Same j → v.last = j.last →
      (recoveryState j.state = false → recoveryState v.state = false) → post v t) :
    (sealedMark j).wp plant post Sound s := by
  unfold sealedMark
  rw [Prog.wp_bind_iff]
  apply mild_wp (mild_of_quiet (gaugeWord_quiet _)) sound
  intro operation t sound mild
  cases operation with
  | none => exact rest j t sound mild (.refl j) rfl id
  | some operation =>
    dsimp only
    split_ifs
    · exact rest _ t sound mild (j.withState_same _) rfl fun _ => rfl
    · exact rest j t sound mild (.refl j) rfl id

/-- The final record; its state is the given one or the mark of a sealed gauge. -/
theorem finalJournal_wp {post : Journal → Plant → Prop} {state : State}
    {final : Option GaugePair} (sound : Sound s)
    (rest : ∀ v t, Sound t → Mild s t → v.Same j →
      (∀ pair, final = some pair → recoveryState state.byte = false →
        v.last = pair ∧ recoveryState v.state = false) → post v t) :
    (finalJournal j state final).wp plant post Sound s := by
  unfold finalJournal
  cases final with
  | none => exact rest _ s sound (.refl s) (j.withState_same state) nofun
  | some pair =>
    apply sealedMark_wp sound
    intro v t sound mild same last resolved
    apply rest v t sound mild
      (same.trans ((Journal.withLast_same _ pair).trans (j.withState_same state)))
    intro pair' shown settled
    cases shown
    exact ⟨last, resolved settled⟩

/-- The end of a transaction: the final record, one look more, and what is told. -/
theorem finish_wp {state : State} {final : Option GaugePair} {answer : Bool → Bus Outcome}
    (known : Known s j) (paid : exitOwed s.steps = false)
    (answered : ∀ recorded t, Sound t → exitOwed t.steps = false →
      (recorded = true → recoveryState state.byte = false → final = some s.device.dm →
        Resolved t ∧ Recorded t) → (answer recorded).wp plant Over Sound t) :
    (do
      let journal ← finalJournal j state final
      let recorded ← gaugeStoreJournal mac journal
      let _ ← sampleBattery
      answer recorded : Bus Outcome).wp plant Over Sound s := by
  rw [Prog.wp_bind_iff]
  apply finalJournal_wp known.sound
  intro v t sound mild same final
  rw [Prog.wp_bind_iff]
  apply keep_wp (known.mild sound mild) same
  intro recorded u replaced
  rw [Prog.wp_bind_iff]
  apply mild_wp (mild_of_quiet sampleBattery_quiet) replaced.known.sound
  intro _ w sound mild'
  apply answered recorded w sound (mild'.paid (replaced.paid (mild.paid paid)))
  intro stored settled shown
  obtain ⟨durable, -⟩ := replaced.done stored
  obtain ⟨last, resolved⟩ := final _ shown settled
  refine ⟨(Resolved.of_durable durable resolved).mild mild', Recorded.mild ⟨_, durable, ?_⟩ mild'⟩
  exact last.trans (mild.dm.symm.trans replaced.dm.symm)

end Outcomes

section Restore

variable {s t : Plant} {j : Journal} {mac : Bytes 6} {desired before : GaugePair} {why : String}

theorem clearTarget_wp (sound : Sound s) (paid : exitOwed s.steps = false) (resolved : Resolved s)
    (recorded : Recorded s) : (clearTarget why).wp plant Over Sound s := by
  unfold clearTarget
  rw [Prog.wp_bind_iff]
  apply mild_wp (gaugeStoreNormalTarget_mild 0) sound
  intro stored t sound mild
  split
  · exact Over.failed sound (mild.paid paid)
  · exact ⟨sound, mild.paid paid, fun _ => resolved.mild mild, fun _ _ => recorded.mild mild⟩

theorem restoreRefused_wp (known : Known s j) : (restoreRefused mac j).wp plant Over Sound s := by
  unfold restoreRefused
  rw [Prog.wp_bind_iff]
  apply gaugeExitConfig_wp known.sound
  intro exited t sound mild paid
  rw [Prog.wp_bind_iff]
  apply keep_wp (known.mild sound mild) (j.withState_same _)
  intro stored u replaced
  exact failed_wp (mild_of_quiet sampleBattery_quiet) replaced.known.sound (replaced.paid paid)

theorem verifiedWhere_wp {post : Bool → Plant → Prop} {go : Bool} (sound : Sound s)
    (rest : ∀ ok t, Sound t → Mild s t → (ok = true → go = true ∧ s.device.dm = desired) → post ok t) :
    (verifiedWhere mac go desired false).wp plant post Sound s := by
  unfold verifiedWhere
  split
  · rename_i going
    apply gaugeVerifyPair_wp sound
    intro ok t sound mild shown
    exact rest ok t sound mild fun done => ⟨going, shown done⟩
  · exact rest false s sound (.refl s) nofun

theorem writeBack_wp {post : Bool → Plant → Prop} {operation : UInt16} (h : Holding s j)
    (rest : ∀ ok t, Holding t j → (ok = true → t.device.dm = desired) → post ok t) :
    (writeBack mac j before desired operation).wp plant post Sound s := by
  have entering : ∀ {post : Bool → Plant → Prop}, (∀ ok t, Holding t j → post ok t) →
      (entered operation).wp plant post Sound s := by
    intro post rest
    unfold entered
    split
    · exact rest true s h
    · exact enterConfig_wp h fun ok t holding _ => rest ok t holding
  unfold writeBack
  rw [Prog.wp_bind_iff]
  apply entering
  intro ok t holding
  split
  · exact rest false t holding nofun
  rw [Prog.wp_bind_iff]
  apply gaugeVerifyPair_wp holding.sound
  intro same u sound mild _
  split
  · exact rest false u (holding.mild sound mild) nofun
  · exact gaugeRollback_wp (holding.mild sound mild) rest

theorem restoreWrite_wp {post : Bool × Bool → Plant → Prop} {operation : UInt16}
    (h : Holding s j)
    (rest : ∀ r t, Known t j → exitOwed t.steps = false →
      (r.2 = true → t.device.dm = desired) → post r t) :
    (restoreWrite mac j before desired operation).wp plant post Sound s := by
  unfold restoreWrite
  rw [Prog.wp_bind_iff]
  apply writeBack_wp h
  intro written t holding shown
  rw [Prog.wp_bind_iff]
  apply gaugeExitConfig_wp holding.sound
  intro exited u sound mild paid
  rw [Prog.wp_bind_iff]
  cases both : written && exited with
  | false => exact rest _ u (holding.known.mild sound mild) paid nofun
  | true =>
    apply mild_wp (verifiedWhere_mild mac true desired true) sound
    intro restored w sound mild'
    apply rest _ w (holding.known.mild sound (mild.trans mild')) (mild'.paid paid)
    intro _
    exact mild'.dm.trans (mild.dm.trans (shown (Bool.and_eq_true_iff.mp both).1))

theorem restoreFinish_wp {owned exited restored : Bool} (known : Known s j)
    (paid : exitOwed s.steps = false) (shown : restored = true → s.device.dm = desired) :
    (restoreFinish mac j desired owned exited restored).wp plant Over Sound s := by
  unfold restoreFinish
  apply finish_wp known paid
  intro recorded t sound paid done
  split
  · exact Over.failed sound paid
  rename_i left
  split
  · exact Over.failed sound paid
  rename_i back
  split
  · exact Over.failed sound paid
  rename_i stored
  obtain rfl : exited = true := by simpa using left
  obtain rfl : restored = true := by simpa using back
  obtain ⟨resolved, recorded⟩ := done (by simpa using stored) rfl (by rw [shown rfl]; rfl)
  exact clearTarget_wp sound paid resolved recorded

private theorem restoreRecheck_mild (owned : Bool) (before : GaugePair) :
    (restoreRecheck owned before).Uses Call.mild := by
  apply Prog.Uses.bind (mild_of_quiet (gaugeQuietFull_quiet owned))
  intro operation
  split
  · apply Prog.Uses.bind gaugePair_mild
    intro pair
    split <;> trivial
  · trivial

theorem restoreRun_wp {owned : Bool} {operation : UInt16} (known : Known s j)
    (paid : exitOwed s.steps = false) :
    (restoreRun mac j before desired owned operation).wp plant Over Sound s := by
  unfold restoreRun
  rw [Prog.wp_bind_iff]
  apply pend_wp known.sound (known.storable ((Journal.seal_same _).trans (j.intent_same 2)))
    known.target rfl
  intro stored t sound _ paid' holding
  split
  · split
    · rw [Prog.wp_bind_iff]
      apply gaugeExitConfig_wp sound
      intro exited u sound mild paid
      exact failed_wp (mild_of_quiet sampleBattery_quiet) sound paid
    · exact Over.failed sound (paid' paid)
  rename_i done
  have holding := holding (by simpa using done)
  rw [Prog.wp_bind_iff]
  apply mild_wp (restoreRecheck_mild owned before) sound
  intro checked u sound mild
  have holding := holding.mild sound mild
  cases checked with
  | none => exact restoreRefused_wp holding.known
  | some operation =>
    rw [Prog.wp_bind_iff]
    apply restoreWrite_wp holding
    intro r w known paid shown
    exact restoreFinish_wp known paid shown

/-- What was found in the data memory is there. -/
theorem restoreFrom_wp {owned : Bool} {operation : UInt16} (known : Known s j)
    (paid : exitOwed s.steps = false) (found : s.device.dm = before) :
    (restoreFrom mac j before owned operation).wp plant Over Sound s := by
  have checked : ∀ desired, (alreadyRestored mac before desired operation).wp plant
      (fun ok t => Sound t ∧ Mild s t ∧ (ok = true → s.device.dm = desired)) Sound s := by
    intro desired
    unfold alreadyRestored
    split
    · rename_i same
      apply mild_wp (verifyPairTimes_mild mac desired true 2) known.sound
      intro ok t sound mild
      exact ⟨sound, mild, fun _ => found.trans same.2⟩
    · exact ⟨known.sound, .refl s, nofun⟩
  unfold restoreFrom
  apply Prog.wp_bind (checked _)
  rintro already t ⟨sound, mild, shown⟩
  have known := known.mild sound mild
  split
  · rename_i done
    rw [Prog.wp_bind_iff]
    refine keep_wp known ?_ ?_
    · exact ⟨rfl, rfl, rfl, rfl, rfl⟩
    intro stored u replaced
    have paid := replaced.paid (mild.paid paid)
    cases stored with
    | false => exact Over.failed replaced.known.sound paid
    | true =>
      obtain ⟨durable, -⟩ := replaced.done rfl
      have resolved : Resolved u := Resolved.of_durable durable rfl
      have recorded : Recorded u :=
        ⟨_, durable, (shown done).symm.trans (mild.dm.symm.trans replaced.dm.symm)⟩
      exact clearTarget_wp replaced.known.sound paid resolved recorded
  · exact restoreRun_wp known (mild.paid paid)

theorem unexpectedDm_wp {observed : UInt16} (sound : Sound s) (paid : exitOwed s.steps = false) :
    (unexpectedDm observed).wp plant Over Sound s := by
  unfold unexpectedDm
  rw [Prog.wp_bind_iff]
  apply mild_wp (mild_of_quiet (gaugeWord_quiet _)) sound
  intro standard t sound mild
  cases standard with
  | none => exact Over.failed sound (mild.paid paid)
  | some standard => exact Over.failed sound (mild.paid paid)

theorem restoreQuiet_wp {expectedOld : UInt16} (known : Known s j)
    (paid : exitOwed s.steps = false) :
    (restoreQuiet mac expectedOld j).wp plant Over Sound s := by
  unfold restoreQuiet
  rw [Prog.wp_bind_iff]
  apply mild_wp (mild_of_quiet (gaugeQuietFull_quiet _)) known.sound
  intro quiet t sound mild
  have known := known.mild sound mild
  have paid := mild.paid paid
  cases quiet with
  | none => exact Over.failed sound paid
  | some operation =>
    rw [Prog.wp_bind_iff]
    apply mild_wp (mild_of_quiet gaugeIdentity_quiet) sound
    intro identity t sound mild
    have known := known.mild sound mild
    have paid := mild.paid paid
    split
    · exact Over.failed sound paid
    rw [Prog.wp_bind_iff]
    apply gaugePair_wp sound
    intro before u sound mild truth
    have known := known.mild sound mild
    have paid := mild.paid paid
    cases before with
    | none => exact Over.failed sound paid
    | some before =>
      dsimp only
      split
      · exact Over.failed sound paid
      split
      · exact unexpectedDm_wp sound paid
      · exact restoreFrom_wp known paid (mild.dm.trans (truth before rfl).symm)

theorem restoreNominal_wp {expectedOld : UInt16} (known : Known s j)
    (paid : exitOwed s.steps = false) :
    (restoreNominal mac expectedOld j).wp plant Over Sound s := by
  unfold restoreNominal
  rw [Prog.wp_bind_iff]
  apply mild_wp (mild_of_quiet (gaugeWord_quiet _)) known.sound
  intro operation t sound mild
  have known := known.mild sound mild
  have paid := mild.paid paid
  split
  · split
    · exact Over.failed sound paid
    split
    · exact Over.failed sound paid
    split
    · exact Over.failed sound paid
    exact restoreQuiet_wp known paid
  · exact Over.failed sound paid

end Restore

section Apply

variable {s t : Plant} {j : Journal} {mac : Bytes 6} {desired before : GaugePair} {why : String}
  {p : Progress}

theorem applyField_wp {post : Bool × Bool → Plant → Prop} {field : Field} {value : UInt16}
    {forward change : Bool} (h : Holding s j) (rest : ∀ r t, Holding t j → post r t) :
    (applyField j field value forward change).wp plant post Sound s := by
  unfold applyField
  split
  · rw [Prog.wp_bind_iff]
    apply gaugeWriteField_wp h
    intro ok t holding
    exact rest _ t holding
  · exact rest _ s h

private theorem nearBoot_mild (forward reload : Bool) : (nearBoot forward reload).Uses Call.mild := by
  unfold nearBoot
  split
  · exact (Prog.uses_perform _ _).mpr trivial
  · trivial

theorem applyWrite_wp {post : Progress → Plant → Prop} {changeFcc reload : Bool} (h : Holding s j)
    (rest : ∀ p t, Holding t j → (p.forward = true → t.device.dm = desired) → post p t) :
    (applyWrite mac j before desired changeFcc reload).wp plant post Sound s := by
  unfold applyWrite
  rw [Prog.wp_bind_iff]
  apply enterConfig_wp h
  intro entered t holding _
  rw [Prog.wp_bind_iff]
  apply verifiedWhere_wp holding.sound
  intro forward t sound mild _
  rw [Prog.wp_bind_iff]
  apply applyField_wp (holding.mild sound mild)
  rintro ⟨forward, touchedDc⟩ t holding
  dsimp only
  rw [Prog.wp_bind_iff]
  apply applyField_wp holding
  rintro ⟨forward, touchedFcc⟩ t holding
  dsimp only
  rw [Prog.wp_bind_iff]
  apply verifiedWhere_wp holding.sound
  intro shown u sound mild truth
  have holding := holding.mild sound mild
  rw [Prog.wp_bind_iff]
  apply mild_wp (nearBoot_mild shown reload) sound
  intro _ w sound mild'
  apply rest _ w (holding.mild sound mild')
  intro done
  exact mild'.dm.trans (mild.dm.trans (truth done).2)

theorem rollbackInPlace_wp {post : Bool → Plant → Prop} (h : Holding s j)
    (shown : p.forward = true → s.device.dm = desired)
    (rest : ∀ ok t, Holding t j → (p.forward = true → t.device.dm = desired) → post ok t) :
    (rollbackInPlace mac j before p).wp plant post Sound s := by
  unfold rollbackInPlace
  split
  · rename_i failed
    apply gaugeRollback_wp h
    intro ok t holding _
    apply rest ok t holding
    intro forward
    rw [forward] at failed
    cases failed
  · exact rest false s h shown

theorem applyCritical_wp (known : Known s j) (paid : exitOwed s.steps = false) :
    (applyCritical mac j why).wp plant Over Sound s := by
  unfold applyCritical
  rw [Prog.wp_bind_iff]
  apply keep_wp known (j.withState_same _)
  intro stored t replaced
  exact failed_wp (mild_of_quiet sampleBattery_quiet) replaced.known.sound (replaced.paid paid)

theorem rollbackAgain_wp {post : Bool × Bool → Plant → Prop} (h : Holding s j)
    (rest : ∀ r t, Known t j → exitOwed t.steps = false → post r t) :
    (rollbackAgain mac j before p).wp plant post Sound s := by
  have rolls : ∀ {post : Bool → Plant → Prop}, (∀ ok t, Holding t j → post ok t) →
      (enteredRollback mac j before p).wp plant post Sound s := by
    intro post rest
    unfold enteredRollback
    rw [Prog.wp_bind_iff]
    apply enterConfig_wp h
    intro entered t holding _
    split
    · exact rest false t holding
    · apply gaugeRollback_wp holding
      intro ok u holding _
      exact rest ok u holding
  unfold rollbackAgain
  rw [Prog.wp_bind_iff]
  apply rolls
  intro rolledBack t holding
  rw [Prog.wp_bind_iff]
  apply gaugeExitConfig_wp holding.sound
  intro exited u sound mild paid
  exact rest _ u (holding.known.mild sound mild) paid

theorem applyFinish_wp {forward exited rolledBack : Bool} (known : Known s j)
    (paid : exitOwed s.steps = false) (shown : forward = true → s.device.dm = desired) :
    (applyFinish mac j before desired p forward exited rolledBack).wp plant Over Sound s := by
  unfold applyFinish
  rw [Prog.wp_bind_iff]
  apply mild_wp (rolledBackShown_mild mac before p forward exited rolledBack) known.sound
  intro rolledBack t sound mild
  have known := known.mild sound mild
  have paid := mild.paid paid
  apply finish_wp known paid
  intro recorded u sound paid done
  split
  · exact Over.failed sound paid
  rename_i left
  split
  · exact Over.failed sound paid
  split
  · exact Over.failed sound paid
  rename_i stored
  split
  · exact Over.failed sound paid
  rename_i went
  obtain rfl : exited = true := by simpa using left
  obtain rfl : forward = true := by simpa using went
  have held : some desired = some t.device.dm := by rw [mild.dm, shown rfl]
  obtain ⟨resolved, recorded⟩ := done (by simpa using stored) rfl held
  exact ⟨sound, paid, fun _ => resolved, fun _ _ => recorded⟩

theorem applyExited_wp {rolledBack : Bool} (h : Holding s j) (paid : exitOwed s.steps = false)
    (shown : p.forward = true → s.device.dm = desired) :
    (applyExited mac j before desired p rolledBack).wp plant Over Sound s := by
  unfold applyExited
  split
  · rename_i forward
    rw [Prog.wp_bind_iff]
    apply mild_wp (verifyPairTimes_mild mac desired true 2) h.sound
    intro same t sound mild
    have holding := h.mild sound mild
    have paid := mild.paid paid
    split
    · exact applyFinish_wp holding.known paid fun _ => mild.dm.trans (shown forward)
    rw [Prog.wp_bind_iff]
    apply mild_wp (mild_of_quiet (gaugeWord_quiet _)) sound
    intro operation u sound mild
    have holding := holding.mild sound mild
    split
    · exact applyCritical_wp holding.known (mild.paid paid)
    rw [Prog.wp_bind_iff]
    apply rollbackAgain_wp holding
    rintro ⟨exited, rolledBack⟩ w known paid
    exact applyFinish_wp known paid nofun
  · exact applyFinish_wp h.known paid nofun

theorem applyRun_wp {changeFcc reload : Bool} (h : Holding s j) :
    (applyRun mac j before desired changeFcc reload).wp plant Over Sound s := by
  unfold applyRun
  rw [Prog.wp_bind_iff]
  apply applyWrite_wp h
  intro p t holding shown
  rw [Prog.wp_bind_iff]
  apply rollbackInPlace_wp holding shown
  intro rolledBack t holding shown
  rw [Prog.wp_bind_iff]
  apply gaugeExitConfig_wp holding.sound
  intro exited u sound mild paid
  have holding := holding.mild sound mild
  split
  · exact applyCritical_wp holding.known paid
  · exact applyExited_wp holding paid fun forward => mild.dm.trans (shown forward)

private theorem applyRecheck_mild (before : GaugePair) : (applyRecheck before).Uses Call.mild := by
  apply Prog.Uses.bind (mild_of_quiet (gaugeQuietFull_quiet false))
  intro operation
  split
  · apply Prog.Uses.bind gaugePair_mild
    intro pair
    split
    · exact mild_of_quiet (gaugeStandardMatches_quiet before)
    · trivial
  · trivial

private theorem bootDiagnostic_mild (reload : Bool) : (bootDiagnostic reload).Uses Call.mild := by
  unfold bootDiagnostic
  split
  · exact (Prog.uses_perform _ _).mpr trivial
  · trivial

theorem applyJournalled_wp {changeFcc : Bool} (sound : Sound s) (paid : exitOwed s.steps = false)
    (storable : Storable s j.seal) (target : j.targetDesign = nominalMah)
    (pending : j.state = State.pending.byte) :
    (applyJournalled mac j before desired changeFcc).wp plant Over Sound s := by
  unfold applyJournalled
  rw [Prog.wp_bind_iff]
  apply pend_wp sound storable target pending
  intro stored t sound _ paid' holding
  have paid := paid' paid
  split
  · exact Over.failed sound paid
  rename_i done
  have holding := holding (by simpa using done)
  rw [Prog.wp_bind_iff]
  apply mild_wp (applyRecheck_mild before) sound
  intro checked u sound mild
  have holding := holding.mild sound mild
  have paid := mild.paid paid
  split
  · exact Over.failed sound paid
  rw [Prog.wp_bind_iff]
  apply mild_wp (mild_of_quiet (gate_quiet _)) sound
  intro reload w sound mild
  have holding := holding.mild sound mild
  rw [Prog.wp_bind_iff]
  apply mild_wp (bootDiagnostic_mild reload) sound
  intro _ x sound mild
  exact applyRun_wp (holding.mild sound mild)

end Apply

section Command

variable {s t : Plant} {j : Journal} {mac : Bytes 6} {desired before : GaugePair} {why : String}

/-- A journal that was loaded is the stored one. -/
theorem loadJournal_wp {post : Except Status Journal → Plant → Prop} (sound : Sound s)
    (rest : ∀ r t, Sound t → Mild s t →
      (∀ j, r = .ok j → t.cell.durable = some j ∧ j.targetDesign = nominalMah) →
      (r = .error .notFound → t.cell.durable = none) → post r t) :
    (gaugeLoadJournal mac).wp plant post Sound s := by
  unfold gaugeLoadJournal load
  apply (Prog.wp_perform_bind ..).mpr
  rintro opened _ ⟨cell, device, acts, moves, rfl⟩
  obtain ⟨sound, mild⟩ := mild_step (c := .nvsOpen .gaugecal false) trivial sound acts moves
  obtain ⟨rfl, missing⟩ := acts
  refine ⟨sound, ?_⟩
  cases opened with
  | notFound => exact rest _ _ sound mild nofun fun _ => missing rfl
  | failed => exact rest _ _ sound mild nofun nofun
  | ok =>
    apply (Prog.wp_perform_bind ..).mpr
    rintro found _ ⟨cell, device', acts, moves, rfl⟩
    obtain ⟨sound, mild'⟩ := mild_step (c := .nvsGet .nominal) trivial sound acts moves
    have mild := mild.trans mild'
    obtain ⟨rfl, truth, missing⟩ := acts
    refine ⟨sound, ?_⟩
    cases found with
    | error e =>
      cases e with
      | notFound => exact rest _ _ sound mild nofun fun _ => missing rfl
      | ok | failed => exact rest _ _ sound mild nofun nofun
    | ok v =>
      show Prog.wp plant (pure (if validJournal v mac = true then Except.ok v else .error .failed))
        post Sound _
      split
      · rename_i fits
        refine rest (.ok v) _ sound mild (fun j same => ?_) nofun
        cases same
        refine ⟨truth v rfl, ?_⟩
        simp only [validJournal, Bool.and_eq_true, beq_iff_eq] at fits
        exact fits.1.1.1.1.1.2
      · exact rest _ _ sound mild nofun nofun

private theorem freshJournal_covers {changeFcc : Bool}
    (policy : capacityPolicy before.design before.fcc = true)
    (change : changeFcc = (before.design == factoryMah && before.fcc == factoryMah)) :
    (freshJournal mac before desired changeFcc).covers before = true := by
  simp only [Journal.covers, restorePairAllowed, freshJournal, beq_self_eq_true, Bool.true_or,
    Bool.true_and]
  cases changeFcc with
  | true => rfl
  | false =>
    simp only [capacityPolicy, Bool.and_eq_true, Bool.or_eq_true, beq_iff_eq] at policy
    obtain reasonable | ⟨design, fcc⟩ := policy.2
    · exact reasonable
    · rw [design, fcc] at change
      cases change

theorem applyFrom_wp {saved : Option Journal} {operation : UInt16} (sound : Sound s)
    (paid : exitOwed s.steps = false) (durable : s.cell.durable = saved)
    (targets : ∀ j, saved = some j → j.targetDesign = nominalMah) (found : s.device.dm = before) :
    (applyFrom mac saved before operation).wp plant Over Sound s := by
  unfold applyFrom
  split
  · exact Over.failed sound paid
  rename_i unresolved
  split
  · exact Over.failed sound paid
  rename_i policy
  split
  · refine ⟨sound, paid, fun _ j stored => ?_, fun _ other => ?_⟩
    · rw [← durable, stored] at unresolved
      exact eq_false_of_ne_true unresolved
    · exact absurd (List.mem_cons_self ..) other
  dsimp only
  split
  · exact Over.failed sound paid
  have storable : Storable s (saved.getD (freshJournal mac before
      { design := nominalMah
        fcc := if before.design == factoryMah && before.fcc == factoryMah then nominalMah
          else before.fcc }
      (before.design == factoryMah && before.fcc == factoryMah))) := by
    cases saved with
    | none =>
      refine ⟨fun _ => ?_, fun pair known => ?_⟩
      · rw [found]
        exact freshJournal_covers (by simpa using policy) rfl
      · rw [← sound.original, durable] at known
        cases known
    | some j => exact Known.storable ⟨sound, targets j rfl, j, durable, .refl j⟩ (.refl j)
  refine applyJournalled_wp sound paid ⟨storable.held, storable.original⟩ ?_ rfl
  cases saved with
  | none => rfl
  | some j => exact targets j rfl

theorem applyNominal_wp {expectedOld : UInt16} {saved : Option Journal} {telemetry : Telemetry}
    (sound : Sound s) (paid : exitOwed s.steps = false) (durable : s.cell.durable = saved)
    (targets : ∀ j, saved = some j → j.targetDesign = nominalMah) :
    (applyNominal mac expectedOld saved telemetry).wp plant Over Sound s := by
  unfold applyNominal
  split
  · exact Over.failed sound paid
  split
  · exact Over.failed sound paid
  split
  · exact Over.failed sound paid
  split
  · exact Over.failed sound paid
  rw [Prog.wp_bind_iff]
  apply mild_wp (mild_of_quiet (gaugeQuietFull_quiet false)) sound
  intro quiet t sound mild
  cases quiet with
  | none => exact Over.failed sound (mild.paid paid)
  | some operation =>
    rw [Prog.wp_bind_iff]
    apply mild_wp (mild_of_quiet gaugeIdentity_quiet) sound
    intro identity t sound mild'
    have mild := mild.trans mild'
    split
    · exact Over.failed sound (mild.paid paid)
    rw [Prog.wp_bind_iff]
    apply gaugePair_wp sound
    intro before u sound mild' truth
    have mild := mild.trans mild'
    cases before with
    | none => exact Over.failed sound (mild.paid paid)
    | some before =>
      dsimp only
      split
      · exact Over.failed sound (mild.paid paid)
      rw [Prog.wp_bind_iff]
      apply mild_wp (mild_of_quiet (gaugeStandardMatches_quiet before)) sound
      intro same w sound mild''
      have found : w.device.dm = before := mild''.dm.trans (mild'.dm.trans (truth before rfl).symm)
      have mild := mild.trans mild''
      split
      · exact Over.failed sound (mild.paid paid)
      · exact applyFrom_wp sound (mild.paid paid) (by rw [mild.cell, durable]) targets found

theorem setNominal_wp {expectedOld target65 : UInt16} {restore : Bool} (sound : Sound s)
    (paid : exitOwed s.steps = false) :
    (setNominal mac expectedOld target65 restore).wp plant Over Sound s := by
  unfold setNominal
  split
  · exact Over.failed sound paid
  rw [Prog.wp_bind_iff]
  apply mild_wp (mild_of_quiet (gate_quiet _)) sound
  intro selftest t sound mild
  have paid := mild.paid paid
  split
  · exact Over.failed sound paid
  rw [Prog.wp_bind_iff]
  apply mild_wp (mild_of_quiet (gate_quiet _)) sound
  intro present t sound mild
  have paid := mild.paid paid
  split
  · exact Over.failed sound paid
  rw [Prog.wp_bind_iff]
  apply loadJournal_wp sound
  intro loaded t sound mild truth missing
  have paid := mild.paid paid
  cases loaded with
  | ok journal =>
    obtain ⟨durable, target⟩ := truth journal rfl
    dsimp only
    rw [Prog.wp_bind_iff]
    apply mild_wp (mild_of_quiet sampleBattery_quiet) sound
    intro telemetry u sound mild
    have durable := (congrArg Cell.durable mild.cell).trans durable
    have paid := mild.paid paid
    split
    · exact restoreNominal_wp ⟨sound, target, journal, durable, .refl journal⟩ paid
    · apply applyNominal_wp sound paid durable
      intro j same
      cases same
      exact target
  | error e =>
    cases e with
    | notFound =>
      dsimp only
      split
      · exact Over.failed sound paid
      rw [Prog.wp_bind_iff]
      apply mild_wp (mild_of_quiet sampleBattery_quiet) sound
      intro telemetry u sound mild
      have durable := (congrArg Cell.durable mild.cell).trans (missing rfl)
      exact applyNominal_wp sound (mild.paid paid) durable nofun
    | ok | failed => exact Over.failed sound paid

end Command

end Mosaico.Gauge.Hal
