import Mosaico.Gauge.HalNominalSteps

/-! What of the command neither touches the journal nor the data memory: the looks at the gauge, the
access and the normal target. -/
namespace Mosaico.Gauge.Hal

open ByteFields Interaction DurableCell

section Looks

theorem standardPair_quiet : standardPair.Uses Call.quiet := by
  apply Prog.Uses.bind (gaugeWord_quiet _)
  intro dc
  split
  · apply Prog.Uses.bind (gaugeWord_quiet _)
    intro fcc
    split <;> trivial
  · trivial

theorem gaugeStandardMatches_quiet (pair : GaugePair) :
    (gaugeStandardMatches pair).Uses Call.quiet := by
  apply Prog.Uses.bind (gaugeWord_quiet _)
  intro dc
  exact Prog.Uses.bind (gaugeWord_quiet _) fun _ => trivial

theorem gaugeQuietFull_quiet (owned : Bool) : (gaugeQuietFull owned).Uses Call.quiet := by
  unfold gaugeQuietFull
  repeat apply Prog.Uses.bind (gaugeWord_quiet _); intro _
  apply Prog.Uses.bind (gate_quiet _)
  intro reload
  split
  · split
    · exact Prog.Uses.bind standardPair_quiet fun _ => trivial
    · trivial
  · trivial

theorem gaugePair_mild : gaugePair.Uses Call.mild := by
  apply Prog.Uses.bind (gaugeMacWord_mild .design)
  intro design
  apply Prog.Uses.bind (gaugeMacWord_mild .initialFcc)
  intro fcc
  split <;> trivial

theorem gaugeSealedPriorVerified_quiet (mac : Bytes 6) :
    (gaugeSealedPriorVerified mac).Uses Call.quiet := by
  apply Prog.Uses.bind (gate_quiet _)
  intro factory
  split
  · trivial
  · apply Prog.Uses.bind (load_quiet _ _)
    intro found
    split <;> trivial

theorem pairShown_mild (desired : GaugePair) (standard : Bool) :
    (pairShown desired standard).Uses Call.mild := by
  apply Prog.Uses.bind gaugePair_mild
  intro shown
  split_ifs
  · trivial
  · exact mild_of_quiet (gaugeStandardMatches_quiet desired)
  · trivial

theorem sealedShown_quiet (mac : Bytes 6) (desired : GaugePair) :
    (sealedShown mac desired).Uses Call.quiet := by
  apply Prog.Uses.bind (gaugeSealedPriorVerified_quiet mac)
  intro verified
  split
  · trivial
  · apply Prog.Uses.bind gaugeIdentity_quiet
    intro identity
    split
    · trivial
    · exact gaugeStandardMatches_quiet desired

private theorem standardShown_mild (mac : Bytes 6) (desired : GaugePair) :
    (standardShown mac desired).Uses Call.mild := by
  apply Prog.Uses.bind (mild_of_quiet (gaugeWord_quiet _))
  intro operation
  split
  · trivial
  · split_ifs
    · trivial
    · exact mild_of_quiet (sealedShown_quiet mac desired)
    · exact pairShown_mild desired true

theorem verifyPairTimes_mild (mac : Bytes 6) (desired : GaugePair) (standard : Bool) (n : Nat) :
    (verifyPairTimes mac desired standard n).Uses Call.mild := by
  induction n with
  | zero => trivial
  | succ n ih =>
    have next : ∀ shown : Bool,
        (if shown then verifyPairTimes mac desired standard n else pure false).Uses Call.mild := by
      intro shown
      cases shown with
      | false => trivial
      | true => exact ih
    unfold verifyPairTimes
    cases standard with
    | false => exact Prog.Uses.bind (pairShown_mild desired false) next
    | true => exact Prog.Uses.bind (standardShown_mild mac desired) next

theorem verifiedWhere_mild (mac : Bytes 6) (go : Bool) (desired : GaugePair) (standard : Bool) :
    (verifiedWhere mac go desired standard).Uses Call.mild := by
  unfold verifiedWhere
  split
  · exact verifyPairTimes_mild mac desired standard 2
  · trivial

theorem rolledBackShown_mild (mac : Bytes 6) (before : GaugePair) (p : Progress)
    (forward exited rolledBack : Bool) :
    (rolledBackShown mac before p forward exited rolledBack).Uses Call.mild := by
  have untouched : (untouchedShown mac before p forward rolledBack).Uses Call.mild := by
    unfold untouchedShown
    split
    · exact verifyPairTimes_mild mac before true 2
    · trivial
  apply Prog.Uses.bind untouched
  intro rolledBack
  split
  · exact verifiedWhere_mild mac exited before true
  · trivial

theorem fencedNominal_quiet (restore : Bool) : (fencedNominal restore).Uses Call.quiet := by
  have rest : ∀ busy : Bool, (if busy then pure true else do
      return !(← gate .normalFence) : Bus Bool).Uses Call.quiet := by
    intro busy
    cases busy with
    | true => trivial
    | false => exact Prog.Uses.bind (gate_quiet _) fun _ => trivial
  unfold fencedNominal
  cases restore with
  | true => exact rest false
  | false => exact Prog.Uses.bind (gate_quiet _) rest

theorem look_quiet : look.Uses Call.quiet := by
  apply Prog.Uses.bind (gate_quiet _)
  intro present
  split
  · trivial
  · apply Prog.Uses.bind (gaugeWord_quiet _)
    intro operation
    split
    · trivial
    · split_ifs
      · have shown : nominalShown.Uses Call.quiet :=
          Prog.Uses.bind standardPair_quiet fun _ => trivial
        exact Prog.Uses.bind shown fun _ => trivial
      · trivial

theorem reconcileReads_quiet (nominal : Journal) (n : Nat) :
    (reconcileReads nominal n).Uses Call.quiet := by
  induction n with
  | zero => trivial
  | succ n ih =>
    apply Prog.Uses.bind gaugeIdentity_quiet
    intro identity
    split
    · trivial
    · apply Prog.Uses.bind sampleBattery_quiet
      intro sample
      split_ifs
      · trivial
      · trivial
      · exact ih

end Looks

section Access

variable (mac : Bytes 6)

/-- Records other than the journal. -/
theorem store_mild {k : Key} (other : k ≠ .nominal) (same : Blob k → Blob k → Bool)
    (valid : Blob k → Bool) (v : Blob k) : (store k same valid v).Uses Call.mild := by
  have put : (Call.nvsSet k v).mild := by
    cases k with
    | nominal => exact absurd rfl other
    | access | normalTarget => trivial
  have commit : (Call.nvsCommit k).mild := by
    cases k with
    | nominal => exact absurd rfl other
    | access | normalTarget => trivial
  unfold store
  split
  · trivial
  apply Prog.Uses.bind ((Prog.uses_perform _ _).mpr trivial)
  intro opened
  split
  · trivial
  apply Prog.Uses.bind ((Prog.uses_perform _ _).mpr put)
  intro written
  split
  · trivial
  apply Prog.Uses.bind ((Prog.uses_perform _ _).mpr commit)
  intro committed
  split
  · trivial
  apply Prog.Uses.bind (mild_of_quiet (load_quiet _ _))
  intro found
  split <;> trivial

theorem gaugeStoreNormalTarget_mild (target : UInt16) :
    (gaugeStoreNormalTarget target).Uses Call.mild := store_mild (by decide) _ _ _

theorem gaugeStoreAccess_mild (journal : AccessJournal) :
    (gaugeStoreAccess mac journal).Uses Call.mild := store_mild (by decide) _ _ _

theorem gaugeAccessWord_mild (w : AccessWord) : (gaugeAccessWord w).Uses Call.mild := by
  have lowMild : (Call.transmit w.lowPacket).mild := by
    refine ⟨rfl, rfl, fun same => ?_⟩
    cases congrArg List.length same
  have highMild : (Call.transmit w.highPacket).mild := by
    refine ⟨rfl, rfl, fun same => ?_⟩
    cases congrArg List.length same
  apply Prog.Uses.bind (mild_of_quiet (gate_quiet _))
  intro allowed
  split
  · trivial
  apply Prog.Uses.bind ((Prog.uses_perform _ _).mpr lowMild)
  intro sent
  split
  · trivial
  · exact (Prog.uses_perform _ _).mpr highMild

theorem keyed_mild (first second : AccessWord) (expected : UInt16) :
    (keyed first second expected).Uses Call.mild := by
  have words : (accessWords first second).Uses Call.mild := by
    apply Prog.Uses.bind (gaugeAccessWord_mild first)
    intro sent
    split
    · trivial
    · exact gaugeAccessWord_mild second
  apply Prog.Uses.bind words
  intro sent
  exact Prog.Uses.bind (mild_of_quiet (waitSecurity_quiet expected 20)) fun _ => trivial

theorem gaugeReturnAccess_mild (journal : AccessJournal) :
    (gaugeReturnAccess journal).Uses Call.mild := by
  have leave : ∀ operation, (leaveConfig operation).Uses Call.mild := by
    intro operation
    unfold leaveConfig
    split
    · exact mild_of_quiet (gaugeExitConfig_quiet false)
    · trivial
  have again : sealAgain.Uses Call.mild := by
    apply Prog.Uses.bind (mild_of_quiet (gaugeWord_quiet _))
    intro operation
    split
    · split_ifs
      · trivial
      · apply Prog.Uses.bind (gaugeAccessWord_mild .seal)
        intro sent
        exact mild_of_quiet (waitSecurity_quiet 3 20)
    · trivial
  apply Prog.Uses.bind (mild_of_quiet (gaugeWord_quiet _))
  intro operation
  split
  · split
    · trivial
    · apply Prog.Uses.bind (leave _)
      intro left
      split
      · trivial
      apply Prog.Uses.bind (mild_of_quiet (gaugeWord_quiet _))
      intro operation
      split
      · split_ifs
        · trivial
        · exact mild_of_quiet (waitSecurity_quiet _ 20)
        · trivial
        · exact again
      · trivial
  · trivial

theorem report_mild (success : Bool) (why : String) (cleanup : Cleanup) :
    (report success why cleanup).Uses Call.mild := mild_of_quiet (report_quiet success why cleanup)

theorem closeAccess_mild (journal : AccessJournal) : (closeAccess mac journal).Uses Call.mild := by
  apply Prog.Uses.bind (gaugeReturnAccess_mild journal)
  intro restored
  apply Prog.Uses.bind (mild_of_quiet observedSecurity_quiet)
  intro last
  exact Prog.Uses.bind (gaugeStoreAccess_mild mac _) fun _ => trivial

theorem abort_mild (journal : AccessJournal) : (abort mac journal).Uses Call.mild := by
  apply Prog.Uses.bind (closeAccess_mild mac journal)
  intro closed
  exact report_mild _ _ _

theorem restoreAccess_mild (journal : AccessJournal) :
    (restoreAccess mac journal).Uses Call.mild := by
  apply Prog.Uses.bind (mild_of_quiet gaugeIdentity_quiet)
  intro identity
  split
  · exact report_mild _ _ _
  · apply Prog.Uses.bind (closeAccess_mild mac journal)
    intro closed
    split
    split_ifs <;> exact report_mild _ _ _

theorem conclude_mild (journal : AccessJournal) : (conclude mac journal).Uses Call.mild := by
  apply Prog.Uses.bind (gaugeStoreAccess_mild mac _)
  intro stored
  split
  · exact abort_mild mac _
  · exact report_mild _ _ _

private theorem fullPhase_mild (profile : GaugePair) (journal : AccessJournal) :
    (fullPhase mac profile journal).Uses Call.mild := by
  apply Prog.Uses.bind (gaugeStoreAccess_mild mac _)
  intro stored
  split
  · exact abort_mild mac _
  apply Prog.Uses.bind (mild_of_quiet (steady_quiet 2 profile))
  intro same
  split
  · exact abort_mild mac _
  apply Prog.Uses.bind (keyed_mild _ _ _)
  intro opened
  split
  · exact abort_mild mac _
  · exact conclude_mild mac _

private theorem unsealPhase_mild (profile : GaugePair) (journal : AccessJournal) :
    (unsealPhase mac profile journal).Uses Call.mild := by
  apply Prog.Uses.bind (gaugeStoreAccess_mild mac _)
  intro stored
  split
  · exact abort_mild mac _
  apply Prog.Uses.bind (mild_of_quiet (steady_quiet 3 profile))
  intro same
  split
  · exact abort_mild mac _
  apply Prog.Uses.bind (keyed_mild _ _ _)
  intro opened
  split
  · exact abort_mild mac _
  · exact fullPhase_mild mac profile _

theorem openFrom_mild (saved : Option AccessJournal) (operation : UInt16) (profile : GaugePair) :
    (openFrom mac saved operation profile).Uses Call.mild := by
  have begins : (beginAccess mac operation profile).Uses Call.mild := by
    apply Prog.Uses.bind (gaugeStoreAccess_mild mac _)
    intro stored
    split
    · exact report_mild _ _ _
    apply Prog.Uses.bind (mild_of_quiet (steady_quiet _ profile))
    intro same
    split
    · exact report_mild _ _ _
    · split_ifs
      · exact unsealPhase_mild mac profile _
      · exact conclude_mild mac _
  unfold openFrom
  split_ifs
  · exact report_mild _ _ _
  · exact report_mild _ _ _
  · exact report_mild _ _ _
  · exact report_mild _ _ _
  · exact begins

private theorem openAccess_mild (saved : Option AccessJournal) : (openAccess mac saved).Uses Call.mild := by
  apply Prog.Uses.bind (mild_of_quiet accessPreflight_quiet)
  intro found
  split
  · exact report_mild _ _ _
  · apply Prog.Uses.bind (mild_of_quiet gaugeIdentity_quiet)
    intro identity
    split
    · exact report_mild _ _ _
    apply Prog.Uses.bind (mild_of_quiet (accessCandidate_quiet mac _))
    intro candidate
    split
    · exact report_mild _ _ _
    · exact openFrom_mild mac saved _ _

theorem gaugeAccess_mild (action : Action) (cleanup : Cleanup) :
    (gaugeAccess mac action cleanup).Uses Call.mild := by
  apply Prog.Uses.bind (mild_of_quiet (gate_quiet _))
  intro leased
  split
  · trivial
  apply Prog.Uses.bind (mild_of_quiet (fenced_quiet action))
  intro fenced
  split
  · trivial
  apply Prog.Uses.bind (mild_of_quiet gaugeReady_quiet)
  intro ready
  split
  · exact report_mild _ _ _
  apply Prog.Uses.bind (mild_of_quiet (load_quiet _ _))
  intro found
  split
  · exact restoreAccess_mild mac _
  · exact openAccess_mild mac _
  · exact report_mild _ _ _
  · exact openAccess_mild mac _
  · exact report_mild _ _ _

end Access

end Mosaico.Gauge.Hal
