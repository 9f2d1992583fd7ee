import Mosaico.Gauge.HalAccess

/-! Which calls the functions of the gauge make: most of them only read. -/
namespace Mosaico.Gauge.Hal

open ByteFields Interaction DurableCell

abbrev Step := (c : Call) × Answer c

def lastStatus : List Step → Option UInt16
  | [] => none
  | ⟨.read reg, b⟩ :: older => if reg = 0x3a then b.map word else lastStatus older
  | _ :: older => lastStatus older

def controlPackets : List (List UInt8) := [[0, 0x01, 0], [0, 0x91, 0]]

/-- A call that neither stores nor sends more than that. -/
def Call.quiet : Call → Prop
  | .transmit packet => packet ∈ controlPackets
  | .nvsSet _ _ | .nvsCommit _ => False
  | _ => True

section Quiet

theorem gate_quiet (g : Gate) : (gate g).Uses Call.quiet := (Prog.uses_perform _ _).mpr trivial

theorem transmit_quiet {packet : List UInt8} (mem : packet ∈ controlPackets) :
    (transmit packet).Uses Call.quiet := (Prog.uses_perform _ _).mpr mem

theorem gaugeRead_quiet (reg : UInt8) : (gaugeRead reg).Uses Call.quiet :=
  (Prog.uses_perform _ _).mpr trivial

theorem gaugeWord_quiet (reg : UInt8) : (gaugeWord reg).Uses Call.quiet :=
  Prog.Uses.bind (gaugeRead_quiet reg) fun _ => trivial

theorem sampleBattery_quiet : sampleBattery.Uses Call.quiet := by
  apply Prog.Uses.bind (gate_quiet .present)
  intro present
  split
  · trivial
  · repeat apply Prog.Uses.bind (gaugeWord_quiet _); intro _
    trivial

theorem report_quiet (success : Bool) (why : String) (cleanup : Cleanup) :
    (report success why cleanup).Uses Call.quiet :=
  Prog.Uses.bind sampleBattery_quiet fun _ => trivial

theorem gaugeControl_quiet {command : GaugeCommand} (other : command ≠ .enterConfig) :
    (gaugeControl command).Uses Call.quiet := by
  have sent : (transmit [0, low command.value, high command.value]).Uses Call.quiet := by
    apply transmit_quiet
    cases command with
    | enterConfig => exact absurd rfl other
    | identity | exitReinit => decide
  unfold gaugeControl
  split
  · apply Prog.Uses.bind (gate_quiet _)
    intro allowed
    split
    · trivial
    · exact sent
  · exact sent

theorem identityReads_quiet (n : Nat) : (identityReads n).Uses Call.quiet := by
  induction n with
  | zero => trivial
  | succ n ih =>
    apply Prog.Uses.bind (gaugeWord_quiet _)
    intro identity
    split
    · exact ih
    · trivial

theorem gaugeIdentity_quiet : gaugeIdentity.Uses Call.quiet := by
  apply Prog.Uses.bind (gaugeControl_quiet (by decide))
  intro sent
  split
  · trivial
  · exact identityReads_quiet 2

theorem waitSecurity_quiet (expected : UInt16) (n : Nat) :
    (waitSecurity expected n).Uses Call.quiet := by
  induction n with
  | zero => trivial
  | succ n ih =>
    apply Prog.Uses.bind (gaugeWord_quiet _)
    intro operation
    split
    · exact ih
    · split_ifs
      · trivial
      · trivial
      · exact ih

theorem waitConfig_quiet (enter : Bool) (n : Nat) : (waitConfig enter n).Uses Call.quiet := by
  induction n with
  | zero => trivial
  | succ n ih =>
    apply Prog.Uses.bind (gaugeWord_quiet _)
    intro operation
    split
    · exact ih
    · split_ifs <;> trivial

theorem exitSent_quiet (officialCleanup : Bool) : (exitSent officialCleanup).Uses Call.quiet := by
  unfold exitSent
  split
  · exact transmit_quiet (by decide)
  · exact gaugeControl_quiet (by decide)

theorem gaugeExitConfig_quiet (officialCleanup : Bool) :
    (gaugeExitConfig officialCleanup).Uses Call.quiet := by
  apply Prog.Uses.bind ((Prog.uses_perform _ _).mpr trivial)
  intro _
  apply Prog.Uses.bind (gaugeWord_quiet _)
  intro operation
  split
  · split_ifs
    · trivial
    · trivial
    · exact waitConfig_quiet false 10
    · trivial
    · apply Prog.Uses.bind (exitSent_quiet officialCleanup)
      intro sent
      exact Prog.Uses.bind (waitConfig_quiet false 10) fun _ => trivial
  · trivial

theorem accessPreflight_quiet : accessPreflight.Uses Call.quiet := by
  unfold accessPreflight
  repeat apply Prog.Uses.bind (gaugeWord_quiet _); intro _
  apply Prog.Uses.bind (gate_quiet _)
  intro reload
  split
  · split_ifs <;> trivial
  · trivial

theorem steady_quiet (expected : UInt16) (profile : GaugePair) :
    (steady expected profile).Uses Call.quiet := by
  apply Prog.Uses.bind accessPreflight_quiet
  intro found
  split <;> trivial

theorem observedSecurity_quiet : observedSecurity.Uses Call.quiet := by
  apply Prog.Uses.bind (gaugeWord_quiet _)
  intro operation
  split <;> trivial

theorem load_quiet (k : Key) (valid : Blob k → Bool) : (load k valid).Uses Call.quiet := by
  apply Prog.Uses.bind ((Prog.uses_perform _ _).mpr trivial)
  intro opened
  split
  · apply Prog.Uses.bind ((Prog.uses_perform _ _).mpr trivial)
    intro found
    split <;> trivial
  · trivial

theorem accessCandidate_quiet (mac : Bytes 6) (profile : GaugePair) :
    (accessCandidate mac profile).Uses Call.quiet := by
  unfold accessCandidate
  split
  · trivial
  · apply Prog.Uses.bind (load_quiet _ _)
    intro found
    split <;> trivial

theorem fenced_quiet (action : Action) : (fenced action).Uses Call.quiet := by
  unfold fenced
  split
  · trivial
  · apply Prog.Uses.bind (gate_quiet _)
    intro busy
    split
    · trivial
    · exact Prog.Uses.bind (gate_quiet _) fun _ => trivial

theorem gaugeReady_quiet : gaugeReady.Uses Call.quiet := by
  apply Prog.Uses.bind (gate_quiet _)
  intro present
  split
  · trivial
  · exact gate_quiet _

end Quiet

end Mosaico.Gauge.Hal
