import Mosaico.Gauge.HalNominalSafety

/-! Calls of `gaugeSetNominalCapacity` one after the other, each cut anywhere or run to its end. -/
namespace Mosaico.Gauge.Hal

open ByteFields Interaction DurableCell

section Reconcile

variable {s t : Plant} {j : Journal} {mac : Bytes 6}

theorem reconcileStore_wp {sample : Telemetry} (known : Known s j)
    (paid : exitOwed s.steps = false) : (reconcileStore mac j sample).wp plant Over Sound s := by
  unfold reconcileStore
  rw [Prog.wp_bind_iff]
  refine keep_wp known ((Journal.withLast_same _ _).trans (j.withState_same _)) ?_
  intro stored t replaced
  have paid := replaced.paid paid
  cases stored with
  | false => exact Over.failed replaced.known.sound paid
  | true =>
    obtain ⟨durable, -⟩ := replaced.done rfl
    have resolved : Resolved t := Resolved.of_durable durable rfl
    show Prog.wp plant (gaugeStoreNormalTarget nominalMah >>= _) Over Sound t
    rw [Prog.wp_bind_iff]
    apply mild_wp (gaugeStoreNormalTarget_mild nominalMah) replaced.known.sound
    intro target u sound mild
    split
    · exact Over.failed sound (mild.paid paid)
    · refine ⟨sound, mild.paid paid, fun _ => resolved.mild mild, fun _ other => absurd ?_ other⟩
      exact List.mem_cons_of_mem _ (List.mem_cons_self ..)

theorem reconcileFrom_wp (known : Known s j) (paid : exitOwed s.steps = false) :
    (reconcileFrom mac j).wp plant Over Sound s := by
  unfold reconcileFrom
  split
  · exact Over.failed known.sound paid
  split
  · exact Over.failed known.sound paid
  rw [Prog.wp_bind_iff]
  apply mild_wp (mild_of_quiet (load_quiet _ _)) known.sound
  intro access t sound mild
  have known := known.mild sound mild
  have paid := mild.paid paid
  cases access with
  | error e => exact Over.failed sound paid
  | ok access =>
    dsimp only
    split
    · exact Over.failed sound paid
    rw [Prog.wp_bind_iff]
    apply mild_wp (mild_of_quiet (reconcileReads_quiet j 2)) sound
    intro seen u sound mild
    have paid := mild.paid paid
    cases seen with
    | error why => exact Over.failed sound paid
    | ok sample => exact reconcileStore_wp (known.mild sound mild) paid

theorem gaugeReconcileNominal_wp (sound : Sound s) (paid : exitOwed s.steps = false) :
    (gaugeReconcileNominal mac).wp plant Over Sound s := by
  unfold gaugeReconcileNominal
  rw [Prog.wp_bind_iff]
  apply mild_wp (mild_of_quiet (gate_quiet _)) sound
  intro lease t sound mild
  have paid := mild.paid paid
  split
  · exact Over.failed sound paid
  rw [Prog.wp_bind_iff]
  apply mild_wp (mild_of_quiet (gate_quiet _)) sound
  intro fence t sound mild
  have paid := mild.paid paid
  split
  · exact Over.failed sound paid
  rw [Prog.wp_bind_iff]
  apply mild_wp (mild_of_quiet gaugeReady_quiet) sound
  intro ready t sound mild
  have paid := mild.paid paid
  split
  · exact Over.failed sound paid
  rw [Prog.wp_bind_iff]
  apply loadJournal_wp sound
  intro loaded t sound mild truth _
  have paid := mild.paid paid
  cases loaded with
  | error e => exact Over.failed sound paid
  | ok nominal =>
    obtain ⟨durable, target⟩ := truth nominal rfl
    dsimp only
    split
    · exact Over.failed sound paid
    · exact reconcileFrom_wp ⟨sound, target, nominal, durable, .refl nominal⟩ paid

end Reconcile

section Command

variable {s t : Plant} {mac : Bytes 6}

/-- A result, where there is one, is told as it is. -/
def Told (r : Option Outcome) (t : Plant) : Prop := ∀ out, r = some out → Over out t

theorem told {program : Bus Outcome} (ended : program.wp plant Over Sound s) :
    (do return some (← program) : Bus (Option Outcome)).wp plant Told Sound s := by
  rw [Prog.wp_bind_iff]
  apply Prog.wp_mono ended _ fun _ => id
  intro out t last out' same
  cases same
  exact last

theorem Told.failed {why : String} (sound : Sound t) (paid : exitOwed t.steps = false) :
    Told (some (outcome false why)) t := by
  intro out same
  cases same
  exact Over.failed sound paid

private theorem closeOwner_mild (opened : Bool) (cleanup : Cleanup) :
    (closeOwner mac opened cleanup).Uses Call.mild := by
  unfold closeOwner
  split
  · exact Prog.Uses.bind (gaugeAccess_mild mac .restore cleanup) fun _ => trivial
  · trivial

/-- After the inner command the gauge is closed, and what was reached is looked at. -/
theorem sealedOwner_wp {apply_ : Cleanup → Bus (Option Outcome)} {cleanup : Cleanup}
    (inner : ∀ cleanup t, Sound t → exitOwed t.steps = false →
      (apply_ cleanup).wp plant Told Sound t)
    (sound : Sound s) (paid : exitOwed s.steps = false) :
    (sealedOwner mac apply_ cleanup).wp plant Told Sound s := by
  have closes : ∀ (opened : Bool) (cleanup : Cleanup) (applied : Outcome) t, Sound t →
      exitOwed t.steps = false → (do
        let closed ← closeOwner mac opened cleanup
        if !closed then return some (outcome false "critical_nominal_final_seal")
        else if !applied.success then return some (outcome false applied.reason)
        else return some (← gaugeReconcileNominal mac) : Bus (Option Outcome)).wp plant Told Sound t := by
    intro opened cleanup applied t sound paid
    rw [Prog.wp_bind_iff]
    apply mild_wp (closeOwner_mild opened cleanup) sound
    intro closed u sound mild
    have paid := mild.paid paid
    split
    · exact Told.failed sound paid
    split
    · exact Told.failed sound paid
    · exact told (gaugeReconcileNominal_wp sound paid)
  unfold sealedOwner
  rw [Prog.wp_bind_iff]
  apply mild_wp (gaugeAccess_mild mac .open cleanup) sound
  rintro ⟨opened, cleanup⟩ t sound mild
  have paid := mild.paid paid
  dsimp only
  cases opened.success with
  | false => exact closes false cleanup opened t sound paid
  | true =>
    show Prog.wp plant (apply_ cleanup >>= _) Told Sound t
    apply Prog.wp_bind (inner cleanup t sound paid)
    intro applied u ended
    cases applied with
    | none => exact nofun
    | some applied =>
      have last := ended applied rfl
      exact closes true cleanup applied u last.sound last.paid

theorem gaugeSetNominalCapacity_wp {expectedOld target65 : UInt16} {restore : Bool} (depth : Nat)
    (cleanup : Cleanup) (sound : Sound s) (paid : exitOwed s.steps = false) :
    (gaugeSetNominalCapacity mac expectedOld target65 restore depth cleanup).wp plant Told Sound s := by
  induction depth generalizing cleanup s with
  | zero => exact nofun
  | succ depth ih =>
    unfold gaugeSetNominalCapacity
    rw [Prog.wp_bind_iff]
    apply mild_wp (mild_of_quiet (gate_quiet _)) sound
    intro lease t sound mild
    have paid := mild.paid paid
    split
    · exact Told.failed sound paid
    rw [Prog.wp_bind_iff]
    apply mild_wp (mild_of_quiet (fencedNominal_quiet restore)) sound
    intro fence t sound mild
    have paid := mild.paid paid
    split
    · exact Told.failed sound paid
    split
    · rw [Prog.wp_bind_iff]
      apply mild_wp (mild_of_quiet look_quiet) sound
      intro seen t sound mild
      have paid := mild.paid paid
      match seen with
      | .unreadable => exact Told.failed sound paid
      | .sealed true => exact told (gaugeReconcileNominal_wp sound paid)
      | .sealed false => exact sealedOwner_wp (fun cleanup t => ih cleanup) sound paid
      | .open => exact told (setNominal_wp sound paid)
    · exact told (setNominal_wp sound paid)

end Command

section Runs

variable {s t : Plant} {mac : Bytes 6}

/-- The plant as a call begins: what was put and not committed is gone, and the gauge is any. -/
def Plant.begin (s : Plant) (device : Device) : Plant where
  cell := { durable := s.cell.durable }
  device := device
  heldBefore := s.cell.durable.all fun j => j.covers device.dm
  original := s.original

/-- The plants that calls pass through, each call run to its end or cut by a loss of power. -/
inductive Plant.Reached (mac : Bytes 6) : Plant → Prop
  | first (journal : Option Journal) (device : Device) :
      Plant.Reached mac
        { cell := { durable := journal }, device := device, original := journal.map Journal.original }
  | call {s t : Plant} (before : Plant.Reached mac s) (device : Device)
      (expectedOld target65 : UInt16) (restore : Bool) (depth : Nat) (cleanup : Cleanup)
      (visited : (gaugeSetNominalCapacity mac expectedOld target65 restore depth cleanup).Visits plant
        (s.begin device) t) : Plant.Reached mac t

theorem Plant.begin_sound (device : Device)
    (original : s.cell.durable.map Journal.original = s.original) : Sound (s.begin device) := by
  refine ⟨⟨nofun, nofun⟩, fun held j found => ?_, original⟩
  have durable : s.cell.durable = some j := found
  have held : s.cell.durable.all (fun j => j.covers device.dm) = true := held
  rw [durable] at held
  exact held

theorem Plant.Reached.original (h : Plant.Reached mac s) :
    s.cell.durable.map Journal.original = s.original := by
  induction h with
  | first journal device => rfl
  | call before device expectedOld target65 restore depth cleanup visited ih =>
    have sound := Plant.begin_sound device ih
    exact (Prog.wp_visits (gaugeSetNominalCapacity_wp depth cleanup sound rfl) sound visited).original

/-- What a call never changes: whether the data memory was covered at first, and the first pair. -/
theorem visits_keeps {α : Type} {program : Bus α} (visited : program.Visits plant s t) :
    t.heldBefore = s.heldBefore ∧ ∀ pair, s.original = some pair → t.original = some pair := by
  let inv := fun u : Plant =>
    u.heldBefore = s.heldBefore ∧ ∀ pair, s.original = some pair → u.original = some pair
  have keeps : ∀ (c : Call) u r u', True → plant c u r u' → inv u → inv u' := by
    rintro c u r _ - ⟨cell, device, -, -, rfl⟩ ⟨held, original⟩
    refine ⟨held, fun pair first => ?_⟩
    show u.original.or _ = some pair
    rw [original pair first]
    rfl
  have start : inv s := ⟨rfl, fun _ => id⟩
  have kept : program.wp plant (fun _ => inv) inv s := (Prog.uses_any program).wp keeps start
  have last : inv t := Prog.wp_visits kept start visited
  exact last

end Runs

/-- At every moment of a call: writes are in order, the pair that was stored first is the one on
record, and a data memory that was covered when the call began is covered. At its end no exit is
owed, and after a success no recovery is pending. -/
theorem nominal_undoable {mac : Bytes 6} {s : Plant} (reached : Plant.Reached mac s) (device : Device)
    (expectedOld target65 : UInt16) (restore : Bool) (depth : Nat) (cleanup : Cleanup) :
    (∀ t, (gaugeSetNominalCapacity mac expectedOld target65 restore depth cleanup).Visits plant
        (s.begin device) t →
      Orderly t ∧ t.cell.durable.map Journal.original = t.original ∧
        (∀ pair, s.original = some pair → t.original = some pair) ∧
        ((∀ j, s.cell.durable = some j →
            restorePairAllowed j device.dm.design device.dm.fcc = true) →
          ∀ j, t.cell.durable = some j →
            restorePairAllowed j t.device.dm.design t.device.dm.fcc = true)) ∧
    ∀ out t, (gaugeSetNominalCapacity mac expectedOld target65 restore depth cleanup).Ends plant
        (s.begin device) (some out) t →
      exitOwed t.steps = false ∧
        (out.success = true → Resolved t ∧ (out.reason ∉ observing → Recorded t)) := by
  have sound := Plant.begin_sound device reached.original
  have all : (gaugeSetNominalCapacity mac expectedOld target65 restore depth cleanup).wp plant Told
      Sound (s.begin device) := gaugeSetNominalCapacity_wp depth cleanup sound rfl
  refine ⟨fun t visited => ?_, fun out t ended => ?_⟩
  · have sound' := Prog.wp_visits all sound visited
    obtain ⟨heldBefore, original⟩ := visits_keeps visited
    refine ⟨sound'.orderly, sound'.original, original, fun covered => sound'.held ?_⟩
    rw [heldBefore]
    show s.cell.durable.all (fun j => j.covers device.dm) = true
    cases there : s.cell.durable with
    | none => rfl
    | some j => exact covered j there
  · have last := Prog.wp_ends all ended out rfl
    exact ⟨last.paid, fun done => ⟨last.resolved done, last.recorded done⟩⟩

section Bench

def shownBlock (field : Field) (value : UInt16) : List UInt8 :=
  let data := [low field.address, high field.address, high value, low value] ++ List.replicate 30 0
  data ++ [macChecksum data, 36]

def inConfig : List Step → Bool
  | [] => false
  | ⟨.transmit packet, _⟩ :: older =>
    packet == enterPacket || (packet != [0, 0x91, 0] && inConfig older)
  | _ :: older => inConfig older

def shownWord (s : Plant) (reg : UInt8) : UInt16 :=
  if reg = 0x3a then if inConfig s.steps then 0x422 else 0x22
  else if reg = 0x2c then 100 else if reg = 0x08 then 4200 else if reg = 0x06 then 3000
  else if reg = 0x3c then s.device.dm.design else if reg = 0x12 then s.device.dm.fcc
  else if reg = 0x10 then 60 else if reg = 0x40 then 0x0220 else 0

/-- An open gauge; it shows a block where a field is selected. -/
def shownBytes (s : Plant) (reg : UInt8) : UInt8 × UInt8 :=
  match s.device.selected with
  | some field =>
    if 0x3e ≤ reg ∧ reg ≤ 0x60 then
      let block := shownBlock field (s.device.dm.value field)
      (block.getD (reg - 0x3e).toNat 0, block.getD ((reg - 0x3e).toNat + 1) 0)
    else (low (shownWord s reg), high (shownWord s reg))
  | none => (low (shownWord s reg), high (shownWord s reg))

def shownAnswer (s : Plant) : (c : Call) → Answer c × Cell Journal × Device
  | .gate g => (g != .otaBusy && g != .bootFactoryReloadScope, s.cell, s.device)
  | .enters _ => ((), s.cell, s.device)
  | .read reg => (some (shownBytes s reg), s.cell, s.device)
  | .transmit packet => (true, s.cell, s.device.takes packet)
  | .nvsOpen _ _ => (.ok, s.cell, s.device)
  | .nvsGet .nominal => (match s.cell.durable with
    | some j => .ok j
    | none => .error .notFound, s.cell, s.device)
  | .nvsGet .access | .nvsGet .normalTarget => (.error .failed, s.cell, s.device)
  | .nvsSet .nominal v => (true, { s.cell with staged := some v }, s.device)
  | .nvsSet .access _ | .nvsSet .normalTarget _ => (true, s.cell, s.device)
  | .nvsCommit .nominal => (true, { durable := s.cell.staged.or s.cell.durable }, s.device)
  | .nvsCommit .access | .nvsCommit .normalTarget => (true, s.cell, s.device)

def shownGauge : Machine Call Answer Plant := fun c s =>
  (some (shownAnswer s c).1, s.after c (shownAnswer s c).1 (shownAnswer s c).2.1 (shownAnswer s c).2.2)

def factoryGauge : Plant := { device := { dm := { design := factoryMah, fcc := factoryMah } } }

theorem shown_realises : Prog.Realises shownGauge plant id := by
  refine ⟨fun c s r s' step => ?_, fun c s s' step => nomatch step⟩
  obtain ⟨answer, rfl⟩ := Prod.mk.inj step
  obtain rfl := Option.some.inj answer
  refine ⟨_, _, ?_, ?_, rfl⟩
  · cases c with
    | gate | enters | read | transmit => rfl
    | nvsOpen ns write =>
      cases ns with
      | gaugeacc => rfl
      | gaugecal => exact ⟨rfl, nofun⟩
    | nvsGet k =>
      cases k with
      | nominal =>
        refine ⟨rfl, fun v found => ?_, fun missing => ?_⟩
        · cases there : s.cell.durable with
          | none => simp [shownAnswer, there] at found
          | some j =>
            have same : (.ok j : Except Status Journal) = .ok v := by
              simpa [shownAnswer, there] using found
            exact there.trans (congrArg some (Except.ok.inj same))
        · cases there : s.cell.durable with
          | none => exact there
          | some j => simp [shownAnswer, there] at missing
      | access | normalTarget => rfl
    | nvsSet k v =>
      cases k with
      | nominal => exact ⟨rfl, Or.inl rfl⟩
      | access | normalTarget => rfl
    | nvsCommit k =>
      cases k with
      | nominal =>
        refine ⟨rfl, ?_, fun _ v staged => ?_⟩
        · cases there : s.cell.staged with
          | none => exact Or.inl (by simp [shownAnswer, there])
          | some j => exact Or.inr (by simp [shownAnswer, there])
        · simp [shownAnswer, show s.cell.staged = some v from staged]
      | access | normalTarget => rfl
  · cases c with
    | gate | nvsOpen => rfl
    | enters => rfl
    | transmit packet => exact Or.inl rfl
    | read reg =>
      refine ⟨rfl, fun b f data selected shown => ?_⟩
      subst data
      obtain rfl := Option.some.inj shown
      show bigEndian (shownBytes s 0x40) = s.device.dm.value f
      rw [shownBytes, show s.device.selected = some f from selected]
      exact bigEndian_bytes _
    | nvsGet k | nvsSet k v | nvsCommit k => cases k <;> rfl

private theorem shown_sets :
    ((gaugeSetNominalCapacity (zero 6) factoryMah nominalMah false 1 {}).run shownGauge
      factoryGauge).1 = some (some { success := true, reason := "nominal_set_not_learned" }) := by
  decide +kernel

/-- The factory gauge is set; its journal covers what it holds, and tells it. -/
theorem nominal_undoable_shown : ∃ t,
    (gaugeSetNominalCapacity (zero 6) factoryMah nominalMah false 1 {}).Ends plant factoryGauge
      (some { success := true, reason := "nominal_set_not_learned" }) t ∧
    exitOwed t.steps = false ∧ Resolved t ∧ Recorded t ∧ ∀ j, t.cell.durable = some j →
      restorePairAllowed j t.device.dm.design t.device.dm.fcc = true := by
  have ended := Prog.ends_run shown_realises shown_sets
  rw [id_eq, id_eq] at ended
  generalize ((gaugeSetNominalCapacity (zero 6) factoryMah nominalMah false 1 {}).run shownGauge
    factoryGauge).2 = t at ended
  have undoable := nominal_undoable (@Plant.Reached.first (zero 6) none factoryGauge.device)
    factoryGauge.device factoryMah nominalMah false 1 {}
  obtain ⟨owed, done⟩ := undoable.2 _ t ended
  obtain ⟨resolved, recorded⟩ := done rfl
  exact ⟨t, ended, owed, resolved, recorded (by decide), (undoable.1 t ended.visits).2.2.2 nofun⟩

end Bench

end Mosaico.Gauge.Hal
