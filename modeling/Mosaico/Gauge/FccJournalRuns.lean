import Mosaico.Gauge.FccRepairSafety
import Mosaico.Gauge.FccJournalCodec

/-! What the coordinator saves is what the codec takes, and only a run that ends well leaves
a journal that permits more. -/
namespace Mosaico.Gauge.FccRepair

open Interaction

/-- Every journal saved so far has the shape of its mode. -/
def AllShaped (mode : Mode) (t : Trace) : Prop :=
  ∀ m j ok, saving m j ok ∈ t → m = mode ∧ journalShape j mode = true

def Unproven (mode : Mode) (t : Trace) : Prop :=
  AllShaped mode t ∧ ∀ m j ok, saving m j ok ∈ t → j.state ≠ .verified

/-- The journal while the repair is under way. -/
structure Shaped (mode : Mode) (j : Journal) : Prop where
  schema : j.schema = 1
  pending : j.state = .pending
  known : j.intents &&& ~~~allIntents mode = 0
  unbacked : j.backupValid = false → j.before = {} ∧ j.target = {}
  backed : j.backupValid = true → backupShape j mode = true

/-- How far a repair has come in which everything went well. -/
structure Stage (intents : UInt16) (backup : Bool) (before : Dm) (r : Repair) : Prop where
  intents : r.j.intents = intents
  backup : r.j.backupValid = backup
  before : r.j.before = before
  accessed : r.accessed = true
  inside : r.exited = false

section Shapes

variable {mode : Mode} {j : Journal} {r : Repair} {t : Trace} {flag : Intent}

theorem Shaped.shape (h : Shaped mode j) (state : State)
    (proven : state = .verified → verifiedShape j mode = true) :
    journalShape { j with state := state } mode = true := by
  have closed : (state != .verified || verifiedShape { j with state := state } mode) = true := by
    cases state with
    | verified => exact proven rfl
    | pending | failed => rfl
  have backup : (if j.backupValid then backupShape j mode else j.before == {} && j.target == {}) =
      true := by
    cases valid : j.backupValid with
    | true => exact h.backed valid
    | false =>
      obtain ⟨before, target⟩ := h.unbacked valid
      simp [before, target]
  simp only [journalShape, Bool.and_eq_true, beq_iff_eq]
  exact ⟨⟨⟨h.schema, h.known⟩, closed⟩, backup⟩

theorem Shaped.same (h : Shaped mode j) : journalShape j mode = true := by
  have shape := h.shape j.state fun claimed => by simp [h.pending] at claimed
  exact shape

def Permitted (mode : Mode) (flag : Intent) : Prop := flag.bit &&& ~~~allIntents mode = 0

theorem permitted (mode : Mode) (flag : Intent) (other : flag ≠ .dc ∧ flag ≠ .restoreDc) :
    Permitted mode flag := by
  cases mode <;> cases flag <;> first | rfl | simp at other

theorem permitted_cold (flag : Intent) : Permitted .coldFactory flag := by
  cases flag <;> rfl

private theorem or_known {a b mask : UInt16} (ha : a &&& mask = 0) (hb : b &&& mask = 0) :
    (a ||| b) &&& mask = 0 := by
  have split : (a ||| b) &&& mask = (a &&& mask) ||| (b &&& mask) :=
    UInt16.toBitVec_inj.mp BitVec.and_or_distrib_right
  rw [split, ha, hb]
  rfl

theorem Shaped.claim (h : Shaped mode r.j) (permitted : Permitted mode flag) :
    Shaped mode (r.claim flag).j :=
  ⟨h.schema, h.pending, or_known h.known permitted, h.unbacked, h.backed⟩

theorem Unproven.other (h : Unproven mode t) {s : Step} (quiet : s.saved = none) :
    Unproven mode (s :: t) := by
  have old : ∀ {m j ok}, saving m j ok ∈ s :: t → saving m j ok ∈ t := by
    intro m j ok mem
    cases List.mem_cons.mp mem with
    | inl same =>
      rw [← same] at quiet
      cases quiet
    | inr old => exact old
  exact ⟨fun m j ok mem => h.1 m j ok (old mem), fun m j ok mem => h.2 m j ok (old mem)⟩

theorem saving_inj {m m' : Mode} {j j' : Journal} {ok ok' : Bool}
    (h : saving m j ok = saving m' j' ok') : m = m' ∧ j = j' ∧ ok = ok' := by
  cases h
  exact ⟨rfl, rfl, rfl⟩

theorem AllShaped.saving (h : AllShaped mode t) (shape : journalShape j mode = true) (ok : Bool) :
    AllShaped mode (saving mode j ok :: t) := by
  intro m j' ok' mem
  cases List.mem_cons.mp mem with
  | inl same =>
    obtain ⟨sameMode, sameJournal, -⟩ := saving_inj same
    exact ⟨sameMode, by rw [sameJournal]; exact shape⟩
  | inr old => exact h m j' ok' old

theorem Unproven.saving (h : Unproven mode t) (shape : journalShape j mode = true)
    (open_ : j.state ≠ .verified) (ok : Bool) : Unproven mode (saving mode j ok :: t) := by
  refine ⟨h.1.saving shape ok, fun m j' ok' mem => ?_⟩
  cases List.mem_cons.mp mem with
  | inl same =>
    rw [(saving_inj same).2.1]
    exact open_
  | inr old => exact h.2 m j' ok' old

end Shapes

section Writes

variable {mode : Mode} {r : Repair} {t : Trace} {flag : Intent} {Q Q' : Repair → Prop}

/-- The journal stays in shape, and where the condition holds `Q` holds too. -/
def Leaves (mode : Mode) (Q : Repair → Prop) (x : Bool × Repair) (t : Trace) : Prop :=
  Unproven mode t ∧ Shaped mode x.2.j ∧ (x.1 = true → Q x.2)

abbrev Writes (mode : Mode) (p : Cond) (Q : Repair → Prop) (t : Trace) : Prop :=
  p.wp recorded (Leaves mode Q) (AllShaped mode) t

theorem writes_mono {p : Cond} (h : Writes mode p Q t) (weaker : ∀ r, Q r → Q' r) :
    Writes mode p Q' t :=
  Prog.wp_mono h (fun x _ hx => ⟨hx.1, hx.2.1, fun ok => weaker x.2 (hx.2.2 ok)⟩) fun _ => id

theorem writes_pure {ok : Bool} (h : Unproven mode t) (shaped : Shaped mode r.j)
    (hq : ok = true → Q r) : Writes mode (pure (ok, r)) Q t := ⟨h, shaped, hq⟩

theorem writes_both {first : Cond} {next : Repair → Cond} (h : Writes mode first Q t)
    (rest : ∀ r t, Unproven mode t → Shaped mode r.j → Q r → Writes mode (next r) Q' t) :
    Writes mode (both first next) Q' t := by
  apply Prog.wp_bind h
  intro x t' hx
  obtain ⟨ok, r'⟩ := x
  cases ok with
  | false => exact writes_pure hx.1 hx.2.1 nofun
  | true => exact rest r' t' hx.1 hx.2.1 (hx.2.2 rfl)

theorem writes_perform {c : Call} {next : Answer c → Cond} (h : Unproven mode t)
    (quiet : ∀ v, Step.saved ⟨c, v⟩ = none)
    (rest : ∀ v t', Unproven mode t' → Writes mode (next v) Q t') :
    Writes mode (Prog.perform c >>= next) Q t := by
  intro v t' ht'
  rw [ht']
  have kept := h.other (quiet v)
  exact ⟨kept.1, rest v _ kept⟩

theorem command_writes {c : Command} (h : Unproven mode t) (shaped : Shaped mode r.j) (hq : Q r)
    (quiet : ∀ v : Bool, Step.saved ⟨.command c, v⟩ = none) : Writes mode (command c r) Q t :=
  writes_perform h quiet fun _ _ kept => writes_pure kept shaped fun _ => hq

theorem observed_writes {p : Security → Bool} (h : Unproven mode t) (shaped : Shaped mode r.j)
    (hq : Q r) : Writes mode (observed p r) Q t :=
  writes_perform h (fun _ => rfl) fun _ _ kept => writes_pure kept shaped fun _ => hq

theorem intent_writes (h : Unproven mode t) (shaped : Shaped mode r.j)
    (permitted : Permitted mode flag) (hq : Q (r.claim flag)) :
    Writes mode (intent mode flag r) Q t := by
  unfold intent
  split
  · exact writes_pure h shaped nofun
  · intro ok t' ht'
    rw [ht']
    have claimed := shaped.claim permitted
    have open_ : (r.claim flag).j.state ≠ .verified := by
      rw [claimed.pending]
      nofun
    have kept := h.saving claimed.same open_ ok
    exact ⟨kept.1, kept, claimed, fun _ => hq⟩

theorem announced_writes {c : Command} (h : Unproven mode t) (shaped : Shaped mode r.j)
    (permitted : Permitted mode flag) (hq : Q (r.claim flag))
    (quiet : ∀ v : Bool, Step.saved ⟨.command c, v⟩ = none) :
    Writes mode (announced mode flag c r) Q t := by
  apply writes_both (Q := fun r' => r' = r.claim flag) (intent_writes h shaped permitted rfl)
  rintro _ t1 h1 shaped1 rfl
  apply writes_both (observed_writes (Q := fun r' => r' = r.claim flag) h1 shaped1 rfl)
  rintro _ t2 h2 shaped2 rfl
  exact command_writes h2 shaped2 hq quiet

end Writes

section Phases

variable {mode : Mode} {r : Repair} {t : Trace} {id : Identity} {v : UInt16} {backup : Bool}
  {d : Dm} {flag : Intent}

theorem Stage.claim (h : Stage v backup d r) (flag : Intent) :
    Stage (v ||| flag.bit) backup d (r.claim flag) :=
  ⟨by rw [← h.intents]; rfl, h.backup, h.before, h.accessed, h.inside⟩

theorem unsealed_writes (h : Unproven mode t) (shaped : Shaped mode r.j) (stage : Stage v backup d r) :
    Writes mode (unsealed r) (Stage v backup d) t := by
  apply writes_both (Q := Stage v backup d) (command_writes h shaped stage fun _ => rfl)
  intro r t h shaped stage
  exact observed_writes h shaped stage

theorem opened_writes (h : Unproven mode t) (shaped : Shaped mode r.j) (stage : Stage v backup d r) :
    Writes mode (opened mode r) (Stage (v ||| Intent.full.bit) backup d) t := by
  apply writes_both (Q := Stage v backup d)
  · exact writes_perform h (fun _ => rfl) fun _ _ kept => writes_pure kept shaped fun _ => stage
  intro r t h shaped stage
  apply writes_both (intent_writes (Q := Stage (v ||| Intent.full.bit) backup d) h shaped
    (permitted mode .full (by decide)) (stage.claim .full))
  intro r t h shaped stage
  apply writes_both (Q := Stage (v ||| Intent.full.bit) backup d)
    (command_writes h shaped stage fun _ => rfl)
  intro r t h shaped stage
  exact observed_writes h shaped stage

/-- The snapshots that are taken have the shape of a backup. -/
private theorem original_shape {j : Journal} (h : original mode id d = true) :
    backupShape { j with fullAccessVerified := true, before := d, target := targetOf d } mode =
      true := by
  simp only [original, Bool.and_eq_true, decide_eq_true_eq, beq_iff_eq] at h
  obtain ⟨⟨config, limit⟩, values⟩ := h
  have start : startValues mode d = true := by
    cases mode with
    | runtime => exact values
    | coldFactory =>
      simp only [Bool.and_eq_true] at values
      simp only [startValues, Bool.and_eq_true]
      exact values.1
  simp [backupShape, config, limit, start]

theorem backup_writes (h : Unproven mode t) (shaped : Shaped mode r.j)
    (stage : Stage v false {} r) :
    Writes mode (FccRepair.backup mode id r) (fun r' => ∃ d, Stage v true d r') t := by
  have opened : Shaped mode { r.j with fullAccessVerified := true } := by
    refine ⟨shaped.schema, shaped.pending, shaped.known, shaped.unbacked, fun backed => ?_⟩
    exact absurd (stage.backup.symm.trans backed) Bool.false_ne_true
  apply writes_perform h fun _ => rfl
  intro first t1 h1
  cases first with
  | none => exact writes_pure h1 opened nofun
  | some first =>
    apply writes_perform h1 fun _ => rfl
    intro second t2 h2
    cases second with
    | none => exact writes_pure h2 opened nofun
    | some second =>
      dsimp only
      split
      · rename_i equal
        have backed := original_shape (j := r.j) equal.2
        apply writes_pure h2
        · exact ⟨shaped.schema, shaped.pending, shaped.known, nofun, fun _ => backed⟩
        · exact fun _ => ⟨first, stage.intents, rfl, rfl, stage.accessed, stage.inside⟩
      · exact writes_pure h2 opened nofun

theorem entered_writes (h : Unproven mode t) (shaped : Shaped mode r.j) (stage : Stage v backup d r) :
    Writes mode (entered mode r) (Stage (v ||| Intent.enter.bit) backup d) t := by
  apply writes_both (intent_writes (Q := Stage (v ||| Intent.enter.bit) backup d) h shaped
    (permitted mode .enter (by decide)) (stage.claim .enter))
  intro r t h shaped stage
  apply writes_both (Q := Stage (v ||| Intent.enter.bit) backup d)
    (command_writes h shaped stage fun _ => rfl)
  intro r t h shaped stage
  apply writes_both (Q := Stage (v ||| Intent.enter.bit) backup d)
    (command_writes h shaped stage fun _ => rfl)
  intro r t h shaped stage
  exact observed_writes h shaped stage

theorem applyConfig_writes (h : Unproven mode t) (shaped : Shaped mode r.j)
    (stage : Stage v backup d r) :
    Writes mode (applyConfig mode r) (Stage (v ||| Intent.config.bit) backup d) t :=
  announced_writes h shaped (permitted mode .config (by decide)) (stage.claim .config) fun _ => rfl

def dcBit (mode : Mode) : UInt16 := if mode = .coldFactory then Intent.dc.bit else 0

def fccBit (d : Dm) : UInt16 := if d.fcc ≠ 65 then Intent.fcc.bit else 0

theorem applyDc_writes (h : Unproven mode t) (shaped : Shaped mode r.j) (stage : Stage v backup d r) :
    Writes mode (applyDc mode r) (Stage (v ||| dcBit mode) backup d) t := by
  unfold applyDc dcBit
  split
  · rename_i cold
    rw [cold] at h shaped ⊢
    exact announced_writes h shaped (permitted_cold .dc) (stage.claim .dc) fun _ => rfl
  · rw [UInt16.or_zero]
    exact writes_pure h shaped fun _ => stage

theorem applyFcc_writes (h : Unproven mode t) (shaped : Shaped mode r.j) (stage : Stage v backup d r) :
    Writes mode (applyFcc mode r) (Stage (v ||| fccBit d) backup d) t := by
  unfold applyFcc fccBit
  rw [stage.before]
  by_cases unchanged : d.fcc = 65
  · rw [if_pos unchanged, if_neg (not_not.mpr unchanged), UInt16.or_zero]
    exact writes_pure h shaped fun _ => stage
  · rw [if_neg unchanged, if_pos unchanged]
    exact announced_writes h shaped (permitted mode .fcc (by decide)) (stage.claim .fcc) fun _ => rfl

private theorem confirmed_writes (h : Unproven mode t) (shaped : Shaped mode r.j) (stage : Stage v backup d r) :
    Writes mode (confirmed mode r) (Stage (v ||| Intent.targetVerified.bit) backup d) t := by
  apply writes_both (Q := Stage v backup d) (command_writes h shaped stage fun _ => rfl)
  intro r t h shaped stage
  exact intent_writes h shaped (permitted mode .targetVerified (by decide)) (stage.claim .targetVerified)

def repaired (mode : Mode) (d : Dm) : UInt16 :=
  (((Intent.unseal.bit ||| Intent.full.bit ||| Intent.enter.bit ||| Intent.config.bit) |||
    dcBit mode) ||| fccBit d) ||| Intent.targetVerified.bit

theorem repair_writes (h : Unproven mode t) (shaped : Shaped mode r.j)
    (stage : Stage Intent.unseal.bit false {} r) :
    Writes mode (repair mode id r) (fun r' => ∃ d, Stage (repaired mode d) true d r') t := by
  apply writes_both (unsealed_writes h shaped stage)
  intro r t h shaped stage
  apply writes_both (opened_writes h shaped stage)
  intro r t h shaped stage
  apply writes_both (backup_writes h shaped stage)
  rintro r t h shaped ⟨d, stage⟩
  apply writes_both (entered_writes h shaped stage)
  intro r t h shaped stage
  apply writes_both (applyConfig_writes h shaped stage)
  intro r t h shaped stage
  apply writes_both (applyDc_writes h shaped stage)
  intro r t h shaped stage
  apply writes_both (applyFcc_writes h shaped stage)
  intro r t h shaped stage
  exact writes_mono (confirmed_writes h shaped stage) fun _ done => ⟨d, done⟩

theorem knownDm_writes {p : Dm → Bool} {next : Dm → Cond} {Q : Repair → Prop}
    (h : Unproven mode t) (shaped : Shaped mode r.j)
    (rest : ∀ now t', Unproven mode t' → Writes mode (next now) Q t') :
    Writes mode (knownDm p r next) Q t := by
  apply writes_both (observed_writes (Q := fun r' => r' = r) h shaped rfl)
  rintro _ t1 h1 shaped1 rfl
  apply writes_perform h1 fun _ => rfl
  intro seen t2 h2
  cases seen with
  | none => exact writes_pure h2 shaped1 nofun
  | some now =>
    dsimp only
    split
    · exact rest now t2 h2
    · exact writes_pure h2 shaped1 nofun

/-- A restore only announces what its mode may. -/
theorem rollback_writes (h : Unproven mode t) (shaped : Shaped mode r.j) :
    Writes mode (rollback mode r) (fun _ => True) t := by
  unfold rollback
  split
  · exact writes_pure h shaped nofun
  apply writes_both (Q := fun _ => True)
  · apply knownDm_writes h shaped
    intro now t h
    split
    · exact writes_pure h shaped fun _ => trivial
    · exact announced_writes h shaped (permitted mode .restoreConfig (by decide)) trivial fun _ => rfl
  intro r t h shaped _
  apply writes_both (Q := fun _ => True)
  · apply knownDm_writes h shaped
    intro now t h
    split
    · exact writes_pure h shaped fun _ => trivial
    · split
      · exact writes_pure h shaped nofun
      · rename_i cold
        have permitted : Permitted mode .restoreDc := by
          rw [not_not.mp cold]
          exact permitted_cold .restoreDc
        exact announced_writes h shaped permitted trivial fun _ => rfl
  intro r t h shaped _
  apply knownDm_writes h shaped
  intro now t h
  split
  · exact writes_pure h shaped fun _ => trivial
  · exact announced_writes h shaped (permitted mode .restoreFcc (by decide)) trivial fun _ => rfl

/-- Leaving is announced, and then done either way. -/
theorem leave_writes (h : Unproven mode t) (shaped : Shaped mode r.j) {Q : Repair → Prop}
    (left : r.exited = false → Q { (r.claim .exit) with exited := true })
    (already : r.exited = true → Q r) : Writes mode (leave mode r) Q t := by
  unfold leave
  split
  · rename_i exited
    exact writes_pure h shaped fun _ => already exited
  · rename_i inside
    apply Prog.wp_bind (intent_writes (r := { r with exited := true }) h shaped
      (permitted mode .exit (by decide)) (left (by simpa using inside)))
    intro x t hx
    apply Prog.wp_bind (command_writes (Q := fun r' => r' = x.2) hx.1 hx.2.1 rfl fun _ => rfl)
    intro y t hy
    apply writes_pure hy.1 hy.2.1
    intro ok
    obtain ⟨announced, exited⟩ := Bool.and_eq_true_iff.mp ok
    rw [hy.2.2 exited]
    exact hx.2.2 announced

theorem cleanup_writes {Q Q' : Repair → Prop} (h : Unproven mode t) (shaped : Shaped mode r.j)
    (left : r.exited = false → Q { (r.claim .exit) with exited := true })
    (already : r.exited = true → Q r) (closed : ∀ r, Q r → Q' (r.claim .seal)) :
    Writes mode (cleanup mode r) Q' t := by
  unfold cleanup
  split
  · exact writes_pure h shaped nofun
  apply Prog.wp_bind (leave_writes h shaped left already)
  intro x t hx
  apply Prog.wp_bind (intent_writes (r := x.2) (Q := fun r' => r' = x.2.claim .seal) hx.1 hx.2.1
    (permitted mode .seal (by decide)) rfl)
  intro y t hy
  apply Prog.wp_bind (command_writes (Q := fun r' => r' = y.2) hy.1 hy.2.1 rfl fun _ => rfl)
  intro z t hz
  apply Prog.wp_bind (observed_writes (Q := fun r' => r' = z.2) hz.1 hz.2.1 rfl)
  intro u t hu
  apply writes_pure hu.1 hu.2.1
  intro ok
  simp only [Bool.and_eq_true] at ok
  obtain ⟨⟨⟨seen, gone⟩, announced⟩, resealed⟩ := ok
  rw [hu.2.2 seen, hz.2.2 resealed, hy.2.2 announced]
  exact closed x.2 (hx.2.2 gone)

theorem fail_writes (h : Unproven mode t) (shaped : Shaped mode r.j) :
    (fail mode r).wp recorded (fun result t => result = .failed ∧ Unproven mode t) (AllShaped mode) t := by
  have abandoned : Writes mode (abandon mode r) (fun _ => True) t := by
    unfold abandon
    split
    · apply Prog.wp_bind (rollback_writes h shaped)
      intro x t hx
      exact cleanup_writes (Q := fun _ => True) hx.1 hx.2.1 (fun _ => trivial) (fun _ => trivial)
        fun _ _ => trivial
    · exact writes_pure h shaped nofun
  apply Prog.wp_bind abandoned
  intro x t hx
  have shape := hx.2.1.shape .failed nofun
  intro ok t' ht'
  rw [ht']
  have kept := hx.1.saving shape (show State.failed ≠ .verified from nofun) ok
  exact ⟨kept.1, rfl, kept⟩

/-- A repair that was closed well, seen from its journal. -/
structure Complete (mode : Mode) (j : Journal) : Prop where
  intents : j.intents = repaired mode j.before ||| Intent.exit.bit ||| Intent.seal.bit
  backup : j.backupValid = true

theorem complete_intents (mode : Mode) (d : Dm) :
    (repaired mode d ||| Intent.exit.bit ||| Intent.seal.bit) &&& required mode d =
        required mode d ∧
      (repaired mode d ||| Intent.exit.bit ||| Intent.seal.bit) &&& restores = 0 := by
  have cases_ : ∀ dc ∈ [0, Intent.dc.bit], ∀ fcc ∈ [0, Intent.fcc.bit],
      let all := (((Intent.unseal.bit ||| Intent.full.bit ||| Intent.enter.bit ||| Intent.config.bit) |||
        dc) ||| fcc) ||| Intent.targetVerified.bit ||| Intent.exit.bit ||| Intent.seal.bit
      let needed := bits [.unseal, .full, .enter, .config, .targetVerified, .exit, .seal] ||| fcc ||| dc
      all &&& needed = needed ∧ all &&& restores = 0 := by
    intro dc isDc fcc isFcc
    simp only [List.mem_cons, List.not_mem_nil, or_false] at isDc isFcc
    rcases isDc with rfl | rfl <;> rcases isFcc with rfl | rfl <;> decide
  have dc : dcBit mode ∈ [0, Intent.dc.bit] := by cases mode <;> decide
  have fcc : fccBit d ∈ [0, Intent.fcc.bit] := by
    unfold fccBit
    split <;> simp
  exact cases_ _ dc _ fcc

theorem Shaped.verified {j : Journal} (h : Shaped mode j) (done : Complete mode j) :
    verifiedShape j mode = true := by
  have access := h.backed done.backup
  simp only [backupShape, Bool.and_eq_true] at access
  obtain ⟨needed, none_⟩ := complete_intents mode j.before
  simp [verifiedShape, done.backup, access.1.1.1.1, done.intents, needed, none_]

/-- The two ways to say which writes a runtime repair needed agree. -/
theorem Shaped.permission {j : Journal} (h : Shaped .runtime j) (done : Complete .runtime j) :
    verifiedRuntimePermission { j with state := .verified } = true := by
  have shape := h.shape .verified fun _ => h.verified done
  have backed := h.backed done.backup
  simp only [backupShape, startValues, Bool.and_eq_true, Bool.or_eq_true, beq_iff_eq] at backed
  obtain ⟨⟨⟨⟨access, -⟩, -⟩, -, fcc⟩, -⟩ := backed
  have same : fccBit j.before = if j.before.fcc = 100 then Intent.fcc.bit else 0 := by
    cases fcc with
    | inl low => simp [fccBit, low]
    | inr high => simp [fccBit, high]
  have cases_ : ∀ fcc ∈ [0, Intent.fcc.bit],
      let all := (((Intent.unseal.bit ||| Intent.full.bit ||| Intent.enter.bit ||| Intent.config.bit) |||
        0) ||| fcc) ||| Intent.targetVerified.bit ||| Intent.exit.bit ||| Intent.seal.bit
      let needed := bits [.unseal, .full, .enter, .config, .targetVerified, .exit, .seal] ||| fcc
      all &&& needed = needed ∧
        all &&& bits [.restoreConfig, .restoreFcc, .dc, .restoreDc] = 0 := by
    intro fcc isFcc
    simp only [List.mem_cons, List.not_mem_nil, or_false] at isFcc
    rcases isFcc with rfl | rfl <;> decide
  have either : fccBit j.before ∈ [0, Intent.fcc.bit] := by
    unfold fccBit
    split <;> simp
  obtain ⟨needed, none_⟩ := cases_ _ either
  rw [same] at needed none_
  have intents := done.intents
  rw [repaired, same] at intents
  dsimp only [dcBit] at intents
  rw [if_neg (show ¬ Mode.runtime = .coldFactory from nofun)] at intents
  rw [← intents] at needed none_
  simp only [verifiedRuntimePermission, Bool.and_eq_true, beq_iff_eq]
  exact ⟨⟨⟨⟨⟨shape, trivial⟩, done.backup⟩, access⟩, needed⟩, none_⟩

/-- How the journals of a run end. -/
structure Journalled (mode : Mode) (result : Result) (t : Trace) : Prop where
  shaped : AllShaped mode t
  proven : result = .verified → ∃ j older, t = saving mode j true :: older ∧
    (mode = .runtime → verifiedRuntimePermission j = true)
  unproven : result ≠ .verified → ∀ m j, saving m j true ∈ t → j.state ≠ .verified

theorem Unproven.journalled (h : Unproven mode t) {result : Result} (other : result ≠ .verified) :
    Journalled mode result t :=
  ⟨h.1, fun verified => absurd verified other, fun _ m j mem => h.2 m j true mem⟩

theorem close_writes (h : Unproven mode t) (shaped : Shaped mode r.j)
    (stage : Stage (repaired mode d) true d r) :
    (close mode r).wp recorded (Journalled mode) (AllShaped mode) t := by
  have closed : Writes mode (both (cleanup mode r) fun r => command (.verifyTarget r.j.target true) r)
      (fun r' => Complete mode r'.j) t := by
    apply writes_both (Q := fun r' => Complete mode r'.j)
    · apply cleanup_writes (Q := fun r' => r'.j.intents = repaired mode d ||| Intent.exit.bit ∧
        r'.j.backupValid = true ∧ r'.j.before = d) h shaped
      · exact fun _ => ⟨(stage.claim .exit).intents, stage.backup, stage.before⟩
      · intro exited
        exact absurd (stage.inside.symm.trans exited) Bool.false_ne_true
      · rintro r ⟨intents, backup, before⟩
        refine ⟨?_, backup⟩
        rw [show (r.claim .seal).j.before = d from before, ← intents]
        rfl
    · intro r t h shaped done
      exact command_writes h shaped done fun _ => rfl
  apply Prog.wp_bind closed
  rintro ⟨verified, r⟩ t ⟨h, shaped, done⟩
  intro committed t' ht'
  rw [ht']
  cases verified with
  | false =>
    have shape := shaped.shape .failed nofun
    have kept := h.saving shape (show State.failed ≠ .verified from nofun) committed
    exact ⟨kept.1, kept.journalled nofun⟩
  | true =>
    have complete := done rfl
    have shape := shaped.shape .verified fun _ => shaped.verified complete
    have kept := h.1.saving shape committed
    refine ⟨kept, kept, ?_, ?_⟩
    · intro ended
      have acknowledged : committed = true := by
        cases committed with
        | true => rfl
        | false => cases ended
      refine ⟨_, t, by rw [acknowledged]; rfl, fun runtime => ?_⟩
      rw [runtime] at shaped complete
      exact shaped.permission complete
    · intro ended m j mem
      cases List.mem_cons.mp mem with
      | inl same =>
        have acknowledged := (saving_inj same).2.2
        rw [← acknowledged] at ended
        exact absurd rfl ended
      | inr old => exact h.2 m j true old

private theorem qualify_writes : (qualify mode).wp recorded (fun _ t => Unproven mode t) (AllShaped mode) [] := by
  have keeps : ∀ (c : Call) t v t', c.reads → recorded c t v t' → Unproven mode t → Unproven mode t' := by
    rintro c t v _ reads rfl h
    have read := reads v
    simp only [Step.reads, Bool.and_eq_true, Option.isNone_iff_eq_none] at read
    exact h.other read.2
  have start : Unproven mode [] := 
    ⟨fun _ _ _ mem => absurd mem List.not_mem_nil, fun _ _ _ mem => absurd mem List.not_mem_nil⟩
  have reads := (qualify_uses mode).wp keeps start
  exact Prog.wp_mono reads (fun _ _ h => h) fun _ h => h.1

theorem run_writes (mode : Mode) : (run mode).wp recorded (Journalled mode) (AllShaped mode) [] := by
  apply Prog.wp_bind qualify_writes
  intro found t h
  cases found with
  | none => exact h.journalled nofun
  | some id =>
    have shaped : Shaped mode ({ mac := id.mac } : Journal) :=
      ⟨rfl, rfl, UInt16.zero_and, fun _ => ⟨rfl, rfl⟩, nofun⟩
    apply Prog.wp_bind (intent_writes (r := { j := { mac := id.mac } })
      (Q := fun r => Stage Intent.unseal.bit false {} { r with accessed := true }) h shaped
      (permitted mode .unseal (by decide)) ⟨UInt16.zero_or, rfl, rfl, rfl, rfl⟩)
    rintro ⟨ok, r⟩ t ⟨h, shaped, stage⟩
    cases ok with
    | false => exact h.journalled nofun
    | true =>
      apply Prog.wp_bind (repair_writes (r := { r with accessed := true }) h shaped (stage rfl))
      rintro ⟨ok, r⟩ t ⟨h, shaped, stage⟩
      cases ok with
      | true =>
        obtain ⟨d, stage⟩ := stage rfl
        exact close_writes h shaped stage
      | false =>
        apply Prog.wp_mono (fail_writes h shaped) _ fun _ h => h
        rintro result t ⟨rfl, h⟩
        exact h.journalled nofun

end Phases

/-- What the codec makes of the journals of a run: none is refused and each is read back; after
a runtime repair that went well the last one permits more, and otherwise no acknowledged one. -/
structure Agrees (mode : Mode) (result : Result) (t : Trace) : Prop where
  written : ∀ m j ok, saving m j ok ∈ t → m = mode ∧ journalShape j mode = true ∧
    ∃ r, encode j mode = some r ∧ decode r j.mac mode = some j
  permits : mode = .runtime → result = .verified →
    ∃ j, (saves t).head? = some j ∧ verifiedRuntimePermission j = true
  refuses : result ≠ .verified → ∀ m j, saving m j true ∈ t → verifiedRuntimePermission j = false

theorem Journalled.agrees {mode : Mode} {result : Result} {t : Trace}
    (h : Journalled mode result t) : Agrees mode result t where
  written := by
    intro m j ok mem
    obtain ⟨same, shape⟩ := h.shaped m j ok mem
    have encoded : encode j mode = some (image j mode) := if_pos shape
    exact ⟨same, shape, image j mode, encoded, decode_eq_some_iff.mpr ⟨encoded, rfl⟩⟩
  permits := by
    intro runtime verified
    obtain ⟨j, older, last, permission⟩ := h.proven verified
    exact ⟨j, by rw [last]; rfl, permission runtime⟩
  refuses := by
    intro other m j mem
    have open_ := h.unproven other m j mem
    simp [verifiedRuntimePermission, open_]

/-- Whatever the backend answers, coordinator and codec agree about the journals; and the codec
accepts exactly what it encodes. -/
theorem coordinator_codec_agree :
    (∀ (b : Oracle) mode, ∃ result, (b.run mode).1 = some result ∧
      Agrees mode result (b.run mode).2) ∧
    ∀ (r : Record) mac mode j, decode r mac mode = some j ↔ encode j mode = some r ∧ j.mac = mac := by
  refine ⟨fun b mode => ?_, fun r mac mode j => decode_eq_some_iff⟩
  obtain ⟨result, finished⟩ := b.finishes (run mode) []
  have ended := (Prog.wp_run b.realises (run_writes mode)
    fun _ _ _ mem => absurd mem List.not_mem_nil).2 result finished
  exact ⟨result, finished, ended.agrees⟩

end Mosaico.Gauge.FccRepair
