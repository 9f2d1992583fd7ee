import Mosaico.Gauge.FccRepairSafety

/-! The repair of a gauge that answers truthfully, when one call fails before the configuration is left: what the data
memory holds afterwards. -/
namespace Mosaico.Gauge.FccRepair

open Interaction

/-- The gauge, and which call failed. -/
structure Device where
  dm : Dm
  security : Security
  left : Bool := false
  failure : Option Call := none

/-- A call fails: only one does, and none after the configuration was left. -/
def Device.Breaks (d : Device) (c : Call) (d' : Device) : Prop :=
  d.failure = none ∧ d.left = false ∧ d' = { d with failure := some c }

def Command.stored (c : Command) (dm : Dm) : Dm :=
  match c with
  | .writeConfigOnly value => { dm with config := value }
  | .writeDcOnly value => { dm with dc := value }
  | .writeFccOnly value => { dm with fcc := value }
  | _ => dm

/-- How a command is answered. Before anything is written it may be refused at will; a write or a save that fails is
the one failure, and a write may have taken effect nevertheless. -/
def Command.Answers (c : Command) (d : Device) (ok : Bool) (d' : Device) : Prop :=
  match c with
  | .qualifyRuntimeQuiet | .waitCfg => d' = d
  | .sendUnsealPair | .sendFullPair | .enterCfg => ∃ s, d' = { d with security := s }
  | .exitCfg =>
    ok = true ∧ d' = { d with security := { d.security with cfg := false }, left := true }
  | .reseal =>
    ok = true ∧ d' = { d with security := { d.security with sec := 3 } } ∨
      ok = false ∧ d.Breaks (.command c) d'
  | .verifyTarget target _ =>
    ok = decide (d.dm = target) ∧ d' = d ∨ ok = false ∧ d.Breaks (.command c) d'
  | .journalSaveReadback _ _ | .writeConfigOnly _ | .writeDcOnly _ | .writeFccOnly _ =>
    ok = true ∧ d' = { d with dm := c.stored d.dm } ∨
      ok = false ∧ (d.Breaks (.command c) d' ∨ { d with dm := c.stored d.dm }.Breaks (.command c) d')

/-- What the gauge is asked, it tells as it is. The journal, the identity and the current answer freely. -/
def truthful : Behaviour Call Answer Device := fun c d r d' =>
  match c, r with
  | .journalLoad _, _ | .identity, _ | .quietSnapshot, _ => d' = d
  | .observedSecurity, r =>
    r = some d.security ∧ d' = d ∨ r = none ∧ d.Breaks .observedSecurity d'
  | .dmSnapshot, r => r = some d.dm ∧ d' = d ∨ r = none ∧ d.Breaks .dmSnapshot d'
  | .command c, ok => c.Answers d ok d'

/-- Every field holds its original value or its target. -/
structure Between (o now : Dm) : Prop where
  config : now.config = o.config ∨ now.config = (targetOf o).config
  dc : now.dc = o.dc ∨ now.dc = (targetOf o).dc
  fcc : now.fcc = o.fcc ∨ now.fcc = (targetOf o).fcc

def Call.still : Call → Bool
  | .command c => !c.writes
  | _ => true

/-- The journal that announces the exit could not be saved. -/
def ExitUnsaved (d : Device) : Prop :=
  ∃ mode j, d.failure = some (.command (.journalSaveReadback mode j)) ∧ has j.intents .exit = true

section Truth

variable {o : Dm} {c : Call} {d d' : Device} {r : Answer c}

theorem between_original (o : Dm) : Between o o := ⟨.inl rfl, .inl rfl, .inl rfl⟩

theorem between_target (o : Dm) : Between o (targetOf o) := ⟨.inr rfl, .inr rfl, .inr rfl⟩

theorem Device.Breaks.same (h : d.Breaks c d') : d'.dm = d.dm ∧ d'.security = d.security := by
  rw [h.2.2]
  exact ⟨rfl, rfl⟩

theorem Device.Breaks.spent (h : d.Breaks c d') : d.failure = none ∧ d'.failure ≠ none := by
  rw [h.2.2]
  exact ⟨h.1, fun e => by cases e⟩

/-- A call that writes nothing. -/
theorem truthful_still (step : truthful c d r d') (still : c.still = true) : d'.dm = d.dm := by
  cases c with
  | journalLoad | identity | quietSnapshot => rw [show d' = d from step]
  | observedSecurity | dmSnapshot =>
    rcases step with ⟨_, rfl⟩ | ⟨_, broken⟩
    · rfl
    · exact broken.same.1
  | command k =>
    cases k with
    | qualifyRuntimeQuiet | waitCfg => rw [show d' = d from step]
    | sendUnsealPair | sendFullPair | enterCfg =>
      obtain ⟨s, rfl⟩ := step
      rfl
    | exitCfg =>
      obtain ⟨_, rfl⟩ := step
      rfl
    | reseal | verifyTarget =>
      rcases step with ⟨_, rfl⟩ | ⟨_, broken⟩
      · rfl
      · exact broken.same.1
    | journalSaveReadback =>
      rcases step with ⟨_, rfl⟩ | ⟨_, broken | broken⟩
      · rfl
      · exact broken.same.1
      · exact broken.same.1
    | writeConfigOnly | writeDcOnly | writeFccOnly => cases still

/-- The failure is kept, and there is no second one. -/
theorem truthful_failure (step : truthful c d r d') (spent : d.failure ≠ none) :
    d'.failure = d.failure := by
  cases c with
  | journalLoad | identity | quietSnapshot => rw [show d' = d from step]
  | observedSecurity | dmSnapshot =>
    rcases step with ⟨_, rfl⟩ | ⟨_, broken⟩
    · rfl
    · exact absurd broken.1 spent
  | command k =>
    cases k with
    | qualifyRuntimeQuiet | waitCfg => rw [show d' = d from step]
    | sendUnsealPair | sendFullPair | enterCfg =>
      obtain ⟨s, rfl⟩ := step
      rfl
    | exitCfg =>
      obtain ⟨_, rfl⟩ := step
      rfl
    | reseal | verifyTarget =>
      rcases step with ⟨_, rfl⟩ | ⟨_, broken⟩
      · rfl
      · exact absurd broken.1 spent
    | journalSaveReadback | writeConfigOnly | writeDcOnly | writeFccOnly =>
      rcases step with ⟨_, rfl⟩ | ⟨_, broken | broken⟩
      · rfl
      · exact absurd broken.1 spent
      · exact absurd broken.1 spent

end Truth

/-- From here a condition ends in `Q`, and every field is at its original value or its target throughout. -/
abbrev Leads (o : Dm) (p : Cond) (Q : Bool → Repair → Device → Prop) (d : Device) : Prop :=
  p.wp truthful (fun x d' => Q x.1 x.2 d') (fun d' => Between o d'.dm) d

section Rules

variable {o : Dm} {r : Repair} {d : Device} {Q Q' : Bool → Repair → Device → Prop}

theorem leads_mono {p : Cond} (h : Leads o p Q d) (weaker : ∀ ok r d, Q ok r d → Q' ok r d) : Leads o p Q' d :=
  Prog.wp_mono h (fun x d' => weaker x.1 x.2 d') fun _ => id

theorem leads_both {first : Cond} {next : Repair → Cond} (h : Leads o first Q d)
    (rest : ∀ r d, Q true r d → Leads o (next r) Q' d) (stop : ∀ r d, Q false r d → Q' false r d) :
    Leads o (both first next) Q' d := by
  apply Prog.wp_bind h
  rintro ⟨ok, r⟩ d' hx
  cases ok with
  | false => exact stop r d' hx
  | true => exact rest r d' hx

theorem leads_observed {p : Security → Bool} (between : Between o d.dm) (seen : Q (p d.security) r d)
    (broken : ∀ d', d.Breaks .observedSecurity d' → Q false r d') : Leads o (observed p r) Q d := by
  intro s d' step
  rcases step with ⟨rfl, rfl⟩ | ⟨rfl, broke⟩
  · exact ⟨between, seen⟩
  · exact ⟨show Between o d'.dm from broke.same.1 ▸ between, broken d' broke⟩

theorem leads_command {c : Command} (h : ∀ ok d', c.Answers d ok d' → Between o d'.dm ∧ Q ok r d') :
    Leads o (command c r) Q d := fun ok d' step => h ok d' step

/-- A program without writes keeps the data memory. -/
theorem still_keeps {α : Type} {p : Backend α} (still : p.Uses fun c => c.still = true) (between : Between o d.dm) :
    p.wp truthful (fun _ d' => d'.dm = d.dm) (fun d' => Between o d'.dm) d := by
  have keeps : ∀ (c : Call) e a e', c.still = true → truthful c e a e' → e.dm = d.dm → e'.dm = d.dm :=
    fun c e a e' quiet step same => (truthful_still step quiet).trans same
  exact Prog.wp_mono (still.wp keeps rfl) (fun _ _ => id) fun _ same => same ▸ between

theorem save_still (mode : Mode) (r : Repair) : (save mode r).Uses fun c => c.still = true :=
  ⟨rfl, fun _ => trivial⟩

theorem observed_still (p : Security → Bool) (r : Repair) : (observed p r).Uses fun c => c.still = true :=
  ⟨rfl, fun _ => trivial⟩

theorem intent_still (mode : Mode) (flag : Intent) (r : Repair) :
    (intent mode flag r).Uses fun c => c.still = true := by
  unfold intent
  split
  · trivial
  · exact save_still mode _

private theorem leave_still (mode : Mode) (r : Repair) : (leave mode r).Uses fun c => c.still = true := by
  unfold leave
  split
  · trivial
  · exact (intent_still mode .exit _).bind fun _ => ⟨rfl, fun _ => trivial⟩

theorem cleanup_still (mode : Mode) (r : Repair) : (cleanup mode r).Uses fun c => c.still = true := by
  unfold cleanup
  split
  · trivial
  · apply (leave_still mode r).bind
    intro x
    apply (intent_still mode .seal _).bind
    intro y
    have reseals : (command .reseal y.2).Uses fun c => c.still = true := ⟨rfl, fun _ => trivial⟩
    exact reseals.bind fun z => (observed_still _ z.2).bind fun _ => trivial

theorem close_still (mode : Mode) (r : Repair) : (close mode r).Uses fun c => c.still = true := by
  have checked : (both (cleanup mode r) fun r => command (.verifyTarget r.j.target true) r).Uses
      fun c => c.still = true := by
    apply (cleanup_still mode r).bind
    intro x
    dsimp only
    split
    · exact ⟨rfl, fun _ => trivial⟩
    · trivial
  exact checked.bind fun x => (save_still mode _).bind fun _ => trivial

end Rules

/-- Nothing was written yet. -/
structure Ready (o : Dm) (backed : Bool) (pending : List Intent) (r : Repair) (d : Device) : Prop where
  dm : d.dm = o
  accessed : r.accessed = true
  inside : r.exited = false
  unclaimed : ∀ flag ∈ pending, has r.j.intents flag = false
  valid : r.j.backupValid = backed
  backup : backed = true → r.j.before = o ∧ r.j.target = targetOf o

/-- The gauge is open for writes, and its original values are in the journal. -/
structure Working (o : Dm) (pending : List Intent) (r : Repair) (d : Device) : Prop where
  between : Between o d.dm
  access : fullCfgStatus d.security = true
  accessed : r.accessed = true
  inside : r.exited = false
  unclaimed : ∀ flag ∈ pending, has r.j.intents flag = false
  backed : r.j.backupValid = true
  before : r.j.before = o
  target : r.j.target = targetOf o

/-- A call went through, or it is the one that failed. -/
def Went (d : Device) (after : Dm) (ok : Bool) (d' : Device) : Prop :=
  if ok = true then d'.dm = after ∧ d'.failure = d.failure else d.failure = none ∧ d'.failure ≠ none

section Steps

variable {mode : Mode} {o after : Dm} {backed ok : Bool} {flag : Intent} {pending rest : List Intent} {r : Repair}
  {d d' d'' : Device}

theorem unclaimed_claim (new : flag ∉ pending) (h : ∀ f ∈ flag :: pending, has r.j.intents f = false) :
    ∀ f ∈ pending, has (r.claim flag).j.intents f = false := by
  intro f hf
  have other : flag ≠ f := fun same => new (same ▸ hf)
  simp only [Repair.claim, has_or, h f (List.mem_cons_of_mem _ hf), decide_eq_false other, Bool.or_false]

theorem Ready.stays (h : Ready o backed pending r d) (same : d'.dm = d.dm) : Ready o backed pending r d' :=
  { h with dm := same.trans h.dm }

theorem Ready.claim (h : Ready o backed (flag :: pending) r d) (new : flag ∉ pending) :
    Ready o backed pending (r.claim flag) d :=
  { h with unclaimed := unclaimed_claim new h.unclaimed }

theorem Ready.fewer (h : Ready o backed pending r d) (less : rest ⊆ pending) : Ready o backed rest r d :=
  { h with unclaimed := fun f hf => h.unclaimed f (less hf) }

theorem Ready.between (h : Ready o backed pending r d) : Between o d.dm := h.dm ▸ between_original o

theorem Working.claim (h : Working o (flag :: pending) r d) (new : flag ∉ pending) :
    Working o pending (r.claim flag) d :=
  { h with unclaimed := unclaimed_claim new h.unclaimed }

theorem Working.fewer (h : Working o pending r d) (less : rest ⊆ pending) : Working o rest r d :=
  { h with unclaimed := fun f hf => h.unclaimed f (less hf) }

theorem Working.breaks {c : Call} (h : Working o pending r d) (broken : d.Breaks c d') : Working o pending r d' :=
  { h with
    between := broken.same.1 ▸ h.between
    access := broken.same.2 ▸ h.access }

theorem Working.stores {dm : Dm} (h : Working o pending r d) (between : Between o dm) :
    Working o pending r { d with dm := dm } :=
  { h with between := between }

theorem Device.Breaks.went {c : Call} (broken : d.Breaks c d') : Went d after false d' := broken.spent

theorem Went.trans {middle : Dm} (first : Went d middle true d') (second : Went d' after ok d'') :
    Went d after ok d'' := by
  have same : d'.failure = d.failure := first.2
  cases ok with
  | true => exact ⟨second.1, second.2.trans same⟩
  | false => exact ⟨same ▸ second.1, second.2⟩

theorem Went.spent (h : Went d after ok d') (spent : d.failure ≠ none) :
    ok = true ∧ d'.dm = after ∧ d'.failure ≠ none := by
  cases ok with
  | true => exact ⟨rfl, h.1, fun e => spent (h.2 ▸ e)⟩
  | false => exact absurd h.1 spent

theorem command_ready {c : Command} (h : Ready o backed pending r d) (quiet : c.writes = false) :
    Leads o (command c r) (fun _ r' d' => Ready o backed pending r' d') d := by
  apply leads_command
  intro ok d' step
  have same : d'.dm = d.dm := truthful_still (c := .command c) (r := ok) step (by simp [Call.still, quiet])
  exact ⟨(h.stays same).between, h.stays same⟩

theorem observed_ready {p : Security → Bool} (h : Ready o backed pending r d) :
    Leads o (observed p r) (fun ok r' d' => Ready o backed pending r' d' ∧ (ok = true → p d'.security = true)) d :=
  leads_observed h.between ⟨h, id⟩ fun _ broken => ⟨h.stays broken.same.1, fun e => by cases e⟩

theorem intent_ready (h : Ready o backed (flag :: pending) r d) (new : flag ∉ pending) :
    Leads o (intent mode flag r) (fun _ r' d' => Ready o backed pending r' d') d := by
  rw [intent, if_neg (by simp [h.unclaimed flag (List.mem_cons_self ..)])]
  exact command_ready (h.claim new) rfl

theorem stillQuiet_ready (h : Ready o backed pending r d) :
    Leads o (stillQuiet mode r) (fun _ r' d' => Ready o backed pending r' d') d := by
  intro q d' step
  cases show d' = d from step
  exact ⟨h.between, h⟩

theorem intent_working (h : Working o (flag :: pending) r d) (new : flag ∉ pending) :
    Leads o (intent mode flag r) (fun ok r' d' => Working o pending r' d' ∧ Went d d.dm ok d') d := by
  rw [intent, if_neg (by simp [h.unclaimed flag (List.mem_cons_self ..)])]
  apply leads_command
  intro ok d' step
  rcases step with ⟨rfl, rfl⟩ | ⟨rfl, broken | broken⟩
  · exact ⟨h.between, h.claim new, rfl, rfl⟩
  · exact ⟨broken.same.1 ▸ h.between, (h.claim new).breaks broken, broken.went⟩
  · exact ⟨broken.same.1 ▸ h.between, (h.claim new).breaks broken, broken.went⟩

private theorem fullCfg_working (h : Working o pending r d) :
    Leads o (fullCfg r) (fun ok r' d' => Working o pending r' d' ∧ Went d d.dm ok d') d := by
  apply leads_observed h.between
  · rw [h.access]
    exact ⟨h, rfl, rfl⟩
  · exact fun d' broken => ⟨h.breaks broken, broken.went⟩

private theorem write_working {c : Command} (h : Working o pending r d) (writes : c.writes = true)
    (between : Between o (c.stored d.dm)) :
    Leads o (command c r) (fun ok r' d' => Working o pending r' d' ∧ Went d (c.stored d.dm) ok d') d := by
  have answers : ∀ ok d', c.Answers d ok d' → ok = true ∧ d' = { d with dm := c.stored d.dm } ∨
      ok = false ∧ (d.Breaks (.command c) d' ∨ { d with dm := c.stored d.dm }.Breaks (.command c) d') := by
    cases c with
    | writeConfigOnly | writeDcOnly | writeFccOnly => exact fun _ _ step => step
    | _ => cases writes
  apply leads_command
  intro ok d' step
  rcases answers ok d' step with ⟨rfl, rfl⟩ | ⟨rfl, broken | broken⟩
  · exact ⟨between, h.stores between, rfl, rfl⟩
  · exact ⟨broken.same.1 ▸ h.between, h.breaks broken, broken.went⟩
  · exact ⟨broken.same.1 ▸ between, (h.stores between).breaks broken, broken.spent⟩

theorem announced_working {c : Command} (h : Working o (flag :: pending) r d) (new : flag ∉ pending)
    (writes : c.writes = true) (between : Between o (c.stored d.dm)) :
    Leads o (announced mode flag c r) (fun ok r' d' => Working o pending r' d' ∧ Went d (c.stored d.dm) ok d') d := by
  apply leads_both (intent_working h new)
  · rintro r1 d1 ⟨h1, went1⟩
    apply leads_both (fullCfg_working h1)
    · rintro r2 d2 ⟨h2, went2⟩
      have same : d2.dm = d.dm := went2.1.trans went1.1
      apply leads_mono (write_working h2 writes (same ▸ between))
      rintro ok r3 d3 ⟨h3, went3⟩
      rw [same] at went3
      exact ⟨h3, (went1.trans went2).trans went3⟩
    · rintro r2 d2 ⟨h2, went2⟩
      exact ⟨h2, went1.trans went2⟩
  · rintro r1 d1 ⟨h1, went1⟩
    exact ⟨h1, went1⟩

end Steps

def undoing : List Intent := [.restoreConfig, .restoreDc, .restoreFcc]

/-- From here a failed repair can be undone. -/
inductive Undoable (mode : Mode) (o : Dm) (r : Repair) (d : Device) : Prop where
  | unwritten {backed : Bool} (h : Ready o backed [] r d)
  | written (h : Working o undoing r d) (spent : d.failure ≠ none) (dc : mode = .runtime → o.dc = 65)

/-- Where a step of the repair leads: on to `dm`, or to a state that can be undone. -/
def Onward (mode : Mode) (o dm : Dm) (pending : List Intent) (ok : Bool) (r : Repair) (d : Device) : Prop :=
  if ok = true then Working o pending r d ∧ d.dm = dm else Undoable mode o r d

section Repairing

variable {mode : Mode} {o after : Dm} {pending : List Intent} {r : Repair} {d d' : Device}
    {who : Identity} {ok : Bool}

theorem onward_went (h : Working o pending r d') (went : Went d after ok d') (undo : undoing ⊆ pending)
    (dc : mode = .runtime → o.dc = 65) : Onward mode o after pending ok r d' := by
  cases ok with
  | true => exact ⟨h, went.1⟩
  | false => exact .written (h.fewer undo) went.2 dc

theorem onward_both {dm : Dm} {later : List Intent} {first : Cond} {next : Repair → Cond}
    (h : Leads o first (Onward mode o dm pending) d)
    (rest : ∀ r d, Working o pending r d → d.dm = dm → Leads o (next r) (Onward mode o after later) d) :
    Leads o (both first next) (Onward mode o after later) d :=
  leads_both h (fun r d h => rest r d h.1 h.2) fun _ _ h => h

theorem sent_ready {c : Command} {p : Security → Bool} {backed : Bool} (h : Ready o backed pending r d)
    (quiet : c.writes = false) :
    Leads o (both (command c r) (observed p)) (fun _ r' d' => Ready o backed pending r' d') d :=
  leads_both (command_ready h quiet) (fun _ _ h => leads_mono (observed_ready h) fun _ _ _ h => h.1) fun _ _ h => h

theorem opened_ready (h : Ready o false (.full :: pending) r d) (new : Intent.full ∉ pending) :
    Leads o (opened mode r) (fun _ r' d' => Ready o false pending r' d') d := by
  apply leads_both (stillQuiet_ready h)
  · intro r d h
    exact leads_both (intent_ready h new) (fun r d h => sent_ready h rfl) fun _ _ h => h
  · exact fun r d h => h.fewer (List.subset_cons_self ..)

private theorem original_dc (h : original mode who o = true) : mode = .runtime → o.dc = 65 := by
  rintro rfl
  simp only [original, Bool.and_eq_true, beq_iff_eq] at h
  exact h.2.1

/-- Both snapshots show the data memory as it was. -/
theorem backup_ready (h : Ready o false pending r d) :
    Leads o (backup mode who r) (fun ok r' d' => if ok = true then
      Ready o true pending r' d' ∧ (mode = .runtime → o.dc = 65) else Ready o false pending r' d') d := by
  have h0 : ∀ {e}, Ready o false pending r e →
      Ready o false pending { r with j := { r.j with fullAccessVerified := true } } e := fun h => { h with }
  intro first d1 step1
  rcases step1 with ⟨rfl, rfl⟩ | ⟨rfl, broken⟩
  · refine ⟨h.between, ?_⟩
    intro second d2 step2
    rcases step2 with ⟨rfl, rfl⟩ | ⟨rfl, broken⟩
    · refine ⟨h.between, ?_⟩
      dsimp only [Prog.bind]
      split
      · rename_i equal
        rw [h.dm] at equal ⊢
        exact ⟨{ h with valid := rfl, backup := fun _ => ⟨rfl, rfl⟩ }, original_dc equal.2⟩
      · exact h0 h
    · exact ⟨(h.stays broken.same.1).between, h0 (h.stays broken.same.1)⟩
  · exact ⟨(h.stays broken.same.1).between, h0 (h.stays broken.same.1)⟩

theorem entered_ready (h : Ready o true (.enter :: pending) r d) (new : Intent.enter ∉ pending) :
    Leads o (entered mode r) (fun ok r' d' => Ready o true pending r' d' ∧
      (ok = true → fullCfgStatus d'.security = true)) d := by
  apply leads_both (intent_ready h new)
  · intro r d h
    apply leads_both (command_ready h rfl)
    · intro r d h
      exact leads_both (command_ready h rfl) (fun r d h => observed_ready h) fun _ _ h => ⟨h, fun e => by cases e⟩
    · exact fun _ _ h => ⟨h, fun e => by cases e⟩
  · exact fun _ _ h => ⟨h, fun e => by cases e⟩

theorem Ready.working (h : Ready o true pending r d) (access : fullCfgStatus d.security = true) :
    Working o pending r d :=
  { h with
    between := h.between
    access := access
    backed := h.valid
    before := (h.backup rfl).1
    target := (h.backup rfl).2 }

theorem applyConfig_onward (h : Working o (.config :: pending) r d) (new : Intent.config ∉ pending) (same : d.dm = o)
    (undo : undoing ⊆ pending) (dc : mode = .runtime → o.dc = 65) :
    Leads o (applyConfig mode r) (Onward mode o { o with config := (targetOf o).config } pending) d := by
  have stored : (Command.writeConfigOnly r.j.target.config).stored d.dm =
      { o with config := (targetOf o).config } := by
    rw [same, h.target]
    rfl
  have between : Between o ((Command.writeConfigOnly r.j.target.config).stored d.dm) := by
    rw [stored]
    exact ⟨.inr rfl, .inl rfl, .inl rfl⟩
  apply leads_mono (announced_working h new rfl between)
  rintro ok r' d' ⟨h', went⟩
  exact onward_went h' (stored ▸ went) undo dc

theorem applyDc_onward (h : Working o (.dc :: pending) r d) (new : Intent.dc ∉ pending)
    (same : d.dm = { o with config := (targetOf o).config }) (undo : undoing ⊆ pending)
    (dc : mode = .runtime → o.dc = 65) :
    Leads o (applyDc mode r) (Onward mode o { targetOf o with fcc := o.fcc } pending) d := by
  unfold applyDc
  split
  · have stored : (Command.writeDcOnly 65).stored d.dm = { targetOf o with fcc := o.fcc } := by
      rw [same]
      rfl
    have between : Between o ((Command.writeDcOnly 65).stored d.dm) := by
      rw [stored]
      exact ⟨.inr rfl, .inr rfl, .inl rfl⟩
    apply leads_mono (announced_working h new rfl between)
    rintro ok r' d' ⟨h', went⟩
    exact onward_went h' (stored ▸ went) undo dc
  · rename_i warm
    have runtime : mode = .runtime := by
      cases mode with
      | runtime => rfl
      | coldFactory => exact absurd rfl warm
    refine ⟨h.fewer (List.subset_cons_self ..), ?_⟩
    rw [same, dc runtime]
    rfl

theorem applyFcc_onward (h : Working o (.fcc :: pending) r d) (new : Intent.fcc ∉ pending)
    (same : d.dm = { targetOf o with fcc := o.fcc }) (undo : undoing ⊆ pending) (dc : mode = .runtime → o.dc = 65) :
    Leads o (applyFcc mode r) (Onward mode o (targetOf o) pending) d := by
  unfold applyFcc
  split
  · rename_i small
    rw [h.before] at small
    refine ⟨h.fewer (List.subset_cons_self ..), ?_⟩
    rw [same, small]
    rfl
  · have stored : (Command.writeFccOnly 65).stored d.dm = targetOf o := by
      rw [same]
      rfl
    apply leads_mono (announced_working h new rfl (stored ▸ between_target o))
    rintro ok r' d' ⟨h', went⟩
    exact onward_went h' (stored ▸ went) undo dc

theorem confirmed_onward (h : Working o (.targetVerified :: pending) r d) (new : Intent.targetVerified ∉ pending)
    (same : d.dm = targetOf o) (undo : undoing ⊆ pending) (dc : mode = .runtime → o.dc = 65) :
    Leads o (confirmed mode r) (Onward mode o (targetOf o) pending) d := by
  have verified : Leads o (command (.verifyTarget r.j.target false) r)
      (fun ok r' d' => Working o (.targetVerified :: pending) r' d' ∧ Went d (targetOf o) ok d') d := by
    apply leads_command
    intro ok d' step
    rcases step with ⟨rfl, rfl⟩ | ⟨rfl, broken⟩
    · refine ⟨h.between, h, ?_⟩
      rw [h.target, decide_eq_true same]
      exact ⟨same, rfl⟩
    · exact ⟨broken.same.1 ▸ h.between, h.breaks broken, broken.went⟩
  apply leads_both verified
  · rintro r1 d1 ⟨h1, went1⟩
    apply leads_mono (intent_working h1 new)
    rintro ok r2 d2 ⟨h2, went2⟩
    exact onward_went h2 (went1.1 ▸ went1.trans went2) undo dc
  · rintro r1 d1 ⟨h1, went1⟩
    exact .written (h1.fewer fun f hf => List.mem_cons_of_mem _ (undo hf)) went1.2 dc

def intents : List Intent :=
  [.full, .enter, .config, .dc, .fcc, .targetVerified, .restoreConfig, .restoreDc, .restoreFcc, .exit, .seal]

theorem repair_onward (h : Ready o false intents r d) :
    Leads o (repair mode who r) (Onward mode o (targetOf o) [.restoreConfig, .restoreDc, .restoreFcc, .exit, .seal])
      d := by
  have unwritten : ∀ {backed pending r d}, Ready o backed pending r d → Undoable mode o r d :=
    fun h => .unwritten (h.fewer (List.nil_subset _))
  apply leads_both (sent_ready h rfl) _ fun _ _ h => unwritten h
  intro r d h
  apply leads_both (opened_ready h (by decide)) _ fun _ _ h => unwritten h
  intro r d h
  apply leads_both (backup_ready h) _ fun _ _ h => unwritten h
  rintro r d ⟨h, dc⟩
  apply leads_both (entered_ready h (by decide)) _ fun _ _ h => unwritten h.1
  rintro r d ⟨h, access⟩
  apply onward_both (applyConfig_onward (h.working (access rfl)) (by decide) h.dm (by decide) dc)
  intro r d h same
  apply onward_both (applyDc_onward h (by decide) same (by decide) dc)
  intro r d h same
  apply onward_both (applyFcc_onward h (by decide) same (by decide) dc)
  intro r d h same
  exact confirmed_onward h (by decide) same (by decide) dc

end Repairing

section Undoing

theorem Dm.same {a b : Dm} (config : a.config = b.config) (dc : a.dc = b.dc) (fcc : a.fcc = b.fcc) : a = b := by
  cases a
  cases b
  simp_all

variable {mode : Mode} {o : Dm} {pending : List Intent} {r : Repair} {d : Device}
  {Q : Bool → Repair → Device → Prop}

private theorem known_between (h : Working o pending r d) : known r.j d.dm = true := by
  simp only [known, h.before, h.target, Bool.and_eq_true, Bool.or_eq_true, beq_iff_eq]
  exact ⟨⟨h.between.config, h.between.dc⟩, h.between.fcc⟩

/-- After the failure every look at the gauge succeeds. -/
theorem knownDm_working {p : Dm → Bool} {next : Dm → Cond} (h : Working o pending r d) (spent : d.failure ≠ none)
    (fits : p d.dm = true) (then_ : Leads o (next d.dm) Q d) : Leads o (knownDm p r next) Q d := by
  have looked : Leads o (fullCfg r) (fun ok r' d' => ok = true ∧ r' = r ∧ d' = d) d := by
    apply leads_observed h.between
    · exact ⟨h.access, rfl, rfl⟩
    · exact fun d' broken => absurd broken.1 spent
  apply leads_both looked
  · rintro _ _ ⟨_, rfl, rfl⟩
    intro now d' step
    rcases step with ⟨rfl, rfl⟩ | ⟨_, broken⟩
    · refine ⟨h.between, ?_⟩
      dsimp only [Prog.bind]
      rw [if_pos (by rw [known_between h, fits]; rfl)]
      exact then_
    · exact absurd broken.1 spent
  · rintro _ _ ⟨no, _⟩
    cases no

private theorem announced_spent {flag : Intent} {c : Command} (h : Working o (flag :: pending) r d)
    (spent : d.failure ≠ none) (new : flag ∉ pending) (writes : c.writes = true)
    (between : Between o (c.stored d.dm)) :
    Leads o (announced mode flag c r) (fun ok r' d' => ok = true ∧ Working o pending r' d' ∧ d'.failure ≠ none ∧
      d'.dm = c.stored d.dm) d := by
  apply leads_mono (announced_working h new writes between)
  rintro ok r' d' ⟨h', went⟩
  obtain ⟨through, same, still⟩ := went.spent spent
  exact ⟨through, h', still, same⟩

theorem rollback_restores_written (h : Working o undoing r d) (spent : d.failure ≠ none)
    (dc : mode = .runtime → o.dc = 65) : Leads o (rollback mode r) (fun _ _ d' => d'.dm = o) d := by
  rw [rollback, if_neg (by simp [h.backed])]
  have config : Leads o (restoreConfig mode r) (fun ok r' d' => ok = true ∧
      Working o [.restoreDc, .restoreFcc] r' d' ∧ d'.failure ≠ none ∧ d'.dm.config = o.config) d := by
    apply knownDm_working h spent rfl
    split
    · rename_i same
      exact ⟨rfl, h.fewer (List.subset_cons_self ..), spent, by rw [same, h.before]⟩
    · have between : Between o ((Command.writeConfigOnly r.j.before.config).stored d.dm) :=
        ⟨.inl (by rw [h.before]; rfl), h.between.dc, h.between.fcc⟩
      apply leads_mono (announced_spent h spent (by decide) rfl between)
      rintro ok r' d' ⟨through, h', still, same⟩
      exact ⟨through, h', still, by rw [same, h.before]; rfl⟩
  apply leads_both config _ fun _ _ no => by cases no.1
  rintro r d ⟨_, h, spent, config⟩
  have dcs : Leads o (restoreDc mode r) (fun ok r' d' => ok = true ∧ Working o [.restoreFcc] r' d' ∧
      d'.failure ≠ none ∧ d'.dm.config = o.config ∧ d'.dm.dc = o.dc) d := by
    apply knownDm_working h spent (by simp [config, h.before])
    split
    · rename_i same
      exact ⟨rfl, h.fewer (List.subset_cons_self ..), spent, config, by rw [same, h.before]⟩
    · rename_i other
      split
      · rename_i warm
        have runtime : mode = .runtime := by
          cases mode with
          | runtime => rfl
          | coldFactory => exact absurd rfl warm
        -- at runtime the original value is the target, so there is no other
        refine absurd ?_ other
        rw [h.before]
        rcases h.between.dc with same | same
        · exact same
        · rw [same, dc runtime]
          rfl
      · have between : Between o ((Command.writeDcOnly r.j.before.dc).stored d.dm) :=
          ⟨h.between.config, .inl (by rw [h.before]; rfl), h.between.fcc⟩
        apply leads_mono (announced_spent h spent (by decide) rfl between)
        rintro ok r' d' ⟨through, h', still, same⟩
        exact ⟨through, h', still, by rw [same]; exact config, by rw [same, h.before]; rfl⟩
  apply leads_both dcs _ fun _ _ no => by cases no.1
  rintro r d ⟨_, h, spent, config, dc⟩
  apply knownDm_working h spent (by simp [config, dc, h.before])
  split
  · rename_i same
    rw [h.before] at same
    exact Dm.same config dc same
  · have between : Between o ((Command.writeFccOnly r.j.before.fcc).stored d.dm) :=
      ⟨h.between.config, h.between.dc, .inl (by rw [h.before]; rfl)⟩
    apply leads_mono (announced_spent h spent (by decide) rfl between)
    rintro ok r' d' ⟨_, _, _, same⟩
    rw [same, h.before]
    exact Dm.same config dc rfl

/-- Where nothing differs, nothing is written back. -/
theorem knownDm_unwritten {p : Dm → Bool} {next : Dm → Cond} (same : d.dm = o)
    (then_ : next o = pure (true, r)) :
    Leads o (knownDm p r next) (fun _ r' d' => r' = r ∧ d'.dm = o) d := by
  have between : Between o d.dm := same ▸ between_original o
  apply leads_both (Q := fun _ r' d' => r' = r ∧ d'.dm = o)
    (leads_observed between ⟨rfl, same⟩ fun d' broken => ⟨rfl, broken.same.1.trans same⟩)
  · rintro _ d' ⟨rfl, same⟩
    have between : Between o d'.dm := same ▸ between_original o
    intro now d1 step
    rcases step with ⟨rfl, rfl⟩ | ⟨rfl, broken⟩
    · refine ⟨between, ?_⟩
      dsimp only [Prog.bind]
      split
      · rw [same, then_]
        exact ⟨rfl, same⟩
      · exact ⟨rfl, same⟩
    · have kept : d1.dm = o := broken.same.1.trans same
      exact ⟨show Between o d1.dm from kept ▸ between_original o, rfl, kept⟩
  · exact fun _ _ h => h

private theorem rollback_unwritten {backed : Bool} (h : Ready o backed pending r d) :
    Leads o (rollback mode r) (fun _ _ d' => d'.dm = o) d := by
  unfold rollback
  split
  · exact h.dm
  · rename_i valid
    have before : r.j.before = o := (h.backup (by rw [← h.valid]; simpa using valid)).1
    apply leads_both (knownDm_unwritten h.dm (by rw [before, if_pos rfl])) _ fun _ _ h => h.2
    rintro _ d ⟨rfl, same⟩
    apply leads_both (knownDm_unwritten same (by rw [before, if_pos rfl])) _ fun _ _ h => h.2
    rintro _ d ⟨rfl, same⟩
    exact leads_mono (knownDm_unwritten same (by rw [before, if_pos rfl])) fun _ _ _ h => h.2

theorem Undoable.rollback (h : Undoable mode o r d) : Leads o (rollback mode r) (fun _ _ d' => d'.dm = o) d := by
  cases h with
  | unwritten h => exact rollback_unwritten h
  | written h spent dc => exact rollback_restores_written h spent dc

theorem Undoable.accessed (h : Undoable mode o r d) : r.accessed = true := by
  cases h with
  | unwritten h => exact h.accessed
  | written h _ _ => exact h.accessed

theorem fail_undoes (h : Undoable mode o r d) :
    (fail mode r).wp truthful (fun result d' => result = .failed ∧ d'.dm = o) (fun d' => Between o d'.dm) d := by
  have abandoned : (abandon mode r).wp truthful (fun _ d' => d'.dm = o) (fun d' => Between o d'.dm) d := by
    rw [abandon, if_pos h.accessed]
    apply Prog.wp_bind h.rollback
    intro x d' same
    exact Prog.wp_mono (still_keeps (cleanup_still mode x.2) (same ▸ between_original o)) (fun _ _ e => e.trans same)
      fun _ => id
  apply Prog.wp_bind abandoned
  intro x d' same
  apply Prog.wp_bind (still_keeps (save_still mode _) (same ▸ between_original o))
  exact fun _ _ e => ⟨rfl, e.trans same⟩

end Undoing

section Closing

variable {mode : Mode} {o : Dm} {r : Repair} {d : Device}

/-- What holds once the journal of the exit could not be saved goes on to hold. -/
private theorem unsaved_stays {α : Type} {p : Backend α} (h : ExitUnsaved d) :
    p.wp truthful (fun _ d' => ExitUnsaved d') (fun _ => True) d := by
  obtain ⟨m, j, failed, announces⟩ := h
  have keeps : ∀ (c : Call) e a e', True → truthful c e a e' → e.failure = d.failure →
      e'.failure = d.failure := by
    intro c e a e' _ step same
    have spent : e.failure ≠ none := by
      rw [same, failed]
      exact fun no => by cases no
    exact (truthful_failure step spent).trans same
  apply Prog.wp_mono ((Prog.uses_any p).wp keeps rfl)
  · exact fun _ _ same => ⟨m, j, same.trans failed, announces⟩
  · exact fun _ _ => trivial

theorem unsaved_ends {α : Type} {p : Backend α} {Q : α → Device → Prop} (h : ExitUnsaved d)
    (weaker : ∀ a e, ExitUnsaved e → Q a e) : p.wp truthful Q (fun _ => True) d :=
  Prog.wp_mono (unsaved_stays h) weaker fun _ h => h

theorem Device.left_whole (left : d.left = true) {c : Call} {d' : Device} : ¬ d.Breaks c d' := by
  intro broken
  have inside := broken.2.1
  rw [left] at inside
  cases inside

theorem left_saves {j : Journal} {ok : Bool} {d' : Device} (left : d.left = true)
    (step : truthful (.command (.journalSaveReadback mode j)) d ok d') : ok = true ∧ d' = d := by
  rcases step with ⟨rfl, rfl⟩ | ⟨_, broken | broken⟩
  · exact ⟨rfl, rfl⟩
  · exact absurd broken (Device.left_whole left)
  · exact absurd broken (Device.left_whole left)

def Device.exited (d : Device) : Device := { d with security := { d.security with cfg := false }, left := true }

def Device.sealed (d : Device) : Device := { d with security := { d.security with sec := 3 } }

theorem leave_leads (h : Working o [.exit, .seal] r d) :
    (leave mode r).wp truthful (fun x d' => ExitUnsaved d' ∨
      x = (true, { r.claim .exit with exited := true }) ∧ d' = d.exited) (fun _ => True) d := by
  have new : has r.j.intents .exit = false := h.unclaimed _ (by decide)
  rw [leave, if_neg (by simp [h.inside]), intent, if_neg (by simp [new])]
  intro ok d1 step
  refine ⟨trivial, ?_⟩
  have unsaved : ∀ c : Call, c = .command (.journalSaveReadback mode (r.claim .exit).j) → d1.failure = some c →
      ExitUnsaved d1 := by
    rintro c rfl failed
    exact ⟨mode, _, failed, by simp [Repair.claim, has_or]⟩
  rcases step with ⟨rfl, rfl⟩ | ⟨rfl, broken | broken⟩
  · intro ok d2 step
    obtain ⟨rfl, rfl⟩ := step
    exact ⟨trivial, .inr ⟨rfl, rfl⟩⟩
  · exact unsaved_ends (unsaved _ rfl (by rw [broken.2.2]; rfl)) fun _ _ => .inl
  · exact unsaved_ends (unsaved _ rfl (by rw [broken.2.2]; rfl)) fun _ _ => .inl

theorem cleanup_leads (h : Working o [.exit, .seal] r d) :
    (cleanup mode r).wp truthful (fun x d' => ExitUnsaved d' ∨
      x.1 = true ∧ x.2.j.target = r.j.target ∧ d' = d.exited.sealed) (fun _ => True) d := by
  rw [cleanup, if_neg (by simp [h.accessed])]
  apply Prog.wp_bind (leave_leads h)
  rintro x d1 (unsaved | ⟨rfl, rfl⟩)
  · exact unsaved_ends unsaved fun _ _ => .inl
  · have new : has ({ r.claim .exit with exited := true } : Repair).j.intents .seal = false := by
      simp [Repair.claim, has_or, h.unclaimed .seal (by decide)]
    dsimp only
    rw [intent, if_neg (by rw [new]; exact Bool.false_ne_true)]
    intro ok d2 step
    obtain ⟨rfl, rfl⟩ := left_saves rfl step
    refine ⟨trivial, ?_⟩
    intro ok d3 step
    rcases step with ⟨rfl, rfl⟩ | ⟨_, broken⟩
    · refine ⟨trivial, ?_⟩
      intro s d4 step
      rcases step with ⟨rfl, rfl⟩ | ⟨_, broken⟩
      · refine ⟨trivial, .inr ⟨?_, rfl, rfl⟩⟩
        have access := h.access
        simp only [fullCfgStatus, Bool.and_eq_true, Bool.not_eq_true', beq_iff_eq] at access
        simp [Device.exited, normal, access]
      · exact absurd broken (Device.left_whole rfl)
    · exact absurd broken (Device.left_whole rfl)

/-- Only where the exit could not be announced the repair is not verified. -/
theorem close_leads (h : Working o [.exit, .seal] r d) (same : d.dm = targetOf o) :
    (close mode r).wp truthful (fun result d' => result ≠ .verified → ExitUnsaved d') (fun _ => True) d := by
  have checked : (both (cleanup mode r) fun r => command (.verifyTarget r.j.target true) r).wp truthful
      (fun x d' => ExitUnsaved d' ∨ x.1 = true ∧ d'.left = true) (fun _ => True) d := by
    apply Prog.wp_bind (cleanup_leads h)
    rintro ⟨ok, r1⟩ d1 (unsaved | ⟨rfl, target, rfl⟩)
    · exact unsaved_ends unsaved fun _ _ => .inl
    · dsimp only
      rw [if_pos rfl]
      intro ok d2 step
      rcases step with ⟨rfl, rfl⟩ | ⟨_, broken⟩
      · refine ⟨trivial, .inr ⟨?_, rfl⟩⟩
        dsimp only at target ⊢
        rw [target, h.target]
        exact decide_eq_true same
      · exact absurd broken (Device.left_whole rfl)
  apply Prog.wp_bind checked
  rintro ⟨verified, r1⟩ d1 (unsaved | ⟨rfl, left⟩)
  · exact unsaved_ends unsaved fun _ _ h _ => h
  · intro ok d2 step
    obtain ⟨rfl, rfl⟩ := left_saves left step
    exact ⟨trivial, fun other => absurd rfl other⟩

end Closing

/-- How a repair leaves the data memory that held `o`. -/
def Settled (o : Dm) (result : Result) (d : Device) : Prop :=
  if result = .verified then d.dm = targetOf o else d.dm = o ∨ d.dm = targetOf o ∧ ExitUnsaved d

section Run

variable {mode : Mode} {o : Dm} {r : Repair} {d : Device}

theorem close_settles (h : Working o [.exit, .seal] r d) (same : d.dm = targetOf o) :
    (close mode r).wp truthful (Settled o) (fun d' => Between o d'.dm) d := by
  have kept := still_keeps (close_still mode r) (same ▸ between_target o)
  apply Prog.wp_mono (Prog.wp_and kept (close_leads h same))
  · rintro result d' ⟨kept, unsaved⟩
    unfold Settled
    split
    · exact kept.trans same
    · rename_i other
      exact .inr ⟨kept.trans same, unsaved other⟩
  · exact fun _ h => h.1

private theorem qualify_still (mode : Mode) : (qualify mode).Uses fun c => c.still = true := by
  apply (qualify_uses mode).mono
  intro c reads
  cases c with
  | command k => cases k <;> first | rfl | (cases reads true)
  | _ => rfl

theorem run_settles (mode : Mode) (d : Device) :
    (run mode).wp truthful (Settled d.dm) (fun d' => Between d.dm d'.dm) d := by
  apply Prog.wp_bind (still_keeps (qualify_still mode) (between_original _))
  intro who d1 same
  cases who with
  | none => exact .inl same
  | some who =>
    have announced : (intent mode .unseal { j := { mac := who.mac } }).wp truthful
        (fun x d' => x.2 = ({ j := { mac := who.mac } } : Repair).claim .unseal ∧ d'.dm = d.dm)
        (fun d' => Between d.dm d'.dm) d1 := by
      have new : ¬ has 0 .unseal = true := by decide
      rw [intent, if_neg new]
      intro ok d2 step
      have same : d2.dm = d.dm := (truthful_still step rfl).trans same
      exact ⟨show Between d.dm d2.dm from same ▸ between_original _, rfl, same⟩
    apply Prog.wp_bind announced
    rintro ⟨ok, r⟩ d2 ⟨rfl, same⟩
    dsimp only
    split
    · exact .inl same
    have unclaimed : ∀ flag ∈ intents, has (0 ||| Intent.unseal.bit) flag = false := by decide
    have ready : Ready d.dm false intents
        { ({ j := { mac := who.mac } } : Repair).claim .unseal with accessed := true } d2 :=
      ⟨same, rfl, rfl, unclaimed, rfl, fun e => by cases e⟩
    apply Prog.wp_bind (repair_onward ready)
    rintro ⟨ok, r⟩ d3 onward
    cases ok with
    | true => exact close_settles (onward.1.fewer (by decide)) onward.2
    | false =>
      apply Prog.wp_mono (fail_undoes onward)
      · rintro result d4 ⟨rfl, same⟩
        exact .inl same
      · exact fun _ h => h

end Run

/-- While the repair runs every field holds its original value or its target. A verified repair leaves the target; any
other leaves the original, unless the one call that failed is the save that announces the exit. -/
theorem rollback_restores (mode : Mode) (dm : Dm) (security : Security) :
    (∀ d, (run mode).Visits truthful { dm := dm, security := security } d → Between dm d.dm) ∧
      ∀ result d, (run mode).Ends truthful { dm := dm, security := security } result d →
        (result = .verified → d.dm = targetOf dm) ∧
          (result ≠ .verified → d.dm = dm ∨ d.dm = targetOf dm ∧ ExitUnsaved d) := by
  have settles := run_settles mode { dm := dm, security := security }
  constructor
  · intro d visited
    apply Prog.wp_visits settles _ visited
    exact between_original dm
  · intro result d ended
    have settled : Settled dm result d := Prog.wp_ends settles ended
    exact ⟨fun verified => by rwa [Settled, if_pos verified] at settled,
      fun other => by rwa [Settled, if_neg other] at settled⟩

/-- A gauge on the bench: sealed, quiet and full, with one failure at the first save or write that is picked. -/
def bench (picked : Command → Bool) : Machine Call Answer Device := fun c d =>
  match c with
  | .journalLoad _ => (some (.absent, .pending), d)
  | .identity => (some (some ⟨Vector.replicate 6 0, 0x0220, true, true, true, 0⟩), d)
  | .quietSnapshot => (some (some ⟨0x26, 80, 4200, 65, 100, 2980, 0, 0⟩), d)
  | .observedSecurity => (some (some d.security), d)
  | .dmSnapshot => (some (some d.dm), d)
  | .command .qualifyRuntimeQuiet | .command .waitCfg => (some true, d)
  | .command .sendUnsealPair => (some true, { d with security := { d.security with sec := 2 } })
  | .command .sendFullPair => (some true, { d with security := { d.security with sec := 1 } })
  | .command .enterCfg => (some true, { d with security := { d.security with cfg := true } })
  | .command .exitCfg => (some true, d.exited)
  | .command .reseal => (some true, d.sealed)
  | .command (.verifyTarget target _) => (some (decide (d.dm = target)), d)
  | .command k =>
    if d.failure = none ∧ d.left = false ∧ picked k = true then
      (some false, { d with dm := k.stored d.dm, failure := some (.command k) })
    else (some true, { d with dm := k.stored d.dm })

def benchDm : Dm := { config := 0x20, dc := 65, fcc := 100 }

def benchSecurity : Security := { sec := 3, cfg := false, cal := false, initialized := true }

theorem bench_realises (picked : Command → Bool) : Prog.Realises (bench picked) truthful id where
  answered := by
    have stored : ∀ (k : Command) (d d' : Device) (ok : Bool),
        (if d.failure = none ∧ d.left = false ∧ picked k = true then
          (some false, { d with dm := k.stored d.dm, failure := some (.command k) })
          else (some true, { d with dm := k.stored d.dm })) = (some ok, d') →
        ok = true ∧ d' = { d with dm := k.stored d.dm } ∨ ok = false ∧
          (d.Breaks (.command k) d' ∨ { d with dm := k.stored d.dm }.Breaks (.command k) d') := by
      intro k d d' ok h
      split at h
      · rename_i breaks
        cases h
        exact .inr ⟨rfl, .inr ⟨breaks.1, breaks.2.1, rfl⟩⟩
      · cases h
        exact .inl ⟨rfl, rfl⟩
    intro c d r d' h
    cases c with
    | journalLoad | identity | quietSnapshot =>
      cases h
      rfl
    | observedSecurity | dmSnapshot =>
      cases h
      exact .inl ⟨rfl, rfl⟩
    | command k =>
      cases k with
      | qualifyRuntimeQuiet | waitCfg =>
        cases h
        rfl
      | sendUnsealPair | sendFullPair | enterCfg =>
        cases h
        exact ⟨_, rfl⟩
      | exitCfg =>
        cases h
        exact ⟨rfl, rfl⟩
      | reseal | verifyTarget =>
        cases h
        exact .inl ⟨rfl, rfl⟩
      | journalSaveReadback | writeConfigOnly | writeDcOnly | writeFccOnly => exact stored _ d d' r h
  cut := by
    intro c d d' h
    cases c with
    | command k =>
      cases k with
      | journalSaveReadback | writeConfigOnly | writeDcOnly | writeFccOnly =>
        simp only [bench] at h
        split at h <;> cases h
      | _ => cases h
    | _ => cases h

def announcesExit (k : Command) : Bool :=
  match k with
  | .journalSaveReadback _ j => has j.intents .exit
  | _ => false

def writesFcc (k : Command) : Bool :=
  match k with
  | .writeFccOnly _ => true
  | _ => false

/-- A write that fails after it took effect is undone. -/
theorem rollback_restores_bench :
    ∃ d, (run .runtime).Ends truthful { dm := benchDm, security := benchSecurity } .failed d ∧
      (d.dm = benchDm ∨ d.dm = targetOf benchDm ∧ ExitUnsaved d) := by
  have failed : ((run .runtime).run (bench writesFcc) { dm := benchDm, security := benchSecurity }).1 =
      some .failed := by decide +kernel
  have ended := Prog.ends_run (bench_realises writesFcc) failed
  exact ⟨_, ended, ((rollback_restores .runtime benchDm benchSecurity).2 _ _ ended).2 (by decide)⟩

/-- The target stays although the repair is not verified: the exit could not be announced. -/
theorem target_stranded : ¬ ∀ mode dm security result d,
    (run mode).Ends truthful { dm := dm, security := security } result d → result ≠ .verified → d.dm = dm := by
  intro claimed
  have failed : ((run .runtime).run (bench announcesExit) { dm := benchDm, security := benchSecurity }).1 =
      some .failed := by decide +kernel
  have ended := Prog.ends_run (bench_realises announcesExit) failed
  have kept := claimed _ _ _ _ _ ended (by decide)
  exact absurd kept (by decide +kernel)

end Mosaico.Gauge.FccRepair
