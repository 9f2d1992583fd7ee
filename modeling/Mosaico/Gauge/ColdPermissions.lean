import Mosaico.Gauge.ColdPlanner

/-! The permissions the cold trial releases, over any number of boots on one record
chain. A boot has a fresh session and a nonce no earlier boot had; records are written
one transition at a time and a write may be lost; acknowledgements are truthful: an exact
durable proof names a record that was written, and a planner that is told its record is
durable is given the durable one. A poll continues a capture that was released
(`capturePoll_continues`) and releases none. -/
namespace Mosaico.Gauge.ColdTrial

inductive Permission where
  | capture | apply | inspect | restore
  deriving DecidableEq, Repr

inductive Planner where
  | normal | abort
  deriving DecidableEq, Repr

/-- A permission that was released: for which record, by which planner, in which boot, and
what the journal held then. -/
structure Release where
  permission : Permission
  planner : Planner
  record : Record
  boot : BootToken
  durable : Option Record
  deriving DecidableEq, Repr

inductive Entry where
  | boot | blocked | released (x : Release)
  deriving DecidableEq, Repr

structure Trial where
  boot : BootToken := {}
  /-- the nonces of all boots so far -/
  nonces : List Nonce := []
  session : Session := {}
  /-- the records the journal has held, newest first -/
  history : List Record := []
  log : List Entry := []

def Trial.durable (t : Trial) : Option Record := t.history.head?

inductive Event where
  | reboot (boot : BootToken)
  | write (next : Record) (takes : Bool)
  | afterPersist (before next : Record) (p : Proof) (c : Context) (first : Bool)
  | authorizeApply (r : Record) (c : Context)
  | captureEvidence (r : Record) (c : Context) (captured : CaptureResult) (digest : Digest)
  | authorizeRestoreInspection (r : Record) (c : Context)
  | authorizeRestore (r : Record) (c : Context)
  | unknownOutcome
  | abortInspect (r : Record) (c : Context) (w : Abort.Witness)
  | abortRestore (r : Record) (c : Context) (w : Abort.Witness)

def released? : Action → Option Permission
  | .readOnlyCapture => some .capture
  | .applyC65Owned3 => some .apply
  | .inspectForRestore => some .inspect
  | .restoreOriginalOwned3 => some .restore
  | _ => none

def Trial.took (t : Trial) (planner : Planner) (r : Record) (d : Decision × Session) : Trial :=
  let blocked := if d.2.blocked && !t.session.blocked then [Entry.blocked] else []
  let released := match released? d.1.action with
    | some p => [Entry.released ⟨p, planner, r, t.boot, t.durable⟩]
    | none => []
  { t with session := d.2, log := released ++ blocked ++ t.log }

def Trial.here (t : Trial) (c : Context) : Context := { c with boot := t.boot }

def Trial.mayWrite (t : Trial) (next : Record) : Bool :=
  match t.durable with
  | none => initial next
  | some r => transition r next

def Trial.acknowledges (t : Trial) (p : Proof) (next : Record) : Bool :=
  p.result != .exactDurable || next ∈ t.history

/-- The planner was not told that another record than the durable one is durable. -/
def Trial.given (t : Trial) (r : Record) (c : Context) : Bool :=
  !c.recordDurable || t.durable == some r

def Trial.step (t : Trial) : Event → Trial
  | .reboot boot =>
    if validBoot boot && !(boot.nonce ∈ t.nonces) then
      { t with boot := boot, nonces := boot.nonce :: t.nonces, session := {},
               log := .boot :: t.log }
    else t
  | .write next takes =>
    if takes && t.mayWrite next then { t with history := next :: t.history } else t
  | .afterPersist before next p c first =>
    if t.acknowledges p next then
      t.took .normal next (afterPersist before next p (t.here c) t.session first)
    else t
  | .authorizeApply r c =>
    if t.given r c then t.took .normal r (authorizeApply r (t.here c) t.session) else t
  | .captureEvidence r c captured digest =>
    if t.given r c then
      t.took .normal r (captureEvidence r (t.here c) t.session captured digest)
    else t
  | .authorizeRestoreInspection r c =>
    if t.given r c then
      t.took .normal r (authorizeRestoreInspection r (t.here c) t.session)
    else t
  | .authorizeRestore r c =>
    if t.given r c then t.took .normal r (authorizeRestore r (t.here c) t.session) else t
  | .unknownOutcome => t.took .normal {} (unknownOutcome t.session)
  | .abortInspect r c w =>
    if t.given r c then t.took .abort r (Abort.inspect r (t.here c) t.session w) else t
  | .abortRestore r c w =>
    if t.given r c then t.took .abort r (Abort.restore r (t.here c) t.session w) else t

def run (events : List Event) : Trial := events.foldl Trial.step {}

def ofSession (log : List Entry) : List Entry := log.takeWhile (· != .boot)

def Noted (p : Permission) (log : List Entry) : Prop :=
  ∃ x : Release, Entry.released x ∈ log ∧ x.permission = p

@[simp] theorem ofSession_blocked (log : List Entry) :
    ofSession (.blocked :: log) = .blocked :: ofSession log := rfl

@[simp] theorem ofSession_released (x : Release) (log : List Entry) :
    ofSession (.released x :: log) = .released x :: ofSession log := rfl

@[simp] theorem ofSession_boot (log : List Entry) : ofSession (.boot :: log) = [] := rfl

@[simp] theorem noted_nil (p : Permission) : ¬ Noted p [] := by
  simp [Noted]

@[simp] theorem noted_blocked (p : Permission) (log : List Entry) :
    Noted p (.blocked :: log) ↔ Noted p log := by
  simp [Noted]

@[simp] theorem noted_released (p : Permission) (x : Release) (log : List Entry) :
    Noted p (.released x :: log) ↔ x.permission = p ∨ Noted p log := by
  constructor
  · intro h
    obtain ⟨y, hy, hp⟩ := h
    simp only [List.mem_cons, Entry.released.injEq] at hy
    cases hy with
    | inl same => exact .inl (same ▸ hp)
    | inr older => exact .inr ⟨y, older, hp⟩
  · intro h
    cases h with
    | inl same => exact ⟨x, List.mem_cons_self, same⟩
    | inr older =>
      obtain ⟨y, hy, hp⟩ := older
      exact ⟨y, List.mem_cons_of_mem _ hy, hp⟩

/-- What must have gone before for `x` to be released. -/
structure Lawful (older : List Entry) (x : Release) : Prop where
  /-- the capture at most once in the whole chain, and in the boot of its claim -/
  capture : x.permission = .capture →
    ¬ Noted .capture older ∧ sameBoot x.record.claimedBoot x.boot = true
  /-- each permission at most once in a session -/
  once : ¬ Noted x.permission (ofSession older)
  open_ : Entry.blocked ∉ ofSession older
  restore : x.permission = .restore →
    Noted .inspect (ofSession older) ∧ x.durable = some x.record ∧ x.record.phase = .restoring
  abort : x.planner = .abort →
    sameBoot x.record.armedBoot x.boot = true ∧ Noted .apply (ofSession older)

def LawfulLog : List Entry → Prop
  | [] => True
  | .released x :: older => Lawful older x ∧ LawfulLog older
  | _ :: older => LawfulLog older

/-! ## The records that the planners build -/

/-- The decision releases nothing, and a record that it asks to persist may follow `r`. -/
structure Plans (r : Record) (d : Decision) : Prop where
  quiet : released? d.action = none
  next : ∀ m, d.next = some m → transition r m = true

theorem plans_result (r : Record) {a : Action} (e : Error) (quiet : released? a = none) :
    Plans r (result a e) :=
  ⟨quiet, fun _ none_ => by cases none_⟩

theorem plans_persistAfter (r m : Record) (e : Error) : Plans r (persistAfter r m e) := by
  unfold persistAfter
  split
  · rename_i follows
    refine ⟨rfl, fun m' same => ?_⟩
    cases same
    exact follows
  · exact plans_result r e rfl

private theorem plans_guard {r : Record} {refused : Prop} [Decidable refused] {a : Action} {e : Error} {d : Decision}
    (quiet : released? a = none) (passed : Plans r d) : Plans r (if refused then result a e else d) := by
  split
  · exact plans_result r e quiet
  · exact passed

/-- The decisions of the planners that build a record and have no permission of their own. -/
inductive Planned (r : Record) (c : Context) : Decision → Prop
  | handoff : Planned r c (handoff r c)
  | interruptedEvidence (digest : Digest) : Planned r c (interruptedEvidence r c digest)
  | rejectedStartupEvidence (digest : Digest) : Planned r c (rejectedStartupEvidence r c digest)
  | restoreIntent : Planned r c (restoreIntent r c)
  | restored : Planned r c (restored r c)
  | abortIntent (s : Session) (w : Abort.Witness) : Planned r c (Abort.intent r c s w)

private theorem plans_of_planned {r : Record} {c : Context} {d : Decision} (h : Planned r c d) : Plans r d := by
  cases h with
  | handoff | interruptedEvidence | rejectedStartupEvidence | restored =>
    exact plans_guard rfl (plans_guard rfl (plans_persistAfter ..))
  | restoreIntent =>
    apply plans_guard rfl
    apply plans_guard rfl
    apply plans_guard rfl
    apply plans_guard rfl
    exact plans_guard rfl (plans_persistAfter ..)
  | abortIntent => exact plans_guard rfl (plans_persistAfter ..)

theorem arm_initial {loaded : Load} {binding : Binding} {c : Context} {m : Record}
    (asked : (arm loaded binding c).next = some m) : loaded = .missing ∧ initial m = true := by
  unfold arm at asked
  split at asked
  · cases asked
  · rename_i passed
    cases asked
    simp only [not_or, not_not, Bool.not_eq_true', Bool.not_eq_true] at passed
    obtain ⟨missing, -, -, bound, -, live, -⟩ := passed
    have unclaimed : validBoot {} = false ∧ emptyBoot {} = true ∧ nonzero (zeros 32) = false := by decide
    refine ⟨missing, ?_⟩
    simp [initial, shape, hasClaim, reachableSequence, phaseShape, unclaimedFailure, bound, live, unclaimed,
      protocolVersion]

/-- The writes of a run include all that the planners ask for: `arm` on an empty journal, the others on the
durable record. -/
theorem mayWrite_planned {t : Trial} {c : Context} {m : Record} :
    (∀ loaded binding, t.durable = none → (arm loaded binding c).next = some m → t.mayWrite m = true) ∧
      ∀ r d, t.durable = some r → Planned r c d → d.next = some m → t.mayWrite m = true := by
  constructor
  · intro loaded binding empty asked
    rw [Trial.mayWrite, empty]
    exact (arm_initial asked).2
  · intro r d durable planned asked
    rw [Trial.mayWrite, durable]
    exact (plans_of_planned planned).next m asked

/-! ## What one call may do -/

def latched (s : Session) : Permission → Bool
  | .capture => s.claimReleased
  | .apply => s.applyReleased
  | .inspect => s.inspectionReleased
  | .restore => s.restoreReleased

/-- The session latches what was released, at its first release and while not blocked. -/
structure Grants (t : Trial) (planner : Planner) (r : Record) (s : Session) (p : Permission) :
    Prop where
  open_ : t.session.blocked = false ∧ s.blocked = false
  fresh : latched t.session p = false
  latch : ∀ q, latched s q = (latched t.session q || decide (q = p))
  capture : p = .capture →
    r ∈ t.history ∧ r.phase = .captureClaimed ∧ sameBoot r.claimedBoot t.boot = true
  restore : p = .restore →
    t.session.inspectionReleased = true ∧ t.durable = some r ∧ r.phase = .restoring
  abort : planner = .abort →
    sameBoot r.armedBoot t.boot = true ∧ t.session.applyReleased = true

structure Withholds (t : Trial) (s : Session) : Prop where
  latch : ∀ q, latched s q = latched t.session q
  blocked : t.session.blocked = true → s.blocked = true

/-- A call either releases nothing and keeps the latches, or grants one permission. -/
def Sound (t : Trial) (planner : Planner) (r : Record) (d : Decision × Session) : Prop :=
  (released? d.1.action = none ∧ Withholds t d.2) ∨
    ∃ p, released? d.1.action = some p ∧ Grants t planner r d.2 p

variable {t : Trial} {planner : Planner} {r : Record} {c : Context}

private theorem withholds_same : Withholds t t.session :=
  ⟨fun _ => rfl, fun h => h⟩

theorem sound_kept {d : Decision} (h : released? d.action = none) :
    Sound t planner r (d, t.session) :=
  .inl ⟨h, withholds_same⟩

theorem sound_block (e : Error) : Sound t planner r (block t.session e) :=
  .inl ⟨rfl, fun q => by cases q <;> rfl, fun _ => rfl⟩

theorem sound_guard {refused : Prop} [Decidable refused] {d e : Decision × Session}
    (kept : Sound t planner r d) (passed : ¬ refused → Sound t planner r e) :
    Sound t planner r (if refused then d else e) := by
  split
  · exact kept
  · exact passed ‹_›

private theorem startup_releases_nothing (loaded : Load) (r : Record) (c : Context) :
    released? (startup loaded r c).action = none := by
  unfold startup startupArmed startupHandedOff persistAfter result persist
  grind [released?]

theorem durable_of_checked (given : t.given r c = true) (h : checked r (t.here c) = .none) :
    t.durable = some r := by
  have durable : c.recordDurable = true := by
    unfold checked Trial.here at h
    grind
  simpa [Trial.given, durable] using given

theorem acknowledged_sound (written : r ∈ t.history) (open_ : t.session.blocked = false) :
    Sound t .normal r (acknowledged r (t.here c) t.session) := by
  cases hp : r.phase with
  | armed =>
    simp only [acknowledged, hp]
    split
    · exact sound_block _
    · exact sound_kept (startup_releases_nothing _ _ _)
  | handedOff =>
    simp only [acknowledged, hp]
    exact sound_kept (startup_releases_nothing _ _ _)
  | captureClaimed =>
    simp only [acknowledged, hp]
    apply sound_guard (sound_block _)
    intro gates
    simp only [not_or, Bool.not_eq_true, Bool.not_eq_true', Bool.not_eq_false] at gates
    exact .inr ⟨.capture, rfl,
      { open_ := ⟨open_, open_⟩
        fresh := by simpa [latched] using gates.1
        latch := fun q => by cases q <;> simp [latched]
        capture := fun _ => ⟨written, hp, gates.2.1⟩
        restore := nofun
        abort := nofun }⟩
  | restored =>
    simp only [acknowledged, hp]
    split
    · exact sound_block _
    · exact sound_kept rfl
  | blockedUnknown =>
    simp only [acknowledged, hp]
    exact sound_block _
  | _ =>
    simp only [acknowledged, hp]
    exact sound_kept rfl

theorem afterPersist_sound (before : Record) (p : Proof) (first : Bool)
    (written : t.acknowledges p r = true) :
    Sound t .normal r (afterPersist before r p (t.here c) t.session first) := by
  unfold afterPersist
  apply sound_guard (sound_kept rfl)
  intro open_
  apply sound_guard (sound_block _)
  intro proof
  have exact_ : p.result = .exactDurable := by
    simp only [not_or, not_not] at proof
    exact proof.2.1
  apply acknowledged_sound
  · simpa [Trial.acknowledges, exact_] using written
  · simpa using open_

theorem authorizeApply_sound :
    Sound t .normal r (authorizeApply r (t.here c) t.session) := by
  apply sound_guard (sound_kept rfl)
  intro known
  apply sound_guard (sound_block _)
  intro gates
  simp only [not_or, Bool.not_eq_true, not_not] at known gates
  exact .inr ⟨.apply, rfl,
    { open_ := ⟨known.2, known.2⟩
      fresh := by simpa [latched] using gates.2.2.2.2.2.2.2
      latch := fun q => by cases q <;> simp [latched]
      capture := nofun
      restore := nofun
      abort := nofun }⟩

theorem captureEvidence_sound (captured : CaptureResult) (d : Digest) :
    Sound t .normal r (captureEvidence r (t.here c) t.session captured d) := by
  apply sound_guard (sound_kept rfl)
  intro known
  apply sound_guard (sound_kept rfl)
  intro claim
  apply sound_guard (sound_kept rfl)
  intro early
  apply sound_guard (sound_block _)
  intro gates
  left
  constructor
  · simp only [persistAfter]
    split <;> rfl
  · exact ⟨fun q => by cases q <;> rfl, fun h => h⟩

theorem authorizeRestoreInspection_sound :
    Sound t .normal r (authorizeRestoreInspection r (t.here c) t.session) := by
  apply sound_guard (sound_kept rfl)
  intro known
  apply sound_guard (sound_block _)
  intro gates
  simp only [not_or, Bool.not_eq_true, not_not] at known gates
  exact .inr ⟨.inspect, rfl,
    { open_ := ⟨known.2, known.2⟩
      fresh := by simpa [latched] using gates.2.2.2
      latch := fun q => by cases q <;> simp [latched]
      capture := nofun
      restore := nofun
      abort := nofun }⟩

theorem authorizeRestore_sound (given : t.given r c = true) :
    Sound t .normal r (authorizeRestore r (t.here c) t.session) := by
  apply sound_guard (sound_kept rfl)
  intro known
  apply sound_guard (sound_block _)
  intro gates
  simp only [not_or, Bool.not_eq_true, not_not, Bool.not_eq_true'] at known gates
  exact .inr ⟨.restore, rfl,
    { open_ := ⟨known.2, known.2⟩
      fresh := by simpa [latched] using gates.2.2.2.2
      latch := fun q => by cases q <;> simp [latched]
      capture := nofun
      restore := fun _ =>
        ⟨by simpa using gates.2.1, durable_of_checked given known.1, gates.1⟩
      abort := nofun }⟩

theorem owned_facts {w : Abort.Witness} {restoring : Bool}
    (h : Abort.owned r (t.here c) t.session w restoring = true) :
    checked r (t.here c) = .none ∧ t.session.blocked = false ∧
      t.session.applyReleased = true ∧ sameBoot r.armedBoot t.boot = true ∧
      r.phase = if restoring then .restoring else .armed := by
  simp only [Abort.owned, Bool.and_eq_true, beq_iff_eq, Bool.not_eq_true', decide_eq_true_eq]
    at h
  have boot : (t.here c).boot = t.boot := rfl
  grind

theorem abortInspect_sound (w : Abort.Witness) :
    Sound t .abort r (Abort.inspect r (t.here c) t.session w) := by
  apply sound_guard (sound_kept rfl)
  intro gates
  simp only [not_or, Bool.not_eq_true, Bool.not_eq_false, Bool.not_eq_true'] at gates
  have facts := owned_facts gates.1
  exact .inr ⟨.inspect, rfl,
    { open_ := ⟨facts.2.1, facts.2.1⟩
      fresh := gates.2.1
      latch := fun q => by cases q <;> simp [latched]
      capture := nofun
      restore := nofun
      abort := fun _ => ⟨facts.2.2.2.1, facts.2.2.1⟩ }⟩

theorem abortRestore_sound (w : Abort.Witness) (given : t.given r c = true) :
    Sound t .abort r (Abort.restore r (t.here c) t.session w) := by
  apply sound_guard (sound_kept rfl)
  intro gates
  simp only [not_or, Bool.not_eq_true, Bool.not_eq_false, Bool.not_eq_true'] at gates
  have facts := owned_facts gates.1
  exact .inr ⟨.restore, rfl,
    { open_ := ⟨facts.2.1, facts.2.1⟩
      fresh := gates.2.2.1
      latch := fun q => by cases q <;> simp [latched]
      capture := nofun
      restore := fun _ => ⟨gates.2.1, durable_of_checked given facts.1, facts.2.2.2.2⟩
      abort := fun _ => ⟨facts.2.2.2.1, facts.2.2.1⟩ }⟩

/-! ## The invariant of a run -/

structure Inv (t : Trial) : Prop where
  lawful : LawfulLog t.log
  latches : ∀ p, Noted p (ofSession t.log) ↔ latched t.session p = true
  blocked : Entry.blocked ∈ ofSession t.log → t.session.blocked = true
  /-- the durable record is the furthest of the chain -/
  latest : ∀ a ∈ t.history, ∀ d, t.durable = some d → a.sequence ≤ d.sequence
  chain : ∀ a ∈ t.history, ∀ b ∈ t.history, a.sequence = b.sequence → a = b
  shapes : ∀ a ∈ t.history, shape a = true
  live : validBoot t.boot = true → t.boot.nonce ∈ t.nonces
  captures : ∀ x, Entry.released x ∈ t.log → x.permission = .capture →
    x.record ∈ t.history ∧ x.record.phase = .captureClaimed ∧
      sameBoot x.record.claimedBoot x.boot = true ∧ x.boot.nonce ∈ t.nonces ∧
      (x.boot.nonce = t.boot.nonce → t.session.claimReleased = true)

theorem inv_start : Inv {} where
  lawful := trivial
  latches p := by cases p <;> simp [Noted, ofSession, latched]
  blocked := by simp [ofSession]
  latest := by simp
  chain := by simp
  shapes := by simp
  live := by simp
  captures := by simp

theorem inv_reboot {boot : BootToken} (h : Inv t) (fresh : boot.nonce ∉ t.nonces) :
    Inv { t with boot := boot, nonces := boot.nonce :: t.nonces, session := {},
                 log := .boot :: t.log } where
  lawful := h.lawful
  latches p := by cases p <;> simp [latched]
  blocked := by simp
  latest := h.latest
  chain := h.chain
  shapes := h.shapes
  live _ := List.mem_cons_self
  captures x hx hp := by
    simp only [List.mem_cons, reduceCtorEq, false_or] at hx
    obtain ⟨known, phase, claim, nonce, -⟩ := h.captures x hx hp
    refine ⟨known, phase, claim, List.mem_cons_of_mem _ nonce, ?_⟩
    intro same
    -- the capture was released under another nonce
    exact absurd (same ▸ nonce) fresh

private theorem mayWrite_sequence {next : Record} (h : Inv t) (may : t.mayWrite next = true) :
    shape next = true ∧ ∀ a ∈ t.history, a.sequence < next.sequence := by
  unfold Trial.mayWrite at may
  split at may
  · rename_i empty
    have none_ : t.history = [] := List.head?_eq_none_iff.mp empty
    exact ⟨shape_of_initial may, by simp [none_]⟩
  · rename_i d durable
    constructor
    · exact (shapes_of_transition may).2
    · intro a ha
      have furthest := h.latest a ha d durable
      have follows := sequence_of_transition may
      omega

theorem inv_write {next : Record} (h : Inv t) (may : t.mayWrite next = true) :
    Inv { t with history := next :: t.history } := by
  obtain ⟨shaped, above⟩ := mayWrite_sequence h may
  have latest : ∀ a ∈ next :: t.history, a.sequence ≤ next.sequence := by
    intro a ha
    cases List.mem_cons.mp ha with
    | inl same => rw [same]
    | inr older => exact Nat.le_of_lt (above a older)
  have chain : ∀ a ∈ next :: t.history, ∀ b ∈ next :: t.history,
      a.sequence = b.sequence → a = b := by
    intro a ha b hb same
    have := h.chain a
    simp only [List.mem_cons] at ha hb
    grind
  have shapes : ∀ a ∈ next :: t.history, shape a = true := by
    intro a ha
    cases List.mem_cons.mp ha with
    | inl same => exact same ▸ shaped
    | inr older => exact h.shapes a older
  exact
    { lawful := h.lawful
      latches := h.latches
      blocked := h.blocked
      latest := by
        intro a ha d durable
        cases durable
        exact latest a ha
      chain := chain
      shapes := shapes
      live := h.live
      captures := by
        intro x hx hp
        obtain ⟨known, rest⟩ := h.captures x hx hp
        exact ⟨List.mem_cons_of_mem _ known, rest⟩ }

theorem inv_withheld {s : Session} (h : Inv t) (kept : Withholds t s) :
    Inv { t with session := s } where
  lawful := h.lawful
  latches p := by simpa only [kept.latch p] using h.latches p
  blocked hb := kept.blocked (h.blocked hb)
  latest := h.latest
  chain := h.chain
  shapes := h.shapes
  live := h.live
  captures x hx hp := by
    obtain ⟨known, phase, claim, nonce, here⟩ := h.captures x hx hp
    refine ⟨known, phase, claim, nonce, ?_⟩
    intro same
    have latch := kept.latch .capture
    simp only [latched] at latch
    simpa only [latch] using here same

theorem inv_blocked (h : Inv t) (now : t.session.blocked = true) :
    Inv { t with log := .blocked :: t.log } where
  lawful := h.lawful
  latches p := by simpa using h.latches p
  blocked _ := now
  latest := h.latest
  chain := h.chain
  shapes := h.shapes
  live := h.live
  captures x hx hp := h.captures x (by simpa using hx) hp

/-- No capture can have been released before one that the session has not latched. -/
theorem no_capture_before {s : Session} (h : Inv t)
    (grants : Grants t planner r s .capture) : ¬ Noted .capture t.log := by
  intro noted
  obtain ⟨x, hx, hp⟩ := noted
  obtain ⟨known, phase, claim, -, here⟩ := h.captures x hx hp
  obtain ⟨written, held, mine⟩ := grants.capture rfl
  have three : ∀ a, shape a = true → a.phase = .captureClaimed → a.sequence = 3 := by
    intro a ha hc
    simp [shape, reachableSequence, hc] at ha
    grind
  have same : x.record = r := by
    apply h.chain _ known _ written
    rw [three _ (h.shapes _ known) phase, three _ (h.shapes _ written) held]
  have boot : x.boot.nonce = t.boot.nonce := by
    simp only [sameBoot, Bool.and_eq_true, beq_iff_eq] at claim mine
    rw [← claim.2, ← mine.2, same]
  have fresh := grants.fresh
  simp only [latched] at fresh
  exact absurd (here boot) (by simp [fresh])

theorem lawful_of_grants {s : Session} {p : Permission} (h : Inv t)
    (grants : Grants t planner r s p) : Lawful t.log ⟨p, planner, r, t.boot, t.durable⟩ where
  capture hp := by
    subst hp
    exact ⟨no_capture_before h grants, (grants.capture rfl).2.2⟩
  once := by
    simp [h.latches p, grants.fresh]
  open_ := by
    intro closed
    have := h.blocked closed
    simp [grants.open_.1] at this
  restore hp := by
    obtain ⟨inspected, rest⟩ := grants.restore hp
    exact ⟨(h.latches .inspect).mpr inspected, rest⟩
  abort hp := by
    obtain ⟨boot, applied⟩ := grants.abort hp
    exact ⟨boot, (h.latches .apply).mpr applied⟩

theorem inv_granted {s : Session} {p : Permission} (h : Inv t)
    (grants : Grants t planner r s p) :
    Inv { t with session := s,
                 log := .released ⟨p, planner, r, t.boot, t.durable⟩ :: t.log } where
  lawful := ⟨lawful_of_grants h grants, h.lawful⟩
  latches q := by
    simp [grants.latch q, h.latches q]
    grind
  blocked hb := by
    simp only [ofSession_released, List.mem_cons, reduceCtorEq, false_or] at hb
    have := h.blocked hb
    simp [grants.open_.1] at this
  latest := h.latest
  chain := h.chain
  shapes := h.shapes
  live := h.live
  captures x hx hp := by
    have latch := grants.latch .capture
    simp only [latched] at latch
    simp only [List.mem_cons, Entry.released.injEq] at hx
    cases hx with
    | inl new =>
      subst new
      obtain ⟨written, phase, claim⟩ := grants.capture hp
      have live : validBoot t.boot = true := by
        simp only [sameBoot, validBoot, Bool.and_eq_true, beq_iff_eq] at claim ⊢
        grind
      exact ⟨written, phase, claim, h.live live, fun _ => by simp [latch, ← hp]⟩
    | inr older =>
      obtain ⟨known, phase, claim, nonce, here⟩ := h.captures x older hp
      exact ⟨known, phase, claim, nonce, fun same => by simp [latch, here same]⟩

theorem inv_took {d : Decision × Session} (h : Inv t) (sound : Sound t planner r d) :
    Inv (t.took planner r d) := by
  obtain ⟨nothing, kept⟩ | ⟨p, some_, grants⟩ := sound
  · have held := inv_withheld h kept
    simp only [Trial.took, nothing]
    by_cases now : (d.2.blocked && !t.session.blocked) = true
    · have blocked : d.2.blocked = true := by grind
      simpa [now] using inv_blocked held blocked
    · simpa [now] using held
  · simp only [Trial.took, some_, grants.open_.2]
    exact inv_granted h grants

theorem inv_step (h : Inv t) (e : Event) : Inv (t.step e) := by
  cases e with
  | reboot boot =>
    simp only [Trial.step]
    split
    · rename_i fresh
      simp only [Bool.and_eq_true, Bool.not_eq_true', decide_eq_false_iff_not] at fresh
      exact inv_reboot h fresh.2
    · exact h
  | write next takes =>
    simp only [Trial.step]
    split
    · rename_i may
      exact inv_write h (by simp only [Bool.and_eq_true] at may; exact may.2)
    · exact h
  | afterPersist before next p c first =>
    simp only [Trial.step]
    split
    · exact inv_took h (afterPersist_sound before p first ‹_›)
    · exact h
  | authorizeApply r c =>
    simp only [Trial.step]
    split
    · exact inv_took h authorizeApply_sound
    · exact h
  | captureEvidence r c captured digest =>
    simp only [Trial.step]
    split
    · exact inv_took h (captureEvidence_sound captured digest)
    · exact h
  | authorizeRestoreInspection r c =>
    simp only [Trial.step]
    split
    · exact inv_took h authorizeRestoreInspection_sound
    · exact h
  | authorizeRestore r c =>
    simp only [Trial.step]
    split
    · exact inv_took h (authorizeRestore_sound ‹_›)
    · exact h
  | unknownOutcome =>
    have sound : Sound t .normal {} (unknownOutcome t.session) := sound_block _
    exact inv_took h sound
  | abortInspect r c w =>
    simp only [Trial.step]
    split
    · exact inv_took h (abortInspect_sound w)
    · exact h
  | abortRestore r c w =>
    simp only [Trial.step]
    split
    · exact inv_took h (abortRestore_sound w ‹_›)
    · exact h

theorem inv_run (events : List Event) : Inv (run events) := by
  suffices ∀ t, Inv t → Inv (events.foldl Trial.step t) from this {} inv_start
  induction events with
  | nil => exact fun _ h => h
  | cons e rest ih => exact fun t h => ih _ (inv_step h e)

/-- A poll lets a capture go on only where it was released in this boot, and nothing is blocked. -/
theorem capturePoll_continues (events : List Event) (r : Record) (c : Context)
    (polled : (capturePoll r c (run events).session).action = .readOnlyCapture) :
    Noted .capture (ofSession (run events).log) ∧ Entry.blocked ∉ ofSession (run events).log := by
  have inv := inv_run events
  have flags : (run events).session.claimReleased = true ∧ (run events).session.blocked = false := by
    unfold capturePoll at polled
    grind [result]
  refine ⟨(inv.latches .capture).mpr flags.1, fun noted => ?_⟩
  rw [inv.blocked noted] at flags
  cases flags.2

/-- Over every run, whatever was released was allowed to be by what went before. -/
theorem releases_lawful (events : List Event) : LawfulLog (run events).log :=
  (inv_run events).lawful

end Mosaico.Gauge.ColdTrial
