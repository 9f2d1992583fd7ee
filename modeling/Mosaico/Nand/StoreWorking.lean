import Mosaico.Library.WorkingDevice
import Mosaico.Nand.StoreSession

/-! A transaction none of whose calls fails gets to its record phase, gives everything back, and
tells the caller what the record phase found. -/
namespace Mosaico.Nand.Store

open ByteFields PageDevice Interaction
open StoreModel (Page pageSize)

abbrev Selectors := Nat → Bool

/-- How the other hardware answers when it works. -/
def works : (h : Host) → Selectors → HostAnswer h → Selectors → Prop
  | .getIoConfig pin, g, r, g' => r = (.ok, g pin) ∧ g' = g
  | .sleepSelDis pin, g, r, g' => r = .ok ∧ g' = Function.update g pin false
  | .sleepSelRestore pin selected, g, r, g' => r = .ok ∧ g' = Function.update g pin selected
  | .getPageCount, g, r, g' => (r.1 = .ok ∧ LogModel.requiredPages ≤ r.2) ∧ g' = g
  | h, g, r, g' => r = granted h ∧ g' = g

section Digests

variable {d : Device Page} {g : Selectors}

def digestOf (m : Medium Page) (pages : List Nat) : List Nat := pages.map fun page => crc (m page) pageSize

theorem digest_works (pages : List Nat) :
    Delivers works (digest pages) (fun r d' _ => r = some (digestOf d.view pages) ∧ d' = d) d g := by
  induction pages with
  | nil => exact ⟨rfl, rfl⟩
  | cons page rest ih =>
    rw [digest, delivers_readPage]
    apply ih.bind
    rintro _ d' g' ⟨rfl, rfl⟩
    exact ⟨rfl, rfl⟩

theorem checkDigest_works (pages : List Nat) :
    Delivers works (checkDigest pages (digestOf d.view pages)) (fun r _ _ => r = .ok) d g := by
  induction pages with
  | nil => rfl
  | cons page rest ih =>
    rw [digestOf, List.map_cons, checkDigest, delivers_readPage]
    dsimp only
    rw [if_neg (fun bad => bad rfl)]
    exact ih

theorem digestOf_congr {m m' : Medium Page} {pages : List Nat} (same : ∀ page ∈ pages, m' page = m page) :
    digestOf m' pages = digestOf m pages :=
  List.map_congr_left fun page mem => by rw [same page mem]

end Digests

section Phases

variable {α β : Type} {d : Device Page} {g : Selectors}

theorem delivers_ask {h : Host} {next : HostAnswer h → Session β} {after : β → Device Page → Selectors → Prop} :
    Delivers works (ask h >>= next) after d g ↔
      ∀ r g', works h g r g' → Delivers works (next r) after d g' := delivers_host

theorem storageLease_works (inheritLease : Bool) :
    Delivers works (storageLease inheritLease) (fun held d' _ => held = true ∧ d' = d) d g := by
  unfold storageLease
  split
  · rintro r ⟨d', g'⟩ ⟨⟨rfl, -⟩, rfl⟩
    exact ⟨trivial, rfl, rfl⟩
  · rintro r ⟨d', g'⟩ ⟨⟨rfl, -⟩, rfl⟩
    exact ⟨trivial, rfl, rfl⟩

theorem enter_works (request : Request) :
    Delivers works (enter request true false) (fun r d' _ => r = none ∧ d' = d) d g := by
  unfold enter
  rw [if_neg (by decide)]
  apply (storageLease_works request.inheritLease).bind
  rintro held d' g' ⟨rfl, rfl⟩
  rw [if_neg (by decide), delivers_ask]
  rintro version g₁ ⟨rfl, rfl⟩
  rw [if_neg (by decide), delivers_ask]
  rintro locked g₂ ⟨rfl, rfl⟩
  rw [if_neg (by decide), delivers_ask]
  rintro ready g₃ ⟨rfl, rfl⟩
  rw [if_neg (by decide), delivers_ask]
  rintro allocated g₄ ⟨rfl, rfl⟩
  rw [if_neg (by decide)]
  exact ⟨rfl, rfl⟩

theorem snapshotSelectors_works (owned : Owned) (pins : List Nat) :
    Delivers works (snapshotSelectors owned pins) (fun r d' _ => r.1 = .ok ∧ d' = d) d g := by
  induction pins generalizing owned g with
  | nil => exact ⟨rfl, rfl⟩
  | cons pin rest ih =>
    rw [snapshotSelectors, delivers_ask]
    rintro io g' ⟨rfl, rfl⟩
    rw [if_neg (fun bad => bad rfl)]
    exact ih _

theorem disableSelectors_works (owned : Owned) (pins : List Nat) :
    Delivers works (disableSelectors owned pins) (fun r d' _ => r.1 = .ok ∧ d' = d) d g := by
  induction pins generalizing owned g with
  | nil => exact ⟨rfl, rfl⟩
  | cons pin rest ih =>
    rw [disableSelectors, delivers_ask]
    rintro error g' ⟨rfl, rfl⟩
    rw [if_neg (fun bad => bad rfl), delivers_ask]
    rintro io g' ⟨rfl, rfl⟩
    rw [if_neg (fun bad => bad rfl), Function.update_self, if_neg (by decide)]
    exact ih _

theorem openDevice_works (owned : Owned) :
    Delivers works (openDevice owned)
      (fun a d' _ => (a.error = .ok ∧ LogModel.requiredPages ≤ a.logicalPages) ∧ d' = d) d g := by
  unfold openDevice
  rw [delivers_ask]
  rintro error g₁ ⟨rfl, rfl⟩
  rw [if_neg (fun bad => bad rfl), delivers_ask]
  rintro error g₂ ⟨rfl, rfl⟩
  rw [if_neg (fun bad => bad rfl), delivers_ask]
  rintro error g₃ ⟨rfl, rfl⟩
  rw [if_neg (fun bad => bad rfl), delivers_ask]
  rintro page g₄ ⟨rfl, rfl⟩
  rw [if_neg (fun bad => bad rfl), delivers_ask]
  rintro blocks g₅ ⟨rfl, rfl⟩
  rw [if_neg (fun bad => bad rfl), delivers_ask]
  rintro ⟨error, count⟩ g₆ ⟨⟨rfl, enough⟩, rfl⟩
  have least : ¬count < StoreModel.requiredPages := by
    simp only [LogModel.requiredPages, StoreModel.requiredPages] at *
    omega
  rw [if_neg (fun bad => bad rfl), if_neg (by simp [granted, least])]
  exact ⟨⟨rfl, enough⟩, rfl⟩

theorem acquire_works :
    Delivers works acquire
      (fun a d' _ => (a.error = .ok ∧ LogModel.requiredPages ≤ a.logicalPages) ∧ d' = d) d g := by
  unfold acquire
  rw [delivers_ask]
  rintro error g₁ ⟨rfl, rfl⟩
  rw [if_neg (fun bad => bad rfl)]
  apply (snapshotSelectors_works _ _).bind
  rintro ⟨error, owned⟩ d₁ g₂ ⟨ok, rfl⟩
  dsimp only at ok ⊢
  rw [if_neg (fun bad => bad ok)]
  apply (disableSelectors_works _ _).bind
  rintro ⟨error, owned⟩ d₂ g₃ ⟨ok, rfl⟩
  dsimp only at ok ⊢
  rw [if_neg (fun bad => bad ok), delivers_ask]
  rintro error g₄ ⟨rfl, rfl⟩
  rw [if_neg (fun bad => bad rfl), delivers_ask]
  rintro error g₅ ⟨rfl, rfl⟩
  rw [if_neg (fun bad => bad rfl)]
  exact openDevice_works _

theorem resetPins_works (touched pins : List Nat) :
    Delivers works (resetPins touched .ok pins) (fun cleanup _ _ => cleanup = .ok) d g := by
  induction pins generalizing g with
  | nil => rfl
  | cons pin rest ih =>
    unfold resetPins
    split
    · rw [delivers_ask]
      rintro error g' ⟨rfl, rfl⟩
      exact ih
    · exact ih

theorem restoreSelectors_works (owned : Owned) (pins : List Nat) :
    Delivers works (restoreSelectors owned .ok pins) (fun cleanup _ _ => cleanup = .ok) d g := by
  induction pins generalizing g with
  | nil => rfl
  | cons pin rest ih =>
    unfold restoreSelectors
    split
    · rw [delivers_ask]
      rintro error g₁ ⟨rfl, rfl⟩
      rw [delivers_ask]
      rintro io g₂ ⟨rfl, rfl⟩
      rw [Function.update_self]
      dsimp only
      rw [if_neg (fun other => other.2 rfl)]
      exact ih
    · exact ih

theorem releaseBus_works (owned : Owned) :
    Delivers works (releaseBus owned .ok) (fun cleanup _ _ => cleanup = .ok) d g := by
  have removed : Delivers works (removeDevice owned .ok) (fun cleanup _ _ => cleanup = .ok) d g := by
    unfold removeDevice
    split
    · rw [delivers_ask]
      rintro error g' ⟨rfl, rfl⟩
      rfl
    · rfl
  unfold releaseBus
  apply removed.bind
  rintro cleanup d' g' rfl
  split
  · rw [delivers_ask]
    rintro error g₁ ⟨rfl, rfl⟩
    rw [if_neg (fun bad => bad rfl)]
    apply (resetPins_works _ _).bind
    rintro cleanup d₁ g₂ rfl
    exact restoreSelectors_works _ _
  · rfl

theorem closeNand_works (nand : Bool) :
    Delivers works (closeNand nand .ok) (fun cleanup _ _ => cleanup = .ok) d g := by
  unfold closeNand
  split
  · rw [delivers_deinit]
    intro m _
    rfl
  · rfl

/-- The reply of a transaction whose cleanup went well. -/
structure Told (request : Request) (r : Recorded) (reply : Reply) : Prop where
  report : reply.report = r.report
  published : r.report.error = .ok → reply.published = request.publish r.work
  quarantined : reply.quarantined = false

theorem finish_works (request : Request) {r : Recorded} (owned : Owned) (clean : r.report.cleanupError = .ok) :
    Delivers works (finish request r owned) (fun reply _ _ => Told request r reply) d g := by
  unfold finish
  rw [clean]
  apply (closeNand_works r.nand).bind
  rintro cleanup d₁ g₁ rfl
  apply (releaseBus_works owned).bind
  rintro cleanup d₂ g₂ rfl
  refine ⟨?_, fun ok => if_pos ⟨ok, rfl⟩, rfl⟩
  show { r.report with cleanupError := .ok } = r.report
  rw [← clean]

theorem transaction_works (request : Request) {post : Recorded → Prop}
    (recorded : ∀ acquired : Acquired, LogModel.requiredPages ≤ acquired.logicalPages → ∀ g,
      Delivers works (request.record acquired.report)
        (fun r _ _ => post r ∧ r.report.cleanupError = .ok) d g) :
    Delivers works (transaction request true false)
      (fun reply _ _ => ∃ r, post r ∧ Told request r reply) d g := by
  unfold transaction
  apply (enter_works request).bind
  rintro refusal d₁ g₁ ⟨rfl, rfl⟩
  apply acquire_works.bind
  rintro acquired d₂ g₂ ⟨⟨ok, enough⟩, rfl⟩
  rw [if_neg (fun bad => bad ok)]
  apply (recorded acquired enough g₂).bind
  rintro r d₃ g₃ ⟨found, clean⟩
  exact (finish_works request acquired.owned clean).mono fun reply _ _ told => ⟨r, found, told⟩

end Phases

/-- Nothing keeps the call from the device, and none of its calls fails. -/
structure Clear (w : World) (request : Request) (visit : Visit) : Prop where
  authorized : visit.authorized = true
  free : w.quarantined = false
  smooth : ∃ selectors, Smooth works (transaction request true false) ⟨.fresh w.medium, visit.weather⟩ selectors

/-- A call none of whose own calls fails is answered with what its record phase finds. -/
theorem World.call_clear {w : World} {request : Request} {visit : Visit} (clear : Clear w request visit)
    (post : Recorded → Prop)
    (recorded : ∀ acquired : Acquired, LogModel.requiredPages ≤ acquired.logicalPages → ∀ g,
      Delivers works (request.record acquired.report)
        (fun r _ _ => post r ∧ r.report.cleanupError = .ok) (.fresh w.medium) g) :
    ∃ reply r, (w.call request visit).reply = some reply ∧ post r ∧ Told request r reply := by
  obtain ⟨selectors, smooth⟩ := clear.smooth
  obtain ⟨reply, -, -, ended, ⟨r, found, told⟩, -, -⟩ := operate_smooth smooth (transaction_works request recorded)
  rw [World.call, clear.authorized, clear.free]
  exact ⟨reply, r, ended, found, told⟩

section Fair

def answers : (h : Host) → Selectors → HostAnswer h
  | .getIoConfig pin, g => (.ok, g pin)
  | h, _ => granted h

def selects : Host → Selectors → Selectors
  | .sleepSelDis pin, g => Function.update g pin false
  | .sleepSelRestore pin selected, g => Function.update g pin selected
  | _, g => g

private theorem works_fair (h : Host) (g : Selectors) : works h g (answers h g) (selects h g) := by
  cases h with
  | getPageCount => exact ⟨⟨rfl, Nat.le_refl _⟩, rfl⟩
  | _ => exact ⟨rfl, rfl⟩

def clearVisit (w : World) (request : Request) : Visit where
  authorized := true
  weather :=
    { turns := script answers selects (transaction request true false) (.fresh w.medium) fun _ => false
      idle := { answer := granted } }

theorem clear_clearVisit {w : World} (free : w.quarantined = false) (request : Request) :
    Clear w request (clearVisit w request) :=
  ⟨rfl, free, _, smooth_script answers selects works_fair _ _ _ _ _⟩

/-- The same, until power is lost around the call after the first `n`; some unsynced writes are kept. -/
def cutVisit (w : World) (request : Request) (n : Nat) (keep : List Bool) : Visit where
  authorized := true
  weather :=
    { turns := (clearVisit w request).weather.turns.take n
      idle := { fault := .powerLost true, answer := granted }
      keep := keep }

end Fair

end Mosaico.Nand.Store
