import Mosaico.Nand.Store

/-! One rule for every transaction: what the record phase establishes holds of
the medium that is left, and the caller sees the record phase's report. -/
namespace Mosaico.Nand.Store

open PageDevice Interaction
open StoreModel (Page)

variable {α β : Type}

theorem uses_ask (h : Host) : (ask h).Uses HostOnly := by
  unfold ask PageDevice.host
  rw [Prog.uses_perform]
  exact trivial

theorem uses_ask_bind {h : Host} {next : HostAnswer h → Session α}
    (rest : ∀ r, (next r).Uses HostOnly) : (ask h >>= next).Uses HostOnly :=
  (uses_ask h).bind rest

theorem uses_snapshotSelectors (owned : Owned) (pins : List Nat) :
    (snapshotSelectors owned pins).Uses HostOnly := by
  induction pins generalizing owned with
  | nil => trivial
  | cons pin rest ih =>
    apply uses_ask_bind
    intro io
    split
    · trivial
    · exact ih _

theorem uses_disableSelectors (owned : Owned) (pins : List Nat) :
    (disableSelectors owned pins).Uses HostOnly := by
  induction pins generalizing owned with
  | nil => trivial
  | cons pin rest ih =>
    apply uses_ask_bind
    intro error
    split
    · trivial
    apply uses_ask_bind
    intro io
    split
    · trivial
    split
    · trivial
    · exact ih _

theorem uses_openDevice (owned : Owned) : (openDevice owned).Uses HostOnly := by
  unfold openDevice
  repeat' first
    | exact trivial
    | (refine uses_ask_bind fun _ => ?_)
    | split

theorem uses_acquire : acquire.Uses HostOnly := by
  unfold acquire
  refine uses_ask_bind fun _ => ?_
  split
  · trivial
  apply (uses_snapshotSelectors _ _).bind
  rintro ⟨error, owned⟩
  dsimp only
  split
  · trivial
  apply (uses_disableSelectors _ _).bind
  rintro ⟨error, owned⟩
  dsimp only
  split
  · trivial
  refine uses_ask_bind fun _ => ?_
  split
  · trivial
  refine uses_ask_bind fun _ => ?_
  split
  · trivial
  · exact uses_openDevice _

theorem uses_resetPins (touched : List Nat) (cleanup : EspErr) (pins : List Nat) :
    (resetPins touched cleanup pins).Uses HostOnly := by
  induction pins generalizing cleanup with
  | nil => trivial
  | cons pin rest ih =>
    unfold resetPins
    split
    · exact uses_ask_bind fun _ => ih _
    · exact ih _

theorem uses_restoreSelectors (owned : Owned) (cleanup : EspErr) (pins : List Nat) :
    (restoreSelectors owned cleanup pins).Uses HostOnly := by
  induction pins generalizing cleanup with
  | nil => trivial
  | cons pin rest ih =>
    unfold restoreSelectors
    split
    · exact uses_ask_bind fun _ => uses_ask_bind fun _ => ih _
    · exact ih _

theorem uses_removeDevice (owned : Owned) (cleanup : EspErr) :
    (removeDevice owned cleanup).Uses HostOnly := by
  unfold removeDevice
  split
  · exact uses_ask_bind fun _ => trivial
  · trivial

theorem uses_releaseBus (owned : Owned) (cleanup : EspErr) :
    (releaseBus owned cleanup).Uses HostOnly := by
  unfold releaseBus
  apply (uses_removeDevice owned cleanup).bind
  intro cleanup
  split
  · refine uses_ask_bind fun _ => ?_
    split
    · trivial
    · exact (uses_resetPins _ _ _).bind fun _ => uses_restoreSelectors _ _ _
  · trivial

theorem uses_storageLease (inheritLease : Bool) : (storageLease inheritLease).Uses HostOnly := by
  unfold storageLease
  split
  · exact uses_ask _
  · exact uses_ask _

/-- A refused call touches no page and is not reported as done. -/
theorem enter_spec {inv : Device Page → Prop} {d : Device Page} (request : Request)
    (authorized quarantined : Bool) (hinv : inv d) :
    (enter request authorized quarantined).wp faulty
      (fun r d' => d' = d ∧ ∀ error stage, r = some (error, stage) → error ≠ .ok) inv d := by
  have refused : ∀ {error : EspErr} {stage : Stage}, error ≠ .ok →
      ∀ error' stage', some (error, stage) = some (error', stage') → error' ≠ .ok := by
    rintro error stage hne error' stage' ⟨⟩
    exact hne
  have lease : (storageLease request.inheritLease).wp faulty (fun _ d' => d' = d) inv d :=
    wp_hostOnly (uses_storageLease _) hinv fun _ => rfl
  unfold enter
  split
  · exact ⟨rfl, refused (by decide)⟩
  apply Prog.wp_bind lease
  rintro held d' rfl
  split
  · exact ⟨rfl, refused (by decide)⟩
  simp only [ask, Prog.wp_bind_iff, wp_host hinv]
  intro version
  split
  · exact ⟨rfl, refused (by decide)⟩
  simp only [Prog.wp_bind_iff, wp_host hinv]
  intro locked
  split
  · exact ⟨rfl, refused (by decide)⟩
  simp only [Prog.wp_bind_iff, wp_host hinv]
  intro ready
  split
  · exact ⟨rfl, refused (by decide)⟩
  simp only [Prog.wp_bind_iff, wp_host hinv]
  intro allocated
  split
  · exact ⟨rfl, refused (by decide)⟩
  · exact ⟨rfl, fun _ _ h => by cases h⟩

/-- Nothing was written and nothing is left to write. -/
def Unchanged (m m' : Medium Page) (issued : List Nat) : Prop := m' = m ∧ issued = []

/-- The reply carries the record phase's report; only the cleanup error is new. -/
def Finished (request : Request) (recorded : Recorded) (reply : Reply) : Prop :=
  reply.report = { recorded.report with cleanupError := reply.report.cleanupError } ∧
    (reply.published = {} ∨
      recorded.report.error = .ok ∧ reply.published = request.publish recorded.work)

theorem Finished.error {request : Request} {recorded : Recorded} {reply : Reply}
    (h : Finished request recorded reply) : reply.report.error = recorded.report.error := by
  rw [h.1]

theorem Finished.coldCode {request : Request} {recorded : Recorded} {reply : Reply}
    (h : Finished request recorded reply) : reply.report.coldCode = recorded.report.coldCode := by
  rw [h.1]

theorem Finished.logCode {request : Request} {recorded : Recorded} {reply : Reply}
    (h : Finished request recorded reply) : reply.report.logCode = recorded.report.logCode := by
  rw [h.1]

theorem Finished.record {request : Request} {recorded : Recorded} {reply : Reply}
    (h : Finished request recorded reply) : reply.report.record = recorded.report.record := by
  rw [h.1]

/-- What a transaction ends with: a refusal, or the end of its record phase. -/
def Ended (request : Request) (post : Recorded → Medium Page → List Nat → Prop)
    (m : Medium Page) (reply : Reply) (m' : Medium Page) (issued : List Nat) : Prop :=
  (reply.report.error ≠ .ok ∧ reply.report.record = {} ∧ reply.report.logCode = .empty ∧
    reply.report.coldCode = .empty ∧ reply.published = {} ∧ Unchanged m m' issued) ∨
  ∃ recorded, post recorded m' issued ∧ Finished request recorded reply

section

variable {left final : Medium Page → List Nat → Prop} {d : Device Page}

theorem uses_closeNand (nand : Bool) (cleanup : EspErr) : (closeNand nand cleanup).Uses Silent := by
  unfold closeNand
  split
  · exact ⟨trivial, fun _ => trivial⟩
  · trivial

theorem uses_digest (pages : List Nat) : (digest pages).Uses ReadOnly := by
  induction pages with
  | nil => trivial
  | cons page rest ih =>
    refine ⟨trivial, fun data => ?_⟩
    cases data with
    | none => trivial
    | some data =>
      apply ih.bind
      intro more
      cases more <;> trivial

theorem uses_checkDigest (pages expected : List Nat) :
    (checkDigest pages expected).Uses ReadOnly := by
  induction pages generalizing expected with
  | nil => trivial
  | cons page rest ih =>
    cases expected with
    | nil => trivial
    | cons e more =>
      rw [checkDigest]
      apply uses_readPage_bind trivial
      intro data
      cases data with
      | none => trivial
      | some data =>
        dsimp only
        split
        · trivial
        · exact ih more

theorem finish_spec (request : Request) (recorded : Recorded) (owned : Owned)
    (h : d.Leaves final) (implies : ∀ m issued, final m issued → left m issued) :
    (finish request recorded owned).wp faulty
      (fun reply d' => d'.Leaves final ∧ Finished request recorded reply)
      (Device.Leaves left) d := by
  unfold finish
  apply Prog.wp_bind (wp_silent (uses_closeNand _ _) h implies)
  intro cleanup d' hd'
  apply Prog.wp_bind (wp_silent (Uses.silent (Uses.readOnly (uses_releaseBus _ _))) hd' implies)
  intro cleanup d'' hd''
  refine ⟨hd'', rfl, ?_⟩
  split
  · rename_i ok
    exact .inr ⟨ok.1, rfl⟩
  · exact .inl rfl

/-- A device that resumed holds what was left; otherwise the handle is gone. -/
theorem reopen_spec (result : Report) (h : d.Leaves final)
    (implies : ∀ m issued, final m issued → left m issued) :
    (reopen result).wp faulty
      (fun r d' => d'.Leaves final ∧ r.1.record = result.record ∧
        ((r.2 = false ∧ r.1.error ≠ .ok) ∨
          (r.2 = true ∧ d'.pending = [] ∧ r.1 = result.reach .reopen))) (Device.Leaves left) d := by
  have hleft : ∀ {t : Device Page}, t.Leaves final → t.Leaves left := fun ht => ht.mono implies
  simp only [reopen, ask, Prog.wp_bind_iff, wp_deinit, Prog.wp_pure, if_true, Bool.true_eq_false,
    if_false]
  refine ⟨⟨hleft h, h, rfl, .inl ⟨trivial, by simp⟩⟩, fun m hm => ?_⟩
  have resumed : (d.restart m).Leaves final := h.restart hm
  refine ⟨hleft resumed, ⟨resumed, rfl, .inl ⟨trivial, by simp⟩⟩, ?_⟩
  rw [wp_host (hleft resumed)]
  intro error
  split
  · rename_i failed
    exact ⟨resumed, rfl, .inl ⟨rfl, failed⟩⟩
  · exact ⟨resumed, rfl, .inr ⟨rfl, rfl, rfl⟩⟩

/-- The rule of transactions: a specification of the record phase, from the
freshly resumed device, is one of the whole. -/
theorem transaction_spec (request : Request) (authorized quarantined : Bool) {m : Medium Page}
    {post : Recorded → Medium Page → List Nat → Prop} (start : left m [])
    (recorded : ∀ acquired : Acquired, (request.record acquired.report).wp faulty
      (fun r => Device.Leaves (post r)) (Device.Leaves left) (.fresh m))
    (settled : ∀ r m' issued, post r m' issued → left m' issued) :
    (transaction request authorized quarantined).wp faulty
      (fun reply => Device.Leaves (Ended request post m reply)) (Device.Leaves left) (.fresh m) := by
  have fresh : (Device.fresh m).Leaves left := Device.leaves_fresh.mpr start
  unfold transaction
  apply Prog.wp_bind (enter_spec request authorized quarantined fresh)
  rintro refusal d' ⟨rfl, hne⟩
  cases refusal with
  | some refusal =>
    obtain ⟨error, stage⟩ := refusal
    refine Device.leaves_fresh.mpr (.inl ⟨hne error stage rfl, rfl, rfl, rfl, rfl, rfl, rfl⟩)
  | none =>
    apply Prog.wp_bind (wp_hostOnly uses_acquire fresh fun a => (rfl : Device.fresh m = _))
    rintro acquired d' rfl
    split
    · rename_i failed
      have kept : (Device.fresh m).Leaves (Unchanged m) := Device.leaves_fresh.mpr ⟨rfl, rfl⟩
      have close := finish_spec request
        { report := acquired.report, nand := acquired.owned.nand } acquired.owned kept
        (by rintro _ _ ⟨rfl, rfl⟩; exact start)
      apply Prog.wp_mono close _ (fun _ => id)
      rintro reply d'' ⟨hd'', hreport, hpublished⟩
      refine hd''.mono fun m' issued same => .inl ?_
      have unpublished : reply.published = {} :=
        hpublished.resolve_right fun done => failed done.1
      rw [hreport]
      exact ⟨failed, rfl, rfl, rfl, unpublished, same⟩
    · apply Prog.wp_bind (recorded acquired)
      intro r d' hr
      apply Prog.wp_mono (finish_spec request r acquired.owned hr (settled r)) _ (fun _ => id)
      rintro reply d'' ⟨hd'', finished⟩
      exact hd''.mono fun m' issued hp => .inr ⟨r, hp, finished⟩

end

/-- Hardware that grants everything: an idle lease, ready memory, the right chip. -/
def granted : (h : Host) → HostAnswer h
  | .currentTaskOwnsStorageLease | .tryStorageLease | .tryLock | .dmaReady | .allocate => true
  | .compatVersion => 0x01040104
  | .getIoConfig _ => (.ok, false)
  | .getPageSize => (.ok, StoreModel.pageSize)
  | .getBlockNum => (.ok, 1024)
  | .getPageCount => (.ok, LogModel.requiredPages)
  | .busInitialize | .sleepSelDis _ | .releaseControl _ | .addDevice | .identity | .initDevice
  | .removeDevice | .busFree | .resetPin _ | .sleepSelRestore _ _ => .ok

/-- The durable medium between two transactions and the latch of this boot. -/
structure World where
  medium : Medium Page
  quarantined : Bool := false

/-- How one call is met: the caller's permission and what goes wrong. -/
structure Visit where
  authorized : Bool
  weather : Weather HostAnswer

namespace World

def call (w : World) (request : Request) (visit : Visit) : Outcome Page Reply :=
  operate (transaction request visit.authorized w.quarantined) visit.weather w.medium

def after (outcome : Outcome Page Reply) : World where
  medium := outcome.medium
  quarantined := match outcome.reply with
    | some reply => reply.quarantined
    | none => false

def reboot (w : World) : World := { w with quarantined := false }

theorem after_quarantined {outcome : Outcome Page Reply} {reply : Reply} (h : outcome.reply = some reply) :
    (after outcome).quarantined = reply.quarantined := by
  unfold after
  rw [h]

end World

def acknowledged (outcome : Outcome Page Reply) : Bool :=
  match outcome.reply with
  | some reply => reply.report.error == .ok
  | none => false

/-- The rule of transactions, for one call in a world. -/
theorem World.call_spec (w : World) (request : Request) (visit : Visit)
    {left : Medium Page → List Nat → Prop} {post : Recorded → Medium Page → List Nat → Prop}
    (start : left w.medium [])
    (recorded : ∀ acquired : Acquired, (request.record acquired.report).wp faulty
      (fun r => Device.Leaves (post r)) (Device.Leaves left) (.fresh w.medium))
    (settled : ∀ r m' issued, post r m' issued → left m' issued) :
    left (w.call request visit).medium (w.call request visit).issued ∧
      ∀ reply, (w.call request visit).reply = some reply →
        Ended request post w.medium reply (w.call request visit).medium
          (w.call request visit).issued :=
  operate_leaves visit.weather
    (transaction_spec request visit.authorized w.quarantined start recorded settled) start

/-- What succeeded, its cleanup included, has assigned its outputs. -/
def Assigned (request : Request) (reply : Reply) : Prop :=
  reply.report.error = .ok → reply.report.cleanupError = .ok → ∃ work, reply.published = request.publish work

private theorem finish_assigned {d : Device Page} (request : Request) (recorded : Recorded) (owned : Owned) :
    (finish request recorded owned).wp faulty (fun reply _ => Assigned request reply) (fun _ => True) d := by
  unfold finish
  apply Prog.wp_bind (Prog.wp_any _)
  intro closed _ _
  apply Prog.wp_bind (Prog.wp_any _)
  intro cleanup _ _ ok clean
  exact ⟨recorded.work, if_pos ⟨ok, clean⟩⟩

theorem transaction_assigned {d : Device Page} (request : Request) (authorized quarantined : Bool) :
    (transaction request authorized quarantined).wp faulty (fun reply _ => Assigned request reply)
      (fun _ => True) d := by
  unfold transaction
  apply Prog.wp_bind (enter_spec request authorized quarantined trivial)
  rintro refusal d₁ ⟨-, refused⟩
  cases refusal with
  | some refusal =>
    obtain ⟨error, stage⟩ := refusal
    intro ok
    exact absurd ok (refused error stage rfl)
  | none =>
    apply Prog.wp_bind (Prog.wp_any _)
    intro acquired d₂ _
    split
    · exact finish_assigned request _ _
    · apply Prog.wp_bind (Prog.wp_any _)
      intro recorded d₃ _
      exact finish_assigned request recorded _

theorem World.call_assigned (w : World) (request : Request) (visit : Visit) {reply : Reply}
    (h : (w.call request visit).reply = some reply) : Assigned request reply := by
  have told : (transaction request visit.authorized w.quarantined).wp faulty
      (fun reply => Device.Leaves fun _ _ => Assigned request reply) (Device.Leaves fun _ _ => True)
        (.fresh w.medium) := by
    apply Prog.wp_mono (transaction_assigned request visit.authorized w.quarantined)
    · intro reply d assigned m _
      exact assigned
    · intro d _ m _
      trivial
  exact (operate_leaves visit.weather told trivial).2 reply h

end Mosaico.Nand.Store
