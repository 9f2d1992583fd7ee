import Mosaico.Nand.LogWorking

/-! The log over whole histories of a formatted region: loads, reads and appends
that fail, are cut or are refused, each a transaction of its own. -/
namespace Mosaico.Nand.LogHistory

open PageDevice Interaction Store
open StoreModel (Page)
open LogModel (Log Holds Extends LogLeft Entered Complete recovered recovered_latestSeq counted address maxSeq)

def Unread (code : LogModel.Code) : Prop := code = .empty ∨ code = .io

/-- A code that only says whether the medium could be read. -/
def Healthy (code : LogModel.Code) : Prop := Unread code ∨ code = .ok

theorem Healthy.not_corrupt {code : LogModel.Code} (h : Healthy code) : code ≠ .corrupt := by
  rcases h with (rfl | rfl) | rfl <;> decide

variable {log : Log} {m : Medium Page} {inv : Device Page → Prop} {d : Device Page}

theorem loadCode_healthy (log : Log) :
    Healthy (if log.latest ≠ 0 then .ok else .empty) ∧
      logError (if log.latest ≠ 0 then .ok else .empty) = .ok := by
  split
  · exact ⟨.inr rfl, rfl⟩
  · exact ⟨.inl (.inl rfl), rfl⟩

/-- What the log operations start with: the recovered log, or a failed read. -/
theorem openLog_spec (hinv : inv d) (h : Holds d.view log) {result : Report}
    (idle : result.logCode = .empty) :
    (openLog result).wp faulty (fun r d' => d' = d ∧
      ((∃ report, r = .error report ∧ report.error ≠ .ok ∧ Unread report.logCode) ∨
        ∃ report digests, r = .ok (report, digests, recovered log) ∧ Healthy report.logCode))
      inv d := by
  unfold openLog
  split
  · exact ⟨rfl, .inl ⟨_, rfl, by simp, .inl idle⟩⟩
  apply Prog.wp_bind (wp_readOnly (uses_digest _) hinv fun _ => (rfl : d = _))
  intro digests d' same
  rw [← same]
  cases digests with
  | none => exact ⟨rfl, .inl ⟨_, rfl, by simp, .inl idle⟩⟩
  | some traceCrc =>
    apply Prog.wp_bind (LogModel.load_spec hinv h)
    rintro r t ⟨rfl, rfl | rfl⟩
    · exact ⟨rfl, .inl ⟨_, rfl, by simp [checkLog, logError], .inr rfl⟩⟩
    · have healthy := loadCode_healthy log
      dsimp only
      rw [if_neg (fun ne => ne healthy.2)]
      exact ⟨rfl, .inr ⟨_, _, rfl, healthy.1⟩⟩

def LoadRecorded (log : Log) (m : Medium Page) (r : Recorded) (m' : Medium Page)
    (issued : List Nat) : Prop :=
  Unchanged m m' issued ∧ Healthy r.report.logCode ∧
    (r.report.error = .ok → r.work.logState = recovered log)

theorem recordLogLoad_spec (h : Holds m log) {result : Report} (idle : result.logCode = .empty) :
    (recordLogLoad result).wp faulty (fun r => Device.Leaves (LoadRecorded log m r))
      (Device.Leaves (Unchanged m)) (.fresh m) := by
  have fresh : (Device.fresh m).Leaves (Unchanged m) := Device.leaves_fresh.mpr ⟨rfl, rfl⟩
  unfold recordLogLoad
  apply Prog.wp_bind (openLog_spec fresh h idle)
  intro r d' opened
  obtain ⟨same, opened⟩ := opened
  rw [same]
  rcases opened with ⟨report, rfl, failed, unread⟩ | ⟨report, digests, rfl, healthy⟩
  · exact Device.leaves_fresh.mpr ⟨⟨rfl, rfl⟩, .inl unread, fun ok => (failed ok).elim⟩
  · exact Device.leaves_fresh.mpr ⟨⟨rfl, rfl⟩, healthy, fun _ => rfl⟩

def ReadRecorded (log : Log) (seq : Nat) (m : Medium Page) (r : Recorded) (m' : Medium Page)
    (issued : List Nat) : Prop :=
  Unchanged m m' issued ∧ Healthy r.report.logCode ∧
    (r.report.error = .ok → 0 < seq ∧ seq ≤ log.latest ∧ r.work.logPage = log.page seq)

theorem recordLogRead_spec (h : Holds m log) (seq : Nat) {result : Report}
    (idle : result.logCode = .empty) :
    (recordLogRead seq result).wp faulty (fun r => Device.Leaves (ReadRecorded log seq m r))
      (Device.Leaves (Unchanged m)) (.fresh m) := by
  have fresh : (Device.fresh m).Leaves (Unchanged m) := Device.leaves_fresh.mpr ⟨rfl, rfl⟩
  unfold recordLogRead
  apply Prog.wp_bind (openLog_spec fresh h idle)
  intro r d' opened
  obtain ⟨same, opened⟩ := opened
  rw [same]
  rcases opened with ⟨report, rfl, failed, unread⟩ | ⟨report, digests, rfl, healthy⟩
  · exact Device.leaves_fresh.mpr ⟨⟨rfl, rfl⟩, .inl unread, fun ok => (failed ok).elim⟩
  dsimp only
  split
  · exact Device.leaves_fresh.mpr ⟨⟨rfl, rfl⟩, healthy, fun ok => by cases ok⟩
  · rename_i inside
    rw [not_or, not_or, recovered_latestSeq h] at inside
    have hpos : 0 < seq := Nat.pos_of_ne_zero inside.1
    have hle : seq ≤ log.latest := Nat.not_lt.mp inside.2.2
    have near := counted h hpos hle (Nat.not_lt.mp inside.2.1)
    apply Prog.wp_bind (LogModel.read_spec fresh h hpos hle near)
    rintro r t ⟨rfl, rfl | rfl⟩
    · exact Device.leaves_fresh.mpr ⟨⟨rfl, rfl⟩, .inl (.inr rfl), fun ok => by cases ok⟩
    · exact Device.leaves_fresh.mpr ⟨⟨rfl, rfl⟩, .inr rfl, fun _ => ⟨hpos, hle, rfl⟩⟩

/-- The appended entry, and that the caller gets its page and its sequence. -/
structure Recorded.Entered (log : Log) (input : Page) (r : Recorded) (m : Medium Page) : Prop where
  final : LogModel.finalize input (log.latest + 1) = some r.work.logPage
  latest : r.work.logState.latestSeq = log.latest + 1
  holds : ∃ log', Extends log log' ∧ log'.latest = log.latest + 1 ∧
    log'.page (log.latest + 1) = r.work.logPage ∧ Holds m log'

def AppendRecorded (log : Log) (input : Page) (m : Medium Page) (r : Recorded) (m' : Medium Page)
    (issued : List Nat) : Prop :=
  LogLeft log m' ∧ (r.report.error = .ok → Recorded.Entered log input r m') ∧
    (log.latest = maxSeq → Unchanged m m' issued ∧
      (Unread r.report.logCode ∧ r.report.error ≠ .ok ∨ r.report.logCode = .overflow))

def AppendLeft (log : Log) (m : Medium Page) (m' : Medium Page) (issued : List Nat) : Prop :=
  LogLeft log m' ∧ (log.latest = maxSeq → Unchanged m m' issued)

theorem verifyAppend_spec {input page : Page} {state : LogModel.State} {digests : List Nat}
    {result : Report} (h : d.Leaves fun m _ => Entered log input page state m)
    (room : log.latest ≠ maxSeq) :
    (verifyAppend page state digests result).wp faulty
      (fun r => Device.Leaves (AppendRecorded log input m r)) (Device.Leaves (AppendLeft log m)) d := by
  have left : ∀ m' issued, Entered log input page state m' → AppendLeft log m m' issued := by
    intro m' issued entered
    obtain ⟨log', extends', -, -, holds⟩ := entered.holds
    exact ⟨⟨log', extends', holds⟩, fun full => (room full).elim⟩
  have failed : ∀ {t : Device Page} {r : Recorded}, r.report.error ≠ .ok →
      t.Leaves (fun m _ => Entered log input page state m) →
      t.Leaves (AppendRecorded log input m r) := fun notOk ht =>
    ht.mono fun m' issued entered =>
      ⟨(left m' issued entered).1, fun ok => (notOk ok).elim, fun full => (room full).elim⟩
  unfold verifyAppend
  apply Prog.wp_bind (reopen_spec result h left)
  rintro ⟨result', opened⟩ d' ⟨hd', -, ⟨rfl, notOk⟩ | ⟨rfl, synced, -⟩⟩
  · exact failed notOk hd'
  have resumed := hd'.view
  have lastly := resumed.latest
  obtain ⟨final, -, -, log', extends', hlatest, hpage, holds⟩ := resumed
  have hinv := hd'.mono left
  dsimp only
  rw [if_neg (by simp)]
  apply Prog.wp_bind (LogModel.load_spec hinv holds)
  rintro r t ⟨rfl, rfl | rfl⟩
  · exact failed (by simp [checkLog, logError]) hd'
  have healthy := loadCode_healthy log'
  dsimp only
  rw [if_neg (fun ne => ne healthy.2)]
  split
  · exact failed (by simp) hd'
  have hpos : 0 < state.latestSeq := by omega
  have hle : state.latestSeq ≤ log'.latest := by omega
  have near : log'.latest < state.latestSeq + LogModel.dataPages := by
    change log'.latest < state.latestSeq + 8192
    omega
  apply Prog.wp_bind (LogModel.read_spec hinv holds hpos hle near)
  rintro r t ⟨rfl, rfl | rfl⟩
  · exact failed (by simp [checkLog, logError]) hd'
  dsimp only
  rw [if_neg (by simp [checkLog, logError])]
  split
  · exact failed (by simp) hd'
  apply Prog.wp_bind (wp_readOnly (uses_checkDigest _ _) hinv fun _ => (rfl : t = _))
  rintro error t' rfl
  split
  · rename_i notOk
    exact failed notOk hd'
  · refine hd'.mono fun m' issued entered => ⟨(left m' issued entered).1, fun _ => ?_,
      fun full => (room full).elim⟩
    have latest : (recovered log').latestSeq = log.latest + 1 := by
      rw [recovered_latestSeq holds, hlatest]
    exact ⟨entered.final, latest, entered.holds⟩

theorem recordLogAppend_spec (h : Holds m log) (input : Page) {result : Report}
    (idle : result.logCode = .empty) :
    (recordLogAppend input result).wp faulty (fun r => Device.Leaves (AppendRecorded log input m r))
      (Device.Leaves (AppendLeft log m)) (.fresh m) := by
  have kept : AppendLeft log m m [] := ⟨.of h (.refl log), fun _ => ⟨rfl, rfl⟩⟩
  have fresh : (Device.fresh m).Leaves (AppendLeft log m) := Device.leaves_fresh.mpr kept
  unfold recordLogAppend
  apply Prog.wp_bind (openLog_spec fresh h idle)
  intro r d' opened
  obtain ⟨same, opened⟩ := opened
  rw [same]
  rcases opened with ⟨report, rfl, failed, unread⟩ | ⟨report, digests, rfl, healthy⟩
  · exact Device.leaves_fresh.mpr
      ⟨kept.1, fun ok => (failed ok).elim, fun _ => ⟨⟨rfl, rfl⟩, .inl ⟨unread, failed⟩⟩⟩
  dsimp only
  by_cases full : log.latest = maxSeq
  · have last : (recovered log).latestSeq = maxSeq := (recovered_latestSeq h).trans full
    rw [LogModel.append_overflow input last]
    have stopped : AppendRecorded log input m { report := checkLog report .overflow } m [] :=
      ⟨kept.1, (fun ok => by cases ok), fun _ => ⟨⟨rfl, rfl⟩, .inr rfl⟩⟩
    exact Device.leaves_fresh.mpr stopped
  · have room : ∀ {t : Device Page}, (t.Leaves fun m' _ => LogLeft log m') →
        t.Leaves (AppendLeft log m) := fun ht =>
      ht.mono fun m' issued left => ⟨left, fun last => (full last).elim⟩
    have appended : (LogModel.append input (recovered log) : Session _).wp faulty
        (LogModel.Appended log input) (Device.Leaves (AppendLeft log m)) (.fresh m) :=
      Prog.wp_mono (LogModel.append_spec input rfl h) (fun _ _ => id) fun _ => room
    apply Prog.wp_bind appended
    rintro ⟨code, page, state⟩ t ⟨left, notEmpty, entered⟩
    dsimp only
    split
    · rename_i notOk
      exact left.mono fun m' issued left' =>
        ⟨left', fun ok => (notOk ok).elim, fun last => (full last).elim⟩
    · rename_i ok
      have done : code = .ok := by
        have hok : logError code = .ok := not_not.mp ok
        cases code <;> first | rfl | exact (notEmpty rfl).elim | cases hok
      exact verifyAppend_spec (entered done) full

inductive Event where
  | reboot
  | load (visit : Visit)
  | read (seq : Nat) (visit : Visit)
  | append (input : Page) (visit : Visit)

/-- What the caller of a finished append holds: the page and its sequence. -/
structure Receipt where
  seq : Nat
  page : Page

/-- The outputs are assigned together, when the append and its cleanup went well. -/
def receipt (outcome : Outcome Page Reply) : Option Receipt := do
  let reply ← outcome.reply
  let page ← reply.published.logPage
  let state ← reply.published.logState
  return { seq := state.latestSeq, page := page }

/-- The world and the receipts given out so far, newest first. -/
structure History where
  world : World
  receipts : List Receipt := []

def History.step (s : History) : Event → History
  | .reboot => { s with world := s.world.reboot }
  | .load visit => { s with world := .after (s.world.call .logLoad visit) }
  | .read seq visit => { s with world := .after (s.world.call (.logRead seq) visit) }
  | .append input visit =>
    let outcome := s.world.call (.logAppend input) visit
    { world := .after outcome, receipts := (receipt outcome).toList ++ s.receipts }

@[simp] theorem History.step_read_receipts (s : History) (seq : Nat) (visit : Visit) :
    (s.step (.read seq visit)).receipts = s.receipts := rfl

def History.run (s : History) (events : List Event) : History := events.foldl History.step s

/-- The medium holds a log, and every receipt names an entry of it. -/
structure Consistent (s : History) (log : Log) : Prop where
  holds : Holds s.world.medium log
  entered : ∀ r ∈ s.receipts, 0 < r.seq ∧ r.seq ≤ log.latest ∧ log.page r.seq = r.page

variable {s : History} {w : World}

theorem load_settles (visit : Visit) (h : Holds w.medium log) :
    Unchanged w.medium (w.call .logLoad visit).medium (w.call .logLoad visit).issued ∧
      ∀ reply, (w.call .logLoad visit).reply = some reply →
        Ended .logLoad (LoadRecorded log w.medium) w.medium reply (w.call .logLoad visit).medium
          (w.call .logLoad visit).issued :=
  w.call_spec .logLoad visit ⟨rfl, rfl⟩ (fun _ => recordLogLoad_spec h rfl) fun _ _ _ done => done.1

theorem read_settles (seq : Nat) (visit : Visit) (h : Holds w.medium log) :
    Unchanged w.medium (w.call (.logRead seq) visit).medium (w.call (.logRead seq) visit).issued ∧
      ∀ reply, (w.call (.logRead seq) visit).reply = some reply →
        Ended (.logRead seq) (ReadRecorded log seq w.medium) w.medium reply
          (w.call (.logRead seq) visit).medium (w.call (.logRead seq) visit).issued :=
  w.call_spec (.logRead seq) visit ⟨rfl, rfl⟩ (fun _ => recordLogRead_spec h seq rfl)
    fun _ _ _ done => done.1

theorem append_settles (input : Page) (visit : Visit) (h : Holds w.medium log) :
    AppendLeft log w.medium (w.call (.logAppend input) visit).medium
        (w.call (.logAppend input) visit).issued ∧
      ∀ reply, (w.call (.logAppend input) visit).reply = some reply →
        Ended (.logAppend input) (AppendRecorded log input w.medium) w.medium reply
          (w.call (.logAppend input) visit).medium (w.call (.logAppend input) visit).issued :=
  w.call_spec (.logAppend input) visit ⟨.of h (.refl log), fun _ => ⟨rfl, rfl⟩⟩
    (fun _ => recordLogAppend_spec h input rfl)
    fun _ _ _ done => ⟨done.1, fun full => (done.2.2 full).1⟩

/-- A receipt is given for the entry that was appended. -/
theorem receipt_entered {input : Page} {visit : Visit} {r : Receipt} (h : Holds w.medium log)
    (given : receipt (w.call (.logAppend input) visit) = some r) :
    r.seq = log.latest + 1 ∧ LogModel.finalize input r.seq = some r.page ∧
      ∃ log', Extends log log' ∧ log'.latest = log.latest + 1 ∧
        log'.page (log.latest + 1) = r.page ∧
        Holds (w.call (.logAppend input) visit).medium log' := by
  unfold receipt at given
  obtain ⟨reply, hreply, given⟩ := Option.bind_eq_some_iff.mp given
  obtain ⟨page, hpage, given⟩ := Option.bind_eq_some_iff.mp given
  obtain ⟨state, hstate, given⟩ := Option.bind_eq_some_iff.mp given
  rw [← Option.some.inj given]
  rcases (append_settles input visit h).2 reply hreply with refused | ⟨recorded, done, finished⟩
  · rw [refused.2.2.2.2.1] at hpage
    cases hpage
  · rcases finished.2 with none | ⟨ok, outputs⟩
    · rw [none] at hpage
      cases hpage
    · rw [outputs] at hpage hstate
      have entered := done.2.1 ok
      rw [← Option.some.inj hpage, ← Option.some.inj hstate]
      refine ⟨entered.latest, ?_, entered.holds⟩
      rw [entered.latest]
      exact entered.final

theorem Consistent.since {t : History} {log' : Log} (h : Consistent s log)
    (holds : Holds t.world.medium log') (extends' : Extends log log')
    (same : t.receipts = s.receipts) : Consistent t log' := by
  refine ⟨holds, ?_⟩
  rw [same]
  intro r hr
  obtain ⟨hpos, hle, hpage⟩ := h.entered r hr
  exact ⟨hpos, Nat.le_trans hle extends'.latest, (extends'.page _ hle).trans hpage⟩

/-- An append that gives a receipt has entered its page. -/
theorem Consistent.append {input : Page} {visit : Visit} {r : Receipt} (h : Consistent s log)
    (given : receipt (s.world.call (.logAppend input) visit) = some r) :
    ∃ log', Extends log log' ∧ (log'.latest = log.latest + 1 ∧ r.seq = log.latest + 1) ∧
      (s.step (.append input visit)).receipts = r :: s.receipts ∧ Consistent (s.step (.append input visit)) log' := by
  let outcome := s.world.call (.logAppend input) visit
  obtain ⟨hseq, -, log', extends', hlatest, hpage, holds⟩ := receipt_entered h.holds given
  have receipts : (s.step (.append input visit)).receipts = r :: s.receipts := by
    change (receipt outcome).toList ++ s.receipts = _
    rw [given]
    rfl
  have old : Consistent { s with world := .after outcome } log' := h.since holds extends' rfl
  refine ⟨log', extends', ⟨hlatest, hseq⟩, receipts, holds, ?_⟩
  rw [receipts]
  intro e he
  rcases List.mem_cons.mp he with rfl | older
  · rw [hseq, hlatest]
    exact ⟨Nat.succ_pos _, le_rfl, hpage⟩
  · exact old.entered e older

/-- One step keeps the log or extends it. -/
theorem consistent_step (h : Consistent s log) (event : Event) :
    ∃ log', Extends log log' ∧ Consistent (s.step event) log' := by
  cases event with
  | reboot => exact ⟨log, .refl log, h.since h.holds (.refl log) rfl⟩
  | load visit =>
    have same := (load_settles visit h.holds).1.1
    have holds : Holds (s.world.call .logLoad visit).medium log := by
      rw [same]
      exact h.holds
    exact ⟨log, .refl log, h.since holds (.refl log) rfl⟩
  | read seq visit =>
    have same := (read_settles seq visit h.holds).1.1
    have holds : Holds (s.world.call (.logRead seq) visit).medium log := by
      rw [same]
      exact h.holds
    exact ⟨log, .refl log, h.since holds (.refl log) rfl⟩
  | append input visit =>
    let outcome := s.world.call (.logAppend input) visit
    cases given : receipt outcome with
    | none =>
      obtain ⟨log', extends', holds⟩ := (append_settles input visit h.holds).1.1
      refine ⟨log', extends', h.since holds extends' ?_⟩
      change (receipt outcome).toList ++ s.receipts = s.receipts
      rw [given]
      rfl
    | some r =>
      obtain ⟨log', extends', -, -, consistent⟩ := h.append given
      exact ⟨log', extends', consistent⟩

theorem consistent_run (h : Consistent s log) (events : List Event) :
    ∃ log', Extends log log' ∧ Consistent (s.run events) log' := by
  induction events generalizing s log with
  | nil => exact ⟨log, .refl log, h⟩
  | cons event rest ih =>
    obtain ⟨log1, first, h1⟩ := consistent_step h event
    obtain ⟨log2, second, h2⟩ := ih h1
    exact ⟨log2, first.trans second, h2⟩

def formattedRegion : History := { world := { medium := StoreModel.formatted } }

theorem consistent_formatted :
    Consistent formattedRegion ⟨0, 0, 0, fun _ => StoreModel.erased⟩ := by
  have untouched : ∀ page, 2 ≤ page → StoreModel.formatted page = StoreModel.erased := by
    intro page hpage
    unfold StoreModel.formatted
    rw [Function.update_of_ne (by omega), Function.update_of_ne (by omega)]
  have empty : ∀ page, 2 ≤ page → StoreModel.blank (StoreModel.formatted page) = true := by
    intro page hpage
    rw [untouched page hpage]
    exact StoreModel.blank_erased
  refine ⟨⟨StoreModel.holds_formatted.marked, ⟨?_, ?_⟩, ?_, Nat.zero_le _, .inl rfl, ?_⟩, ?_⟩
  · intro s hpos hle
    exact absurd (Nat.lt_of_lt_of_le hpos hle) (Nat.lt_irrefl 0)
  · intro s _ _
    exact empty _ (Nat.le_trans (by decide) (SequenceRing.slot_ge s))
  · intro s hpos hle
    exact absurd (Nat.lt_of_lt_of_le hpos hle) (Nat.lt_irrefl 0)
  · exact .inl ⟨rfl, fun c => empty _ (by simp only [LogModel.indexBase]; omega)⟩
  · intro r hr
    cases hr

/-- A load's state covers every receipt, and what it still counts is on the medium. -/
def LoadExplained (s : History) (reply : Reply) : Prop :=
  reply.report.logCode ≠ .corrupt ∧
    ∀ state, reply.published.logState = some state → ∀ r ∈ s.receipts, r.seq ≤ state.latestSeq ∧
      (state.oldestSeq ≤ r.seq → s.world.medium (address r.seq) = r.page ∧ Complete r.seq r.page)

theorem load_explained (h : Consistent s log) (visit : Visit) {reply : Reply}
    (hreply : (s.world.call .logLoad visit).reply = some reply) : LoadExplained s reply := by
  rcases (load_settles visit h.holds).2 reply hreply with refused | ⟨recorded, done, finished⟩
  · obtain ⟨-, -, hcode, -, hpublished, -⟩ := refused
    refine ⟨?_, ?_⟩
    · simp [hcode]
    · simp [hpublished]
  · refine ⟨?_, ?_⟩
    · rw [finished.logCode]
      exact done.2.1.not_corrupt
    · intro state published r hr
      obtain ⟨hpos, hle, hpage⟩ := h.entered r hr
      have state_eq : state = recovered log := by
        rcases finished.2 with none | ⟨ok, outputs⟩
        · rw [none] at published
          cases published
        · rw [outputs] at published
          exact (Option.some.inj published).symm.trans (done.2.2 ok)
      rw [state_eq, recovered_latestSeq h.holds]
      refine ⟨hle, fun hold => ?_⟩
      have entry := h.holds.entry hpos hle (counted h.holds hpos hle hold)
      rw [← hpage, ← entry.1]
      exact ⟨rfl, entry.2⟩

/-- A read under a receipt's sequence returns its page or none. -/
def ReadExplained (s : History) (seq : Nat) (reply : Reply) : Prop :=
  reply.report.logCode ≠ .corrupt ∧
    ∀ page, reply.published.logPage = some page → ∀ r ∈ s.receipts, r.seq = seq → page = r.page

theorem read_explained (h : Consistent s log) (seq : Nat) (visit : Visit) {reply : Reply}
    (hreply : (s.world.call (.logRead seq) visit).reply = some reply) :
    ReadExplained s seq reply := by
  rcases (read_settles seq visit h.holds).2 reply hreply with refused | ⟨recorded, done, finished⟩
  · obtain ⟨-, -, hcode, -, hpublished, -⟩ := refused
    refine ⟨?_, ?_⟩
    · simp [hcode]
    · simp [hpublished]
  · refine ⟨?_, ?_⟩
    · rw [finished.logCode]
      exact done.2.1.not_corrupt
    · intro page published r hr hseq
      rcases finished.2 with none | ⟨ok, outputs⟩
      · rw [none] at published
        cases published
      · rw [outputs] at published
        obtain ⟨-, -, hpage⟩ := h.entered r hr
        rw [← Option.some.inj published, ← hpage, hseq]
        exact (done.2.2 ok).2.2

/-- An append that finds the log full writes nothing; it says so when none of its calls
fails, and otherwise it may have failed before it had read the log. -/
def Overflows (s : History) (input : Page) (visit : Visit) : Prop :=
  Unchanged s.world.medium (s.world.call (.logAppend input) visit).medium
      (s.world.call (.logAppend input) visit).issued ∧
    (∀ reply, (s.world.call (.logAppend input) visit).reply = some reply →
      reply.report.logCode = .overflow ∨
        Unread reply.report.logCode ∧ reply.report.error ≠ .ok) ∧
    (Clear s.world (.logAppend input) visit →
      ∃ reply, (s.world.call (.logAppend input) visit).reply = some reply ∧ reply.report.logCode = .overflow)

theorem append_full (h : Consistent s log) (full : log.latest = maxSeq) (input : Page)
    (visit : Visit) : Overflows s input visit := by
  have settles := append_settles input visit h.holds
  refine ⟨settles.1.2 full, fun reply hreply => ?_, fun clear => ?_⟩
  · rcases settles.2 reply hreply with refused | ⟨recorded, done, finished⟩
    · exact .inr ⟨.inl refused.2.2.1, refused.1⟩
    · rw [finished.logCode, finished.error]
      exact (done.2.2 full).2.symm
  · obtain ⟨reply, r, hreply, found, told⟩ := World.call_clear clear
      (fun r => r.report.logCode = .overflow ∧ r.report.error ≠ .ok)
      fun acquired enough _ => recordLogAppend_full (d := .fresh _) h.holds enough rfl full input
    exact ⟨reply, hreply, told.report ▸ found.1⟩

/-- A load none of whose calls fails answers the recovered state. -/
theorem load_answers (h : Consistent s log) {visit : Visit} (clear : Clear s.world .logLoad visit) :
    ∃ reply, (s.world.call .logLoad visit).reply = some reply ∧ reply.report.error = .ok ∧
      reply.published.logState = some (recovered log) := by
  obtain ⟨reply, r, hreply, ⟨ok, state⟩, told⟩ := World.call_clear clear
    (fun r => r.report.error = .ok ∧ r.work.logState = recovered log)
    fun acquired enough _ => recordLogLoad_works (d := .fresh _) h.holds enough rfl
  refine ⟨reply, hreply, told.report ▸ ok, ?_⟩
  rw [told.published ok, ← state]
  rfl

theorem read_answers (h : Consistent s log) {receipt : Receipt} (held : receipt ∈ s.receipts)
    (kept : (recovered log).oldestSeq ≤ receipt.seq) {visit : Visit}
    (clear : Clear s.world (.logRead receipt.seq) visit) :
    ∃ reply, (s.world.call (.logRead receipt.seq) visit).reply = some reply ∧
      (reply.report.error = .ok ∧ reply.report.cleanupError = .ok ∧ reply.report.logCode = .ok) ∧
      reply.published.logPage = some receipt.page := by
  obtain ⟨hpos, hle, hpage⟩ := h.entered receipt held
  obtain ⟨reply, r, hreply, ⟨⟨⟨ok, code⟩, page⟩, clean⟩, told⟩ := World.call_clear clear
    (fun r => ((r.report.error = .ok ∧ r.report.logCode = .ok) ∧ r.work.logPage = log.page receipt.seq) ∧
      r.report.cleanupError = .ok)
    fun acquired enough _ => (recordLogRead_works (d := .fresh _) h.holds enough rfl hpos hle kept).mono
      fun _ _ _ done => ⟨done, done.2⟩
  refine ⟨reply, hreply, ⟨told.report ▸ ok, told.report ▸ clean, told.report ▸ code⟩, ?_⟩
  rw [told.published ok, ← hpage, ← page]
  rfl

theorem append_answers (h : Consistent s log) (room : log.latest ≠ maxSeq) {input page : Page}
    (final : LogModel.finalize input (log.latest + 1) = some page) {visit : Visit}
    (clear : Clear s.world (.logAppend input) visit) :
    ∃ reply r, (s.world.call (.logAppend input) visit).reply = some reply ∧ reply.quarantined = false ∧
      receipt (s.world.call (.logAppend input) visit) = some r := by
  obtain ⟨reply, r, hreply, ok, told⟩ := World.call_clear clear (fun r => r.report.error = .ok)
    fun acquired enough _ => recordLogAppend_works h.holds enough rfl room final
  refine ⟨reply, { seq := r.work.logState.latestSeq, page := r.work.logPage }, hreply, told.quarantined, ?_⟩
  rw [receipt, hreply]
  simp only [Option.bind_eq_bind, Option.bind_some, told.published ok]
  rfl

def Loads (s : History) (state : LogModel.State) : Prop :=
  ∃ visit reply, (s.world.call .logLoad visit).reply = some reply ∧ reply.published.logState = some state

theorem Loads.recovered {state : LogModel.State} (loads : Loads s state) (h : Consistent s log) :
    state = recovered log := by
  obtain ⟨visit, reply, hreply, published⟩ := loads
  rcases (load_settles visit h.holds).2 reply hreply with refused | ⟨recorded, done, finished⟩
  · rw [refused.2.2.2.2.1] at published
    cases published
  · rcases finished.2 with none | ⟨ok, outputs⟩
    · rw [none] at published
      cases published
    · rw [outputs] at published
      exact (Option.some.inj published).symm.trans (done.2.2 ok)

/-- The state names the newest pages of the medium, and all that the ring keeps. -/
def Current (m : Medium Page) (state : LogModel.State) : Prop :=
  (∀ seq, 0 < seq → state.oldestSeq ≤ seq → seq ≤ state.latestSeq → Complete seq (m (address seq))) ∧
    (state.latestSeq ≠ 0 → state.oldestSeq = max 1 (state.latestSeq + 1 - LogModel.maxPages))

theorem current_recovered (h : Holds m log) : Current m (recovered log) := by
  constructor
  · intro seq hpos kept hle
    rw [recovered_latestSeq h] at hle
    exact (h.entry hpos hle (counted h hpos hle kept)).2
  · intro written
    rw [recovered_latestSeq h] at written ⊢
    rw [LogModel.recovered_oldestSeq h written, LogModel.oldest]
    split <;> omega

/-- Two media never hold different pages of one sequence. -/
def Agree (m m' : Medium Page) : Prop :=
  ∀ a b, LogModel.dataBase ≤ a → a < LogModel.dataBase + LogModel.dataPages →
    LogModel.dataBase ≤ b → b < LogModel.dataBase + LogModel.dataPages →
    LogModel.validHeader (m a) = true → LogModel.validHeader (m' b) = true →
    ByteFields.get (m a) 8 8 = ByteFields.get (m' b) 8 8 → m a = m' b

private theorem validHeader_written {p : Page} (valid : LogModel.validHeader p = true) :
    StoreModel.blank p ≠ true := by
  intro blank
  have magic := LogModel.validHeader_magic valid
  rw [StoreModel.get_blank blank 0 (by decide)] at magic
  revert magic
  decide

/-- The page of a ring slot that is not blank belongs to a sequence of the log. -/
theorem held (h : Holds m log) {a : Nat} (low : LogModel.dataBase ≤ a)
    (high : a < LogModel.dataBase + LogModel.dataPages)
    (valid : LogModel.validHeader (m a) = true) :
    ByteFields.get (m a) 8 8 ≤ log.latest ∧ m a = log.page (ByteFields.get (m a) 8 8) := by
  rcases h.ring.cases (by decide) low high with blank | ⟨s, hpos, hle, same⟩
  · exact (validHeader_written valid blank).elim
  · have sequence := (h.complete s hpos hle).sequence
    rw [← same] at sequence
    rw [sequence]
    exact ⟨hle, same⟩

theorem agree_of_extends {m' : Medium Page} {log' : Log} (h : Holds m log) (h' : Holds m' log')
    (extends' : Extends log log') : Agree m m' := by
  intro a b lowA highA lowB highB validA validB same
  obtain ⟨le, here⟩ := held h lowA highA validA
  obtain ⟨-, there⟩ := held h' lowB highB validB
  rw [here, there, ← same]
  exact (extends'.page _ le).symm

/-- Loads and reads are never wrong and never corrupt, receipts name what was
appended, and a full log refuses appends without a write. A load, a read or an append
none of whose calls fails answers the state, the acknowledged page, a receipt. -/
structure CrashSafe (s : History) : Prop where
  load : ∀ visit reply, (s.world.call .logLoad visit).reply = some reply → LoadExplained s reply
  loads : ∀ visit, Clear s.world .logLoad visit → ∃ reply state,
    (s.world.call .logLoad visit).reply = some reply ∧ reply.report.error = .ok ∧
      reply.published.logState = some state ∧ Current s.world.medium state
  read : ∀ seq visit reply, (s.world.call (.logRead seq) visit).reply = some reply →
    ReadExplained s seq reply
  reads : ∀ state, Loads s state → ∀ r ∈ s.receipts, state.oldestSeq ≤ r.seq →
    ∀ visit, Clear s.world (.logRead r.seq) visit → ∃ reply,
      (s.world.call (.logRead r.seq) visit).reply = some reply ∧ reply.report.error = .ok ∧
        reply.published.logPage = some r.page
  append : ∀ input visit r, receipt (s.world.call (.logAppend input) visit) = some r →
    LogModel.finalize input r.seq = some r.page ∧ ∀ older ∈ s.receipts, older.seq < r.seq
  appends : ∀ state, Loads s state → state.latestSeq ≠ maxSeq → ∀ input page visit,
    LogModel.finalize input (state.latestSeq + 1) = some page → Clear s.world (.logAppend input) visit →
      ∃ r, receipt (s.world.call (.logAppend input) visit) = some r
  overflow : ∀ state, Loads s state → state.latestSeq = maxSeq → ∀ input visit, Overflows s input visit

theorem crashSafe_of_consistent (h : Consistent s log) : CrashSafe s where
  load := fun visit _ hreply => load_explained h visit hreply
  loads := by
    intro visit clear
    obtain ⟨reply, hreply, ok, published⟩ := load_answers h clear
    exact ⟨reply, _, hreply, ok, published, current_recovered h.holds⟩
  read := fun seq visit _ hreply => read_explained h seq visit hreply
  reads := by
    intro state loads r held kept visit clear
    rw [loads.recovered h] at kept
    obtain ⟨reply, hreply, told, page⟩ := read_answers h held kept clear
    exact ⟨reply, hreply, told.1, page⟩
  append := by
    intro input visit r given
    obtain ⟨hseq, final, -⟩ := receipt_entered h.holds given
    refine ⟨final, fun older holder => ?_⟩
    obtain ⟨-, hle, -⟩ := h.entered older holder
    rw [hseq]
    exact Nat.lt_succ_of_le hle
  appends := by
    intro state loads room input page visit final clear
    rw [loads.recovered h, recovered_latestSeq h.holds] at room final
    obtain ⟨-, r, -, -, given⟩ := append_answers h room final clear
    exact ⟨r, given⟩
  overflow := by
    intro state loads full input visit
    rw [loads.recovered h, recovered_latestSeq h.holds] at full
    exact append_full h full input visit

/-- Crash safety of the log at every moment of every history, and between any two. -/
theorem log_store_crash_safe (before after : List Event) :
    CrashSafe (formattedRegion.run before) ∧
      Agree (formattedRegion.run before).world.medium
        ((formattedRegion.run before).run after).world.medium := by
  obtain ⟨log, -, h⟩ := consistent_run consistent_formatted before
  obtain ⟨log', extends', h'⟩ := consistent_run h after
  exact ⟨crashSafe_of_consistent h, agree_of_extends h.holds h'.holds extends'⟩

def onePage : Page := ByteFields.put (ByteFields.zero _) 20 1 2

theorem finalize_onePage : ∃ page, LogModel.finalize onePage 1 = some page := by
  have count : ByteFields.get onePage 20 2 = 1 := ByteFields.get_put _ _ _ _ (by decide) (by decide)
  unfold LogModel.finalize
  rw [count]
  dsimp only
  rw [if_neg (by decide)]
  exact ⟨_, rfl⟩

def firstAppend : Event := .append onePage (clearVisit formattedRegion.world (.logAppend onePage))

theorem step_free {input : Page} {visit : Visit} {reply : Reply}
    (hreply : (s.world.call (.logAppend input) visit).reply = some reply) (free : reply.quarantined = false) :
    (s.step (.append input visit)).world.quarantined = false :=
  (World.after_quarantined hreply).trans free

/-- The log with one entry. -/
theorem first_appended : ∃ log r, Consistent (formattedRegion.step firstAppend) log ∧ log.latest = 1 ∧
    (formattedRegion.step firstAppend).receipts = [r] ∧ r.seq = 1 ∧
    (formattedRegion.step firstAppend).world.quarantined = false := by
  obtain ⟨page, final⟩ := finalize_onePage
  obtain ⟨reply, r, hreply, free, given⟩ := append_answers consistent_formatted (by decide) final
    (clear_clearVisit rfl (.logAppend onePage))
  obtain ⟨log, -, ⟨latest, seq⟩, receipts, consistent⟩ := consistent_formatted.append given
  exact ⟨log, r, consistent, latest, receipts, seq, step_free hreply free⟩

/-- After the first append a load and a read none of whose calls fails find its page. -/
theorem log_store_crash_safe_first : CrashSafe (formattedRegion.step firstAppend) ∧
    ∃ r reply, r ∈ (formattedRegion.step firstAppend).receipts ∧ r.seq = 1 ∧
      ((formattedRegion.step firstAppend).world.call (.logRead r.seq)
        (clearVisit (formattedRegion.step firstAppend).world (.logRead r.seq))).reply = some reply ∧
      reply.published.logPage = some r.page := by
  have safe := (log_store_crash_safe [firstAppend] []).1
  rw [History.run, List.foldl_cons, List.foldl_nil] at safe
  obtain ⟨log, r, consistent, latest, receipts, seq, free⟩ := first_appended
  have held : r ∈ (formattedRegion.step firstAppend).receipts := by
    rw [receipts]
    exact List.mem_singleton_self r
  obtain ⟨answered, state, loaded, -, published, current⟩ := safe.loads _ (clear_clearVisit free .logLoad)
  have loads : Loads (formattedRegion.step firstAppend) state := ⟨_, _, loaded, published⟩
  have newest : state.latestSeq = 1 := by
    rw [loads.recovered consistent, recovered_latestSeq consistent.holds, latest]
  have kept : state.oldestSeq ≤ r.seq := by
    rw [current.2 (by omega), newest, seq]
    decide
  obtain ⟨reply, hreply, -, page⟩ := safe.reads state loads r held kept _ (clear_clearVisit free (.logRead r.seq))
  exact ⟨safe, r, reply, held, seq, hreply, page⟩

end Mosaico.Nand.LogHistory
