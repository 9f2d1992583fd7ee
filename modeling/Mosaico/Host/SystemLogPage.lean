import Mosaico.Nand.LogHistory
import Mathlib.Logic.Function.Basic

/-! The page export of `mosaico_system_log.cpp`: callers that ask for a journal page and take it in chunks,
and the worker that reads the page into the buffer. A step is one access to what they share. -/
namespace Mosaico.Host.SystemLogPage

open ByteFields Nand.StoreModel Nand.LogModel Nand.Store Nand.LogHistory

inductive ReadStatus where
  | idle | pending | ready | failed
  deriving DecidableEq, Repr

abbrev chunkBytes : Nat := 128

/-- `logCode` has the value of `Code::Ok` where no read has set it. -/
structure Shared where
  reader : ReadStatus := .idle
  readSeq : Nat := 0
  nextAttempt : Nat := 0
  readError : EspErr := .ok
  readCode : Nand.LogModel.Code := .ok
  locked : Bool := false
  readPage : Page := zero pageSize
  history : History := formattedRegion

structure ChunkMetadata where
  seq : Nat := 0
  index : Nat := 0
  bytes : Nat := 0
  totalBytes : Nat := 2048
  pageCrc : Nat := 0
  chunkCrc : UInt32 := 0
  error : EspErr := .ok
  logCode : Nand.LogModel.Code := .ok

inductive Result where
  | requested (seq : Nat) (accepted : Bool)
  | chunk (ok : Bool) (out : List UInt8) (m : ChunkMetadata)

/-- Where a caller is. All but the first three places are behind the read lock. -/
inductive Caller where
  | idle
  | chunkCode (seq index : Nat) (error : EspErr)
  | chunkLock (m : ChunkMetadata)
  | requestPending (seq : Nat)
  | requestReady (seq : Nat)
  | requestSame (seq : Nat)
  | requestBusy (seq : Nat)
  | requestSeq (seq : Nat)
  | requestError (seq : Nat)
  | requestCode (seq : Nat)
  | requestAttempt (seq : Nat)
  | requestReader (seq : Nat)
  | chunkReader (m : ChunkMetadata)
  | chunkSeq (m : ChunkMetadata)
  | chunkCopy (m : ChunkMetadata) (out : List UInt8)
  | chunkSums (m : ChunkMetadata) (out : List UInt8)
  | release (result : Result)

def slice (p : Page) (index count : Nat) : List UInt8 :=
  (List.range count).map fun i => byteAt p (index * chunkBytes + i)

def crc (bytes : List UInt8) : UInt32 := ~~~(bytes.foldl crcByte 0xffffffff)

/-- One step of a caller, with what it returns. -/
inductive CallerStep (s : Shared) : Caller → Shared → Caller → List Result → Prop
  | requestNone (seq : Nat) : CallerStep s .idle s .idle [.requested seq false]
  | requestLock (seq : Nat) (some : seq ≠ 0) (free : s.locked = false) :
      CallerStep s .idle { s with locked := true } (.requestPending seq) []
  | requestPending (seq : Nat) : CallerStep s (.requestPending seq) s
      (if s.reader = .pending then .requestSame seq else .requestReady seq) []
  | requestReady (seq : Nat) : CallerStep s (.requestReady seq) s
      (if s.reader = .ready then .requestSame seq else .requestBusy seq) []
  | requestSame (seq : Nat) : CallerStep s (.requestSame seq) s
      (if s.readSeq = seq then .release (.requested seq true) else .requestBusy seq) []
  | requestBusy (seq : Nat) : CallerStep s (.requestBusy seq) s
      (if s.reader = .pending then .release (.requested seq false) else .requestSeq seq) []
  | requestSeq (seq : Nat) : CallerStep s (.requestSeq seq) { s with readSeq := seq } (.requestError seq) []
  | requestError (seq : Nat) : CallerStep s (.requestError seq) { s with readError := .ok } (.requestCode seq) []
  | requestCode (seq : Nat) : CallerStep s (.requestCode seq) { s with readCode := .ok } (.requestAttempt seq) []
  | requestAttempt (seq : Nat) :
      CallerStep s (.requestAttempt seq) { s with nextAttempt := 0 } (.requestReader seq) []
  | requestReader (seq : Nat) : CallerStep s (.requestReader seq) { s with reader := .pending }
      (.release (.requested seq true)) []
  | chunkError (seq index : Nat) : CallerStep s .idle s (.chunkCode seq index s.readError) []
  | chunkCode (seq index : Nat) (error : EspErr) : CallerStep s (.chunkCode seq index error) s
      (.chunkLock { seq := seq, index := index, error := error, logCode := s.readCode }) []
  | chunkRefused (m : ChunkMetadata) : CallerStep s (.chunkLock m) s .idle [.chunk false [] m]
  | chunkLock (m : ChunkMetadata) (bounds : m.index < 16) (free : s.locked = false) :
      CallerStep s (.chunkLock m) { s with locked := true } (.chunkReader m) []
  | chunkReader (m : ChunkMetadata) : CallerStep s (.chunkReader m) s
      (if s.reader = .ready then .chunkSeq m else .release (.chunk false [] m)) []
  | chunkSeq (m : ChunkMetadata) : CallerStep s (.chunkSeq m) s
      (if s.readSeq = m.seq then .chunkCopy m [] else .release (.chunk false [] m)) []
  | chunkByte (m : ChunkMetadata) (out : List UInt8) (more : out.length < chunkBytes) :
      CallerStep s (.chunkCopy m out) s
        (.chunkCopy m (out ++ [byteAt s.readPage (m.index * chunkBytes + out.length)])) []
  | chunkCopied (m : ChunkMetadata) (out : List UInt8) (done : chunkBytes ≤ out.length) :
      CallerStep s (.chunkCopy m out) s (.chunkSums m out) []
  | chunkSums (m : ChunkMetadata) (out : List UInt8) : CallerStep s (.chunkSums m out) s
      (.release (.chunk true out { m with
        bytes := chunkBytes
        chunkCrc := crc out
        pageCrc := get s.readPage 2044 4
        error := .ok
        logCode := .ok })) []
  | release (result : Result) : CallerStep s (.release result) { s with locked := false } .idle [result]

/-- Where the worker is in `processRead`; it copies a page that was read, byte by byte. -/
inductive Worker where
  | idle
  | attempt
  | admission
  | begin
  | reading (seq : Nat)
  | copying (report : Report) (page : Page) (count : Nat)
  | error (report : Report)
  | code (report : Report)
  | settle (report : Report)
  | fail (report : Report)

def succeeded (report : Report) : Prop := report.error = .ok ∧ report.cleanupError = .ok ∧ report.logCode = .ok

instance (report : Report) : Decidable (succeeded report) := inferInstanceAs (Decidable (_ ∧ _ ∧ _))

/-- One step of the worker. Between two reads it also loads and appends to the journal, and its gates may put off the
next attempt by any time. -/
inductive WorkerStep (s : Shared) : Worker → Shared → Worker → Prop
  | journal (event : Nand.LogHistory.Event) : WorkerStep s .idle { s with history := s.history.step event } .idle
  | later (time : Nat) : WorkerStep s .idle { s with nextAttempt := time } .idle
  | reader : WorkerStep s .idle s (if s.reader = .pending then .attempt else .idle)
  | attempt (now : Nat) : WorkerStep s .attempt s (if now < s.nextAttempt then .idle else .admission)
  | putOff (time : Nat) : WorkerStep s .admission { s with nextAttempt := time } .idle
  | admission : WorkerStep s .admission s .begin
  | begin : WorkerStep s .begin s (.reading s.readSeq)
  | read (seq : Nat) (visit : Visit) (reply : Reply)
      (answer : (s.history.world.call (.logRead seq) visit).reply = some reply) :
      WorkerStep s (.reading seq) { s with history := s.history.step (.read seq visit) }
        (match reply.published.logPage with
          | some page => .copying reply.report page 0
          | none => .error reply.report)
  | copyByte (report : Report) (page : Page) (count : Nat) (more : count < pageSize) :
      WorkerStep s (.copying report page count)
        { s with readPage := s.readPage.setIfInBounds count (byteAt page count) } (.copying report page (count + 1))
  | copied (report : Report) (page : Page) (count : Nat) (done : pageSize ≤ count) :
      WorkerStep s (.copying report page count) s (.error report)
  | error (report : Report) : WorkerStep s (.error report)
      { s with readError := if report.error ≠ .ok then report.error else report.cleanupError } (.code report)
  | code (report : Report) : WorkerStep s (.code report) { s with readCode := report.logCode } (.settle report)
  | ready (report : Report) (ok : succeeded report) : WorkerStep s (.settle report) { s with reader := .ready } .idle
  | failed (report : Report) (bad : ¬succeeded report) (time : Nat) :
      WorkerStep s (.settle report) { s with nextAttempt := time } (.fail report)
  | fail (report : Report) : WorkerStep s (.fail report) { s with reader := .failed } .idle

/-- Any number of callers, the worker, and the results so far. -/
structure System where
  shared : Shared := {}
  callers : Nat → Caller := fun _ => .idle
  worker : Worker := .idle
  results : List Result := []

inductive Step (s : System) : System → Prop
  | caller (i : Nat) (shared : Shared) (c : Caller) (results : List Result)
      (step : CallerStep s.shared (s.callers i) shared c results) :
      Step s { s with
        shared := shared
        callers := Function.update s.callers i c
        results := s.results ++ results }
  | worker (shared : Shared) (w : Worker) (step : WorkerStep s.shared s.worker shared w) :
      Step s { s with shared := shared, worker := w }
  | requestFlush : Step s { s with shared := { s.shared with nextAttempt := 0 } }

inductive Reach : System → Prop
  | start : Reach {}
  | step {s t : System} (before : Reach s) (next : Step s t) : Reach t

section Places

def Caller.holds : Caller → Prop
  | .idle | .chunkCode .. | .chunkLock _ => False
  | _ => True

/-- The caller has taken away the sequence of the page, and not yet asked for another. -/
def Caller.moving : Caller → Prop
  | .requestError _ | .requestCode _ | .requestAttempt _ | .requestReader _ => True
  | _ => False

/-- The caller may read the buffer in its next steps. -/
def Caller.copies : Caller → Prop
  | .chunkSeq _ | .chunkCopy .. | .chunkSums .. => True
  | _ => False

end Places

def Entry (log : Log) (seq : Nat) (p : Page) : Prop := 0 < seq ∧ seq ≤ log.latest ∧ p = log.page seq

theorem Entry.extends {log log' : Log} {seq : Nat} {p : Page} (h : Entry log seq p) (later : Extends log log') :
    Entry log' seq p := by
  obtain ⟨pos, inside, same⟩ := h
  exact ⟨pos, Nat.le_trans inside later.latest, same.trans (later.page seq inside).symm⟩

/-- A returned chunk is one of the page of its sequence. -/
def Sliced (log : Log) : Result → Prop
  | .chunk true out m => Entry log m.seq (log.page m.seq) ∧ m.index < 16 ∧
      out = slice (log.page m.seq) m.index chunkBytes
  | _ => True

theorem Sliced.extends {log log' : Log} {result : Result} (h : Sliced log result) (later : Extends log log') :
    Sliced log' result := by
  match result with
  | .requested _ _ => trivial
  | .chunk false _ _ => trivial
  | .chunk true out m =>
    obtain ⟨entry, bounds, same⟩ := h
    have kept : log'.page m.seq = log.page m.seq := later.page m.seq entry.2.1
    refine ⟨?_, bounds, ?_⟩
    · rw [kept]
      exact entry.extends later
    · rw [kept]
      exact same

/-- What holds of a caller at its place. -/
def CallerOk (log : Log) (s : Shared) : Caller → Prop
  | .requestSeq _ | .requestError _ | .requestCode _ | .requestAttempt _ | .requestReader _ => s.reader ≠ .pending
  | .chunkReader m => m.index < 16
  | .chunkSeq m => s.reader = .ready ∧ m.index < 16
  | .chunkCopy m out => s.reader = .ready ∧ s.readSeq = m.seq ∧ m.index < 16 ∧ out.length ≤ chunkBytes ∧
      out = slice s.readPage m.index out.length
  | .chunkSums m out => s.reader = .ready ∧ s.readSeq = m.seq ∧ m.index < 16 ∧
      out = slice s.readPage m.index chunkBytes
  | .release result => Sliced log result
  | _ => True

/-- What holds of the worker at its place: from its first look at a request on the request stays. -/
def WorkerOk (log : Log) (s : Shared) : Worker → Prop
  | .idle => True
  | .attempt | .admission | .begin => s.reader = .pending
  | .reading seq => s.reader = .pending ∧ s.readSeq = seq
  | .copying _ page count => s.reader = .pending ∧ Entry log s.readSeq page ∧ count ≤ pageSize ∧
      ∀ i < count, byteAt s.readPage i = byteAt page i
  | .error report | .code report | .settle report | .fail report =>
      s.reader = .pending ∧ (succeeded report → Entry log s.readSeq s.readPage)

structure Inv (s : System) (log : Log) : Prop where
  journal : Consistent s.shared.history log
  locked : ∀ i, (s.callers i).holds → s.shared.locked = true
  alone : ∀ i j, (s.callers i).holds → (s.callers j).holds → i = j
  callers : ∀ i, CallerOk log s.shared (s.callers i)
  worker : WorkerOk log s.shared s.worker
  ready : s.shared.reader = .ready → (∀ i, ¬(s.callers i).moving) → Entry log s.shared.readSeq s.shared.readPage
  results : ∀ r ∈ s.results, Sliced log r

theorem callerOk_free {log : Log} {s : Shared} {c : Caller} (free : ¬c.holds) : CallerOk log s c := by
  cases c with
  | idle => trivial
  | chunkCode _ _ _ => trivial
  | chunkLock _ => trivial
  | _ => exact absurd trivial free

theorem moving_holds {c : Caller} (h : c.moving) : c.holds := by
  cases c with
  | requestError _ => trivial
  | requestCode _ => trivial
  | requestAttempt _ => trivial
  | requestReader _ => trivial
  | _ => cases h

theorem slice_snoc (p : Page) (index count : Nat) :
    slice p index (count + 1) = slice p index count ++ [byteAt p (index * chunkBytes + count)] := by
  unfold slice
  rw [List.range_succ, List.map_append, List.map_singleton]

section Callers

variable {log : Log} {s s' : Shared} {c₀ c : Caller} {results : List Result}

/-- A step of a caller leaves the journal and the buffer, and a request that is pending. -/
theorem caller_frame (step : CallerStep s c₀ s' c results) (ok : CallerOk log s c₀) :
    s'.history = s.history ∧ s'.readPage = s.readPage ∧
      (s.reader = .pending → s'.reader = .pending ∧ s'.readSeq = s.readSeq) := by
  cases step with
  | requestSeq seq => exact ⟨rfl, rfl, fun pending => absurd pending ok⟩
  | requestReader seq => exact ⟨rfl, rfl, fun pending => absurd pending ok⟩
  | _ => exact ⟨rfl, rfl, fun pending => ⟨pending, rfl⟩⟩

theorem caller_outside (step : CallerStep s c₀ s' c results) (free : ¬c₀.holds) :
    s'.reader = s.reader ∧ s'.readSeq = s.readSeq ∧ s'.readPage = s.readPage := by
  cases step with
  | requestSeq seq => exact absurd trivial free
  | requestReader seq => exact absurd trivial free
  | _ => exact ⟨rfl, rfl, rfl⟩

/-- Who holds the lock after a step has it from before or has found it free; it is given back at the end only. -/
theorem caller_lock (step : CallerStep s c₀ s' c results) :
    (c.holds → c₀.holds ∧ s'.locked = s.locked ∨ s.locked = false ∧ s'.locked = true) ∧
      (¬c₀.holds → s.locked = true → s'.locked = true) := by
  cases step with
  | requestLock seq some free => exact ⟨fun _ => Or.inr ⟨free, rfl⟩, fun _ _ => rfl⟩
  | chunkLock m bounds free => exact ⟨fun _ => Or.inr ⟨free, rfl⟩, fun _ _ => rfl⟩
  | release result => exact ⟨fun held => absurd held id, fun free => absurd trivial free⟩
  | requestNone seq => exact ⟨fun held => absurd held id, fun _ kept => kept⟩
  | chunkError seq index => exact ⟨fun held => absurd held id, fun _ kept => kept⟩
  | chunkCode seq index error => exact ⟨fun held => absurd held id, fun _ kept => kept⟩
  | chunkRefused m => exact ⟨fun held => absurd held id, fun _ kept => kept⟩
  | _ => exact ⟨fun _ => Or.inl ⟨trivial, rfl⟩, fun free => absurd trivial free⟩

theorem caller_moving (step : CallerStep s c₀ s' c results) (still : ¬c.moving) (ready : s'.reader = .ready) :
    ¬c₀.moving ∧ s.reader = .ready ∧ s'.readSeq = s.readSeq := by
  cases step with
  | requestSeq seq => exact absurd trivial still
  | requestError seq => exact absurd trivial still
  | requestCode seq => exact absurd trivial still
  | requestAttempt seq => exact absurd trivial still
  | requestReader seq => cases ready
  | _ => exact ⟨id, ready, rfl⟩

theorem caller_own (step : CallerStep s c₀ s' c results) (ok : CallerOk log s c₀)
    (shown : s.reader = .ready → ¬c₀.moving → c₀.holds → Entry log s.readSeq s.readPage) :
    CallerOk log s' c ∧ ∀ r ∈ results, Sliced log r := by
  have none : ∀ r ∈ ([] : List Result), Sliced log r := by
    intro r mem
    cases mem
  cases step with
  | requestNone seq => exact ⟨trivial, fun r mem => by rw [List.mem_singleton.mp mem]; trivial⟩
  | requestLock seq some free => exact ⟨trivial, none⟩
  | requestPending seq =>
    refine ⟨?_, none⟩
    split <;> trivial
  | requestReady seq =>
    refine ⟨?_, none⟩
    split <;> trivial
  | requestSame seq =>
    refine ⟨?_, none⟩
    split <;> trivial
  | requestBusy seq =>
    refine ⟨?_, none⟩
    split
    · trivial
    · assumption
  | requestSeq seq => exact ⟨ok, none⟩
  | requestError seq => exact ⟨ok, none⟩
  | requestCode seq => exact ⟨ok, none⟩
  | requestAttempt seq => exact ⟨ok, none⟩
  | requestReader seq => exact ⟨trivial, none⟩
  | chunkError seq index => exact ⟨trivial, none⟩
  | chunkCode seq index error => exact ⟨trivial, none⟩
  | chunkRefused m => exact ⟨trivial, fun r mem => by rw [List.mem_singleton.mp mem]; trivial⟩
  | chunkLock m bounds free => exact ⟨bounds, none⟩
  | chunkReader m =>
    refine ⟨?_, none⟩
    split
    · rename_i ready
      exact ⟨ready, ok⟩
    · trivial
  | chunkSeq m =>
    refine ⟨?_, none⟩
    split
    · rename_i same
      exact ⟨ok.1, same, ok.2, Nat.zero_le _, rfl⟩
    · trivial
  | chunkByte m out more =>
    obtain ⟨ready, same, bounds, -, copied⟩ := ok
    refine ⟨⟨ready, same, bounds, ?_, ?_⟩, none⟩
    · rw [List.length_append, List.length_singleton]
      omega
    · rw [List.length_append, List.length_singleton, slice_snoc, ← copied]
  | chunkCopied m out done =>
    obtain ⟨ready, same, bounds, most, copied⟩ := ok
    have length : out.length = chunkBytes := by omega
    rw [length] at copied
    exact ⟨⟨ready, same, bounds, copied⟩, none⟩
  | chunkSums m out =>
    obtain ⟨ready, same, bounds, copied⟩ := ok
    have entry := shown ready id trivial
    rw [same] at entry
    have page : s.readPage = log.page m.seq := entry.2.2
    rw [page] at entry copied
    exact ⟨⟨entry, bounds, copied⟩, none⟩
  | release result => exact ⟨trivial, fun r mem => by rw [List.mem_singleton.mp mem]; exact ok⟩

theorem callerOk_same (ok : CallerOk log s c) (reader : s'.reader = s.reader) (seq : s'.readSeq = s.readSeq)
    (page : s'.readPage = s.readPage) : CallerOk log s' c := by
  unfold CallerOk at ok ⊢
  rw [reader, seq, page]
  exact ok

theorem workerOk_caller {w : Worker} (ok : WorkerOk log s w) (page : s'.readPage = s.readPage)
    (pending : s.reader = .pending → s'.reader = .pending ∧ s'.readSeq = s.readSeq) : WorkerOk log s' w := by
  cases w with
  | idle => trivial
  | attempt => exact (pending ok).1
  | admission => exact (pending ok).1
  | begin => exact (pending ok).1
  | reading seq => exact ⟨(pending ok.1).1, (pending ok.1).2.trans ok.2⟩
  | copying report p count =>
    obtain ⟨reader, entry, most, copied⟩ := ok
    obtain ⟨kept, seq⟩ := pending reader
    refine ⟨kept, ?_, most, ?_⟩
    · rw [seq]
      exact entry
    · rw [page]
      exact copied
  | error report =>
    obtain ⟨reader, read⟩ := ok
    obtain ⟨kept, seq⟩ := pending reader
    exact ⟨kept, fun good => by rw [seq, page]; exact read good⟩
  | code report =>
    obtain ⟨reader, read⟩ := ok
    obtain ⟨kept, seq⟩ := pending reader
    exact ⟨kept, fun good => by rw [seq, page]; exact read good⟩
  | fail report =>
    obtain ⟨reader, read⟩ := ok
    obtain ⟨kept, seq⟩ := pending reader
    exact ⟨kept, fun good => by rw [seq, page]; exact read good⟩
  | settle report =>
    obtain ⟨reader, read⟩ := ok
    obtain ⟨kept, seq⟩ := pending reader
    exact ⟨kept, fun good => by rw [seq, page]; exact read good⟩

end Callers

theorem inv_caller {s : System} {log : Log} (inv : Inv s log) {i : Nat} {shared : Shared} {c : Caller}
    {results : List Result} (step : CallerStep s.shared (s.callers i) shared c results) :
    Inv { s with
      shared := shared
      callers := Function.update s.callers i c
      results := s.results ++ results } log := by
  obtain ⟨history, page, pending⟩ := caller_frame step (inv.callers i)
  obtain ⟨locks, keeps⟩ := caller_lock step
  have others : ∀ j, j ≠ i → Function.update s.callers i c j = s.callers j := fun j other =>
    Function.update_of_ne other ..
  have shown : s.shared.reader = .ready → ¬(s.callers i).moving → (s.callers i).holds →
      Entry log s.shared.readSeq s.shared.readPage := by
    intro ready still held
    apply inv.ready ready
    intro j moving
    have same := inv.alone i j held (moving_holds moving)
    rw [← same] at moving
    exact still moving
  obtain ⟨own, returned⟩ := caller_own step (inv.callers i) shown
  constructor
  · change Consistent shared.history log
    rw [history]
    exact inv.journal
  · intro j held
    change (Function.update s.callers i c j).holds at held
    change shared.locked = true
    by_cases here : j = i
    · subst here
      rw [Function.update_self] at held
      obtain ⟨before, same⟩ | ⟨-, taken⟩ := locks held
      · rw [same]
        exact inv.locked j before
      · exact taken
    · rw [others j here] at held
      apply keeps _ (inv.locked j held)
      intro before
      exact here (inv.alone j i held before)
  · have single : ∀ j, j ≠ i → c.holds → (s.callers j).holds → False := by
      intro j other held there
      obtain ⟨before, -⟩ | ⟨free, -⟩ := locks held
      · exact other (inv.alone j i there before)
      · rw [inv.locked j there] at free
        cases free
    intro j k heldJ heldK
    change (Function.update s.callers i c j).holds at heldJ
    change (Function.update s.callers i c k).holds at heldK
    by_cases hereJ : j = i
    · by_cases hereK : k = i
      · rw [hereJ, hereK]
      · rw [others k hereK] at heldK
        rw [hereJ, Function.update_self] at heldJ
        exact (single k hereK heldJ heldK).elim
    · rw [others j hereJ] at heldJ
      by_cases hereK : k = i
      · rw [hereK, Function.update_self] at heldK
        exact (single j hereJ heldK heldJ).elim
      · rw [others k hereK] at heldK
        exact inv.alone j k heldJ heldK
  · intro j
    change CallerOk log shared (Function.update s.callers i c j)
    by_cases here : j = i
    · subst here
      rw [Function.update_self]
      exact own
    · rw [others j here]
      by_cases held : (s.callers i).holds
      · apply callerOk_free
        intro there
        exact here (inv.alone j i there held)
      · obtain ⟨reader, seq, page⟩ := caller_outside step held
        exact callerOk_same (inv.callers j) reader seq page
  · exact workerOk_caller inv.worker page pending
  · intro ready still
    change shared.reader = .ready at ready
    change Entry log shared.readSeq shared.readPage
    have here := still i
    change ¬(Function.update s.callers i c i).moving at here
    rw [Function.update_self] at here
    obtain ⟨stillBefore, readyBefore, seq⟩ := caller_moving step here ready
    rw [seq, page]
    apply inv.ready readyBefore
    intro j moving
    by_cases same : j = i
    · rw [same] at moving
      exact stillBefore moving
    · apply still j
      change (Function.update s.callers i c j).moving
      rw [others j same]
      exact moving
  · intro r mem
    obtain old | new := List.mem_append.mp mem
    · exact inv.results r old
    · exact returned r new

section Workers

variable {log log' : Log} {s : System} {shared : Shared} {w : Worker}

private theorem callerOk_extends {c : Caller} (ok : CallerOk log shared c) (later : Extends log log') :
    CallerOk log' shared c := by
  cases c with
  | release result => exact Sliced.extends ok later
  | _ => exact ok

/-- Nothing is said of a caller, while a request is pending, that the worker can take away. -/
theorem callerOk_pending {before : Shared} {c : Caller} (ok : CallerOk log before c)
    (pending : before.reader = .pending) : CallerOk log shared c := by
  have unready : before.reader ≠ .ready := by
    rw [pending]
    decide
  cases c with
  | requestSeq _ => exact absurd pending ok
  | requestError _ => exact absurd pending ok
  | requestCode _ => exact absurd pending ok
  | requestAttempt _ => exact absurd pending ok
  | requestReader _ => exact absurd pending ok
  | chunkReader _ => exact ok
  | chunkSeq _ => exact absurd ok.1 unready
  | chunkCopy _ _ => exact absurd ok.1 unready
  | chunkSums _ _ => exact absurd ok.1 unready
  | release _ => exact ok
  | _ => trivial

/-- A transaction of the journal keeps its pages. -/
theorem inv_journal (inv : Inv s log) (event : Nand.LogHistory.Event)
    (next : ∀ {log'}, Extends log log' → WorkerOk log' { s.shared with history := s.shared.history.step event } w) :
    ∃ log', Extends log log' ∧ Inv { s with
      shared := { s.shared with history := s.shared.history.step event }
      worker := w } log' := by
  obtain ⟨log', later, journal⟩ := consistent_step inv.journal event
  refine ⟨log', later, journal, inv.locked, inv.alone, ?_, next later, ?_, ?_⟩
  · intro i
    have ok := callerOk_extends (inv.callers i) later
    exact callerOk_same ok rfl rfl rfl
  · intro ready still
    exact (inv.ready ready still).extends later
  · intro r mem
    exact (inv.results r mem).extends later

/-- The worker moves on and leaves the page and the request. -/
theorem inv_moved (inv : Inv s log) (journal : shared.history = s.shared.history)
    (locked : shared.locked = s.shared.locked) (reader : shared.reader = s.shared.reader)
    (seq : shared.readSeq = s.shared.readSeq)
    (page : shared.readPage = s.shared.readPage) (next : WorkerOk log shared w) :
    Inv { s with shared := shared, worker := w } log where
  journal := by
    change Consistent shared.history log
    rw [journal]
    exact inv.journal
  locked i held := locked.trans (inv.locked i held)
  alone := inv.alone
  callers i := callerOk_same (inv.callers i) reader seq page
  worker := next
  ready := by
    change shared.reader = .ready → _ → Entry log shared.readSeq shared.readPage
    rw [reader, seq, page]
    exact inv.ready
  results := inv.results

/-- While a request is pending the worker may change the page, and may answer the request with it. -/
theorem inv_answered (inv : Inv s log) (pending : s.shared.reader = .pending)
    (journal : shared.history = s.shared.history) (locked : shared.locked = s.shared.locked)
    (answer : shared.reader = .ready → Entry log shared.readSeq shared.readPage) (next : WorkerOk log shared w) :
    Inv { s with shared := shared, worker := w } log where
  journal := by
    change Consistent shared.history log
    rw [journal]
    exact inv.journal
  locked i held := locked.trans (inv.locked i held)
  alone := inv.alone
  callers i := callerOk_pending (inv.callers i) pending
  worker := next
  ready ready _ := answer ready
  results := inv.results

/-- A read of the journal publishes the page of its sequence, and has done so where it succeeds. -/
theorem read_published {history : History} (journal : Consistent history log) {seq : Nat} {visit : Visit}
    {reply : Reply} (answer : (history.world.call (.logRead seq) visit).reply = some reply) :
    (∀ page, reply.published.logPage = some page → Entry log seq page) ∧
      (reply.published.logPage = none → ¬succeeded reply.report) := by
  have settled := (read_settles seq visit journal.holds).2 reply answer
  have assigned := history.world.call_assigned (.logRead seq) visit answer
  constructor
  · intro page published
    obtain refused | ⟨recorded, done, finished⟩ := settled
    · rw [refused.2.2.2.2.1] at published
      cases published
    · obtain none | ⟨ok, outputs⟩ := finished.2
      · rw [none] at published
        cases published
      · obtain ⟨pos, inside, same⟩ := done.2.2 ok
        rw [outputs] at published
        have work := Option.some.inj published
        rw [← work]
        exact ⟨pos, inside, same⟩
  · intro unpublished good
    obtain ⟨work, published⟩ := assigned good.1 good.2.1
    rw [published] at unpublished
    cases unpublished

private theorem page_copied {page buffer : Page} {count : Nat} (all : pageSize ≤ count)
    (copied : ∀ i < count, byteAt buffer i = byteAt page i) : buffer = page := by
  apply ext_byteAt
  intro i hi
  exact copied i (by omega)

private theorem byteAt_set (buffer : Page) (count i : Nat) (v : UInt8) (inside : count < pageSize) :
    byteAt (buffer.setIfInBounds count v) i = if i = count then v else byteAt buffer i := by
  unfold byteAt
  by_cases hi : i < pageSize
  · rw [dif_pos hi, dif_pos hi, Vector.getElem_setIfInBounds]
    by_cases here : count = i
    · rw [if_pos here, if_pos here.symm]
    · rw [if_neg here, if_neg (Ne.symm here)]
  · rw [dif_neg hi, dif_neg hi, if_neg (by omega)]

theorem inv_worker (inv : Inv s log) (step : WorkerStep s.shared s.worker shared w) :
    ∃ log', Extends log log' ∧ Inv { s with shared := shared, worker := w } log' := by
  have ok := inv.worker
  generalize place : s.worker = w₀ at step ok
  cases step with
  | journal event => exact inv_journal inv event fun _ => trivial
  | later time => exact ⟨log, .refl log, inv_moved inv rfl rfl rfl rfl rfl trivial⟩
  | reader =>
    refine ⟨log, .refl log, inv_moved inv rfl rfl rfl rfl rfl ?_⟩
    split
    · assumption
    · trivial
  | attempt now =>
    refine ⟨log, .refl log, inv_moved inv rfl rfl rfl rfl rfl ?_⟩
    split
    · trivial
    · exact ok
  | putOff time => exact ⟨log, .refl log, inv_moved inv rfl rfl rfl rfl rfl trivial⟩
  | admission => exact ⟨log, .refl log, inv_moved inv rfl rfl rfl rfl rfl ok⟩
  | begin => exact ⟨log, .refl log, inv_moved inv rfl rfl rfl rfl rfl ⟨ok, rfl⟩⟩
  | read seq visit reply answer =>
    obtain ⟨pending, asked⟩ := ok
    obtain ⟨page, none⟩ := read_published inv.journal answer
    apply inv_journal inv
    intro log' later
    cases published : reply.published.logPage with
    | none => exact ⟨pending, fun good => absurd good (none published)⟩
    | some p =>
      have entry := page p published
      rw [← asked] at entry
      refine ⟨pending, entry.extends later, Nat.zero_le _, ?_⟩
      intro i before
      omega
  | copyByte report page count more =>
    obtain ⟨pending, entry, -, copied⟩ := ok
    refine ⟨log, .refl log, inv_answered inv pending rfl rfl ?_ ⟨pending, entry, more, ?_⟩⟩
    · intro ready
      change s.shared.reader = .ready at ready
      rw [pending] at ready
      cases ready
    · intro i before
      change byteAt (s.shared.readPage.setIfInBounds count (byteAt page count)) i = byteAt page i
      rw [byteAt_set _ _ _ _ more]
      by_cases here : i = count
      · rw [if_pos here, here]
      · rw [if_neg here]
        exact copied i (by omega)
  | copied report page count done =>
    obtain ⟨pending, entry, -, copied⟩ := ok
    refine ⟨log, .refl log, inv_moved inv rfl rfl rfl rfl rfl ⟨pending, ?_⟩⟩
    intro _
    rw [page_copied done copied]
    exact entry
  | error report => exact ⟨log, .refl log, inv_moved inv rfl rfl rfl rfl rfl ok⟩
  | code report => exact ⟨log, .refl log, inv_moved inv rfl rfl rfl rfl rfl ok⟩
  | ready report good =>
    obtain ⟨pending, read⟩ := ok
    exact ⟨log, .refl log, inv_answered inv pending rfl rfl (fun _ => read good) trivial⟩
  | failed report bad time => exact ⟨log, .refl log, inv_moved inv rfl rfl rfl rfl rfl ok⟩
  | fail report =>
    obtain ⟨pending, -⟩ := ok
    refine ⟨log, .refl log, inv_answered inv pending rfl rfl ?_ trivial⟩
    intro ready
    cases ready

end Workers

theorem inv_start : Inv {} ⟨0, 0, 0, fun _ => erased⟩ where
  journal := consistent_formatted
  locked _ held := absurd held id
  alone _ _ held := absurd held id
  callers _ := trivial
  worker := trivial
  ready ready := by cases ready
  results r mem := by cases mem

theorem inv_reach {s : System} (reach : Reach s) : ∃ log, Inv s log := by
  induction reach with
  | start => exact ⟨_, inv_start⟩
  | step before next ih =>
    obtain ⟨log, inv⟩ := ih
    cases next with
    | caller i shared c results step => exact ⟨log, inv_caller inv step⟩
    | worker shared w step =>
      obtain ⟨log', -, inv'⟩ := inv_worker inv step
      exact ⟨log', inv'⟩
    | requestFlush =>
      have kept := workerOk_caller inv.worker rfl fun pending => ⟨pending, rfl⟩
      exact ⟨log, inv_moved inv rfl rfl rfl rfl rfl kept⟩

/-- Every chunk returned so far for a sequence is one of the verified page of that sequence in the journal,
and the worker writes to the buffer only while no caller can read it. -/
theorem export_consistent {s : System} (reach : Reach s) :
    ∃ page : Nat → Page,
      (∀ out m, Result.chunk true out m ∈ s.results →
        Complete m.seq (page m.seq) ∧ m.index < 16 ∧ out = slice (page m.seq) m.index chunkBytes) ∧
      (∀ receipt ∈ s.shared.history.receipts, page receipt.seq = receipt.page) ∧
      ∀ report p count, s.worker = .copying report p count →
        s.shared.reader = .pending ∧ ∀ i, ¬(s.callers i).copies := by
  obtain ⟨log, inv⟩ := inv_reach reach
  refine ⟨log.page, ?_, ?_, ?_⟩
  · intro out m mem
    obtain ⟨⟨pos, inside, -⟩, bounds, same⟩ := inv.results _ mem
    exact ⟨inv.journal.holds.complete m.seq pos inside, bounds, same⟩
  · intro receipt mem
    exact (inv.journal.entered receipt mem).2.2
  · intro report p count place
    have ok := inv.worker
    rw [place] at ok
    obtain ⟨pending, -⟩ := ok
    refine ⟨pending, ?_⟩
    intro i copies
    have caller := inv.callers i
    have unready : s.shared.reader ≠ .ready := by
      rw [pending]
      decide
    cases at_ : s.callers i with
    | chunkSeq m =>
      rw [at_] at caller
      exact unready caller.1
    | chunkCopy m out =>
      rw [at_] at caller
      exact unready caller.1
    | chunkSums m out =>
      rw [at_] at caller
      exact unready caller.1
    | _ =>
      rw [at_] at copies
      exact copies

section Pair

variable {shared shared' : Shared} {c c' : Caller} {w w' : Worker} {results new : List Result}

def pair (shared : Shared) (c : Caller) (w : Worker) (results : List Result) : System where
  shared := shared
  callers := Function.update (fun _ => .idle) 0 c
  worker := w
  results := results

theorem pair_start : Reach (pair {} .idle .idle []) := by
  rw [pair, Function.update_eq_self]
  exact .start

theorem pair_returns (reach : Reach (pair shared c w results)) (step : CallerStep shared c shared' c' new) :
    Reach (pair shared' c' w (results ++ new)) := by
  have place : (pair shared c w results).callers 0 = c := by
    unfold pair
    exact Function.update_self 0 c fun _ => Caller.idle
  rw [← place] at step
  have next := Step.caller (s := pair shared c w results) 0 shared' c' new step
  have same : Function.update (pair shared c w results).callers 0 c' = (pair shared' c' w results).callers :=
    Function.update_idem ..
  rw [same] at next
  exact .step reach next

theorem pair_caller (reach : Reach (pair shared c w results)) (step : CallerStep shared c shared' c' []) :
    Reach (pair shared' c' w results) := by
  have next := pair_returns reach step
  rwa [List.append_nil] at next

theorem pair_worker (reach : Reach (pair shared c w results)) (step : WorkerStep shared w shared' w') :
    Reach (pair shared' c w' results) :=
  .step reach (.worker shared' w' step)

def Shared.ask (s : Shared) (seq : Nat) : Shared :=
  { s with readSeq := seq, readError := .ok, readCode := .ok, nextAttempt := 0, reader := .pending }

theorem pair_requested (reach : Reach (pair shared .idle w results)) {seq : Nat} (some_ : seq ≠ 0)
    (free : shared.locked = false) (idle : shared.reader = .idle) :
    Reach (pair (shared.ask seq) .idle w (results ++ [.requested seq true])) := by
  obtain ⟨reader, readSeq, nextAttempt, readError, readCode, locked, buffer, history⟩ := shared
  dsimp only at free idle
  subst free idle
  have locked := pair_caller reach (.requestLock seq some_ rfl)
  have notPending := pair_caller locked (.requestPending seq)
  have notReady := pair_caller notPending (.requestReady seq)
  have busy := pair_caller notReady (.requestBusy seq)
  have stored := pair_caller busy (.requestSeq seq)
  have error := pair_caller stored (.requestError seq)
  have code := pair_caller error (.requestCode seq)
  have attempt := pair_caller code (.requestAttempt seq)
  have pending := pair_caller attempt (.requestReader seq)
  exact pair_returns pending (.release (.requested seq true))

/-- The worker copies a page that it has read. -/
private theorem pair_copied {report : Report} {page : Page}
    (reach : Reach (pair shared c (.copying report page 0) results)) (count : Nat) (inside : count ≤ pageSize) :
    ∃ buffer, Reach (pair { shared with readPage := buffer } c (.copying report page count) results) := by
  induction count with
  | zero => exact ⟨shared.readPage, reach⟩
  | succ count ih =>
    obtain ⟨buffer, before⟩ := ih (by omega)
    exact ⟨_, pair_worker before (.copyByte report page count (by omega))⟩

def Shared.answer (s : Shared) (history : History) (buffer : Page) : Shared :=
  { s with history := history, readPage := buffer, readError := .ok, readCode := .ok, reader := .ready }

theorem pair_read (reach : Reach (pair shared c .idle results)) {visit : Visit} {reply : Reply} {page : Page}
    (pending : shared.reader = .pending) (due : shared.nextAttempt = 0)
    (answer : (shared.history.world.call (.logRead shared.readSeq) visit).reply = some reply)
    (good : succeeded reply.report) (published : reply.published.logPage = some page) :
    ∃ buffer, Reach (pair (shared.answer (shared.history.step (.read shared.readSeq visit)) buffer) c .idle
      results) := by
  have asked := pair_worker reach .reader
  rw [if_pos pending] at asked
  have attempt := pair_worker asked (.attempt 0)
  rw [due, if_neg (by decide)] at attempt
  have begun := pair_worker attempt .admission
  have reading := pair_worker begun .begin
  have read := pair_worker reading (.read shared.readSeq visit reply answer)
  rw [published] at read
  obtain ⟨buffer, filled⟩ := pair_copied read pageSize (Nat.le_refl _)
  have copied := pair_worker filled (.copied reply.report page pageSize (Nat.le_refl _))
  have error := pair_worker copied (.error reply.report)
  have code := pair_worker error (.code reply.report)
  have ready := pair_worker code (.ready reply.report good)
  rw [good.1, if_neg (by decide), good.2.1, good.2.2] at ready
  exact ⟨buffer, ready⟩

/-- A caller copies a chunk. -/
private theorem pair_sliced {m : ChunkMetadata} (reach : Reach (pair shared (.chunkCopy m []) w results))
    (count : Nat) (inside : count ≤ chunkBytes) :
    ∃ out, out.length = count ∧ Reach (pair shared (.chunkCopy m out) w results) := by
  induction count with
  | zero => exact ⟨[], rfl, reach⟩
  | succ count ih =>
    obtain ⟨out, copied, before⟩ := ih (by omega)
    refine ⟨_, ?_, pair_caller before (.chunkByte m out (by omega))⟩
    rw [List.length_append, copied]
    rfl

theorem pair_chunk (reach : Reach (pair shared .idle w results)) {index : Nat} (bounds : index < 16)
    (free : shared.locked = false) (ready : shared.reader = .ready) :
    ∃ out m, m.seq = shared.readSeq ∧ m.index = index ∧
      Reach (pair shared .idle w (results ++ [.chunk true out m])) := by
  obtain ⟨reader, readSeq, nextAttempt, readError, readCode, locked, buffer, history⟩ := shared
  dsimp only at free ready
  subst free ready
  have error := pair_caller reach (.chunkError readSeq index)
  have code := pair_caller error (.chunkCode readSeq index readError)
  have locked := pair_caller code (.chunkLock _ bounds rfl)
  have reader := pair_caller locked (.chunkReader _)
  have asked := pair_caller reader (.chunkSeq _)
  rw [if_pos rfl] at asked
  obtain ⟨out, all, copied⟩ := pair_sliced asked chunkBytes (Nat.le_refl _)
  have whole := pair_caller copied (.chunkCopied _ out (by omega))
  have sums := pair_caller whole (.chunkSums _ out)
  exact ⟨out, _, rfl, rfl, pair_returns sums (.release _)⟩

end Pair

/-- A page is appended, asked for, read by the worker, and its first chunk is returned. -/
theorem export_consistent_returned : ∃ s out m, Reach s ∧ Result.chunk true out m ∈ s.results ∧ m.index = 0 ∧
    ∃ receipt ∈ s.shared.history.receipts, m.seq = receipt.seq ∧ out = slice receipt.page 0 chunkBytes := by
  obtain ⟨log, receipt, consistent, latest, receipts, seq, free⟩ := first_appended
  have held : receipt ∈ (formattedRegion.step firstAppend).receipts := by
    rw [receipts]
    exact List.mem_singleton_self receipt
  have kept : (recovered log).oldestSeq ≤ receipt.seq := by
    rw [recovered_oldestSeq consistent.holds (by omega), latest, seq]
    decide
  have clear := clear_clearVisit free (.logRead receipt.seq)
  obtain ⟨reply, answer, good, published⟩ := read_answers consistent held kept clear
  have written := pair_worker pair_start (.journal firstAppend)
  have some_ : receipt.seq ≠ 0 := by
    rw [seq]
    decide
  have asked := pair_requested written some_ rfl rfl
  obtain ⟨buffer, read⟩ := pair_read asked rfl rfl answer good published
  obtain ⟨out, m, same, first, returned⟩ := pair_chunk read (show 0 < 16 by decide) rfl rfl
  obtain ⟨page, chunks, journal, -⟩ := export_consistent returned
  have mem : Result.chunk true out m ∈ [.requested receipt.seq true] ++ [.chunk true out m] :=
    List.mem_append_right _ (List.mem_singleton_self _)
  have still : receipt ∈ ((formattedRegion.step firstAppend).step (.read receipt.seq
      (clearVisit (formattedRegion.step firstAppend).world (.logRead receipt.seq)))).receipts := by
    rw [History.step_read_receipts]
    exact held
  obtain ⟨-, -, sliced⟩ := chunks out m mem
  refine ⟨_, out, m, returned, mem, first, receipt, still, same, ?_⟩
  rw [sliced, first, same]
  exact congrArg (slice · 0 chunkBytes) (journal receipt still)

end Mosaico.Host.SystemLogPage
