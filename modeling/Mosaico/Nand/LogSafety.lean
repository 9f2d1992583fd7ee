import Mosaico.Nand.LogLayout
import Mosaico.Nand.StoreSafety

/-! Crash safety of the log. The medium holds a log: the ring of its entries and
the two index copies, which may lag behind by the one entry that was written last. -/
namespace Mosaico.Nand.LogModel

open ByteFields PageDevice Interaction StoreModel SequenceRing

/-- `page` is the content of every sequence so far; `published` is what the index
says and `copy` where it says it. -/
structure Log where
  latest : Nat
  published : Nat
  copy : Fin 2
  page : Nat → Page

def otherCopy (copy : Fin 2) : Fin 2 := if copy = 0 then 1 else 0

def Indexed (m : Medium Page) (published : Nat) (copy : Fin 2) : Prop :=
  (published = 0 ∧ ∀ c : Fin 2, blank (m (indexBase + c)) = true) ∨
    (0 < published ∧ m (indexBase + copy) = index published ∧
      (published = 1 ∧ blank (m (indexBase + otherCopy copy)) = true ∨
        1 < published ∧ m (indexBase + otherCopy copy) = index (published - 1)))

structure Holds (m : Medium Page) (log : Log) : Prop where
  marked : Marked m
  ring : Ring dataBase dataPages (fun p => blank p = true) m log.latest log.page
  complete : ∀ s, 0 < s → s ≤ log.latest → Complete s (log.page s)
  bounded : log.latest ≤ maxSeq
  behind : log.published = log.latest ∨ log.published + 1 = log.latest
  indexed : Indexed m log.published log.copy

def indexState (published : Nat) (copy : Fin 2) : State :=
  if published = 0 then {}
  else { latestSeq := published, oldestSeq := oldest published, indexCopy := some copy }

def recovered (log : Log) : State :=
  if log.published < log.latest then
    { indexState log.published log.copy with
      latestSeq := log.latest, oldestSeq := oldest log.latest, adopted := true }
  else indexState log.published log.copy

variable {H : Type} {A : H → Type} {inv : Device Page → Prop} {d : Device Page} {log : Log}

/-- What one index copy says: nothing, or a sequence. -/
def CopySays (m : Medium Page) (copy : Fin 2) (seq : Nat) : Prop :=
  seq = 0 ∧ blank (m (indexBase + copy)) = true ∨
    0 < seq ∧ seq ≤ maxSeq ∧ m (indexBase + copy) = index seq

theorem scanIndex_spec {copy : Fin 2} {seq : Nat} (hinv : inv d) (told : CopySays d.view copy seq) :
    (scanIndex copy : PageProg Page H A _).wp faulty
      (fun r d' => d' = d ∧ (r = .error .io ∨ r = .ok (seq, false))) inv d := by
  rcases told with ⟨rfl, h⟩ | ⟨hpos, hmax, h⟩
  · have magic := get_blank h 0 (by decide)
    have invalid : validIndex (d.view (indexBase + copy)) = false := by
      simp [validIndex, magic, indexMagic]
    simp [scanIndex, Prog.wp_bind_iff, wp_readPage, hinv, invalid, h]
  · have valid := validIndex_index hpos hmax
    simp [scanIndex, Prog.wp_bind_iff, wp_readPage, hinv, h, valid.1, valid.2]

/-- Both copies of a published index, and that a load takes them for it. -/
theorem Indexed.copies {m : Medium Page} {published : Nat} {copy : Fin 2}
    (h : Indexed m published copy) (hmax : published ≤ maxSeq) :
    ∃ seq0 seq1, CopySays m 0 seq0 ∧ CopySays m 1 seq1 ∧
      (seq0 = 0 ∨ seq1 = 0 ∨ seq0 = seq1 + 1 ∨ seq1 = seq0 + 1) ∧
      LogModel.published seq0 seq1 = indexState published copy := by
  rcases h with ⟨rfl, blank⟩ | ⟨hpos, newest, ⟨rfl, blank⟩ | ⟨later, older⟩⟩
  · exact ⟨0, 0, .inl ⟨rfl, blank 0⟩, .inl ⟨rfl, blank 1⟩, .inl rfl, rfl⟩
  · by_cases hc : copy = 0
    · rw [hc] at newest blank ⊢
      exact ⟨1, 0, .inr ⟨hpos, hmax, newest⟩, .inl ⟨rfl, blank⟩, .inr (.inl rfl), rfl⟩
    · have hc1 : copy = 1 := by omega
      rw [hc1] at newest blank ⊢
      exact ⟨0, 1, .inl ⟨rfl, blank⟩, .inr ⟨hpos, hmax, newest⟩, .inl rfl, rfl⟩
  · have here : published ≠ 0 := by omega
    have positive : published - 1 ≠ 0 := by omega
    by_cases hc : copy = 0
    · rw [hc] at newest older ⊢
      refine ⟨published, published - 1, .inr ⟨hpos, hmax, newest⟩,
        .inr ⟨by omega, by omega, older⟩, by omega, ?_⟩
      simp [LogModel.published, indexState, here]
    · have hc1 : copy = 1 := by omega
      rw [hc1] at newest older ⊢
      refine ⟨published - 1, published, .inr ⟨by omega, by omega, older⟩,
        .inr ⟨hpos, hmax, newest⟩, by omega, ?_⟩
      have less : published - 1 < published := by omega
      simp [LogModel.published, indexState, here, less]

theorem loadIndex_spec {published : Nat} {copy : Fin 2} (hinv : inv d)
    (h : Indexed d.view published copy) (hmax : published ≤ maxSeq) :
    (loadIndex : PageProg Page H A _).wp faulty
      (fun r d' => d' = d ∧ (r = .error .io ∨ r = .ok (indexState published copy))) inv d := by
  obtain ⟨seq0, seq1, told0, told1, near, state⟩ := h.copies hmax
  unfold loadIndex
  apply Prog.wp_bind (scanIndex_spec hinv told0)
  rintro r d' ⟨rfl, rfl | rfl⟩
  · exact ⟨rfl, .inl rfl⟩
  apply Prog.wp_bind (scanIndex_spec hinv told1)
  rintro r d' ⟨rfl, rfl | rfl⟩
  · exact ⟨rfl, .inl rfl⟩
  have distance : ¬ (seq0 ≠ 0 ∧ seq1 ≠ 0 ∧
      (seq0 = seq1 ∨ (if seq0 > seq1 then seq0 - seq1 else seq1 - seq0) ≠ 1)) := by
    rintro ⟨h0, h1, broken⟩
    split at broken <;> omega
  dsimp only
  rw [if_neg (by simp), if_neg distance, state]
  exact ⟨rfl, .inr rfl⟩

theorem checkTail_spec {state : State} (hinv : inv d)
    (tail : state.latestSeq ≠ 0 → Complete state.latestSeq (d.view (address state.latestSeq))) :
    (checkTail state : PageProg Page H A _).wp faulty
      (fun r d' => d' = d ∧ (r = some .io ∨ r = none)) inv d := by
  unfold checkTail
  split
  · exact ⟨rfl, .inr rfl⟩
  · rename_i written
    have complete := tail written
    simp only [Prog.wp_bind_iff, wp_readPage, complete.valid, complete.sequence]
    refine ⟨hinv, ⟨rfl, .inl rfl⟩, ?_⟩
    rw [if_neg (by simp)]
    exact ⟨rfl, .inr rfl⟩

/-- The entry one turn back lies in the slot of the next one and is no longer counted. -/
theorem turn_back {latest : Nat} (turned : dataPages ≤ latest) :
    address (latest + 1 - dataPages) = address (latest + 1) ∧
      latest + 1 - dataPages ≠ latest + 1 ∧ latest + 1 - dataPages < oldest latest := by
  have turned' : 8192 ≤ latest := turned
  have positive : 0 < latest + 1 - dataPages := by
    change 0 < latest + 1 - 8192
    omega
  have back : latest + 1 - dataPages + dataPages = latest + 1 :=
    Nat.sub_add_cancel (Nat.le_succ_of_le turned)
  refine ⟨?_, ?_, ?_⟩
  · have turn := @slot_add dataBase dataPages (latest + 1 - dataPages) positive
    rw [back] at turn
    exact turn.symm
  · change latest + 1 - 8192 ≠ latest + 1
    omega
  · change latest + 1 - 8192 < if latest > 8191 then latest - 8191 + 1 else 1
    rw [if_pos (by omega)]
    omega

/-- The slot behind the index holds nothing new: it is blank or one turn old. -/
theorem adoptNext_spare {state : State} (hinv : inv d)
    (spare : blank (d.view (address (state.latestSeq + 1))) = true ∨
      dataPages ≤ state.latestSeq ∧ state.oldestSeq = oldest state.latestSeq ∧
        Complete (state.latestSeq + 1 - dataPages) (d.view (address (state.latestSeq + 1)))) :
    (adoptNext state : PageProg Page H A _).wp faulty
      (fun r d' => d' = d ∧ (r = .error .io ∨ r = .ok state)) inv d := by
  unfold adoptNext
  split
  · exact ⟨rfl, .inr rfl⟩
  simp only [Prog.wp_bind_iff, wp_readPage]
  refine ⟨hinv, ⟨rfl, .inl rfl⟩, ?_⟩
  rcases spare with blank | ⟨turned, holdest, complete⟩
  · rw [if_pos blank]
    exact ⟨rfl, .inr rfl⟩
  · have written := complete.written
    obtain ⟨same, differ, retired⟩ := turn_back turned
    have positive : state.latestSeq ≠ 0 := by
      have turned' : 8192 ≤ state.latestSeq := turned
      omega
    have outside : ¬ (state.latestSeq = 0 ∨ state.latestSeq + 1 - dataPages ≥ state.oldestSeq) := by
      rw [holdest]
      exact not_or.mpr ⟨positive, Nat.not_le.mpr retired⟩
    rw [if_neg (by rw [written]; decide), complete.header, complete.sequence, if_neg (by decide),
      if_neg (fun ne => ne same), if_neg differ, if_neg outside]
    exact ⟨rfl, .inr rfl⟩

/-- A complete successor is adopted. -/
theorem adoptNext_orphan {state : State} (hinv : inv d) (room : state.latestSeq < maxSeq)
    (complete : Complete (state.latestSeq + 1) (d.view (address (state.latestSeq + 1)))) :
    (adoptNext state : PageProg Page H A _).wp faulty
      (fun r d' => d' = d ∧ (r = .error .io ∨ r = .ok { state with
        latestSeq := state.latestSeq + 1
        oldestSeq := oldest (state.latestSeq + 1)
        adopted := true })) inv d := by
  unfold adoptNext
  rw [if_neg (Nat.ne_of_lt room)]
  simp only [Prog.wp_bind_iff, wp_readPage]
  refine ⟨hinv, ⟨rfl, .inl rfl⟩, ?_⟩
  rw [if_neg (by rw [complete.written]; decide), complete.header, complete.sequence,
    if_neg (by decide), if_neg (fun ne => ne rfl), if_pos rfl, complete.valid, if_pos rfl]
  exact ⟨rfl, .inr rfl⟩

@[simp] theorem indexState_latestSeq (published : Nat) (copy : Fin 2) :
    (indexState published copy).latestSeq = published := by
  unfold indexState
  split
  · rename_i h
    exact h.symm
  · rfl

theorem indexState_oldestSeq {published : Nat} (h : published ≠ 0) (copy : Fin 2) :
    (indexState published copy).oldestSeq = oldest published := by
  rw [indexState, if_neg h]

@[simp] theorem indexState_adopted (published : Nat) (copy : Fin 2) :
    (indexState published copy).adopted = false := by
  unfold indexState
  split <;> rfl

theorem Holds.entry {m : Medium Page} (h : Holds m log) {s : Nat} (hpos : 0 < s)
    (hle : s ≤ log.latest) (near : log.latest < s + dataPages) :
    m (address s) = log.page s ∧ Complete s (m (address s)) := by
  have same := h.ring.kept s hpos hle near
  rw [address_eq, same]
  exact ⟨rfl, h.complete s hpos hle⟩

/-- The slot of the next entry is free to be spent. -/
theorem Holds.spare {m : Medium Page} (h : Holds m log) :
    blank (m (address (log.latest + 1))) = true ∨
      dataPages ≤ log.latest ∧
        Complete (log.latest + 1 - dataPages) (m (address (log.latest + 1))) := by
  rcases h.ring.next (by decide) with blank | ⟨turned, same⟩
  · exact .inl blank
  · have turned' : 8192 ≤ log.latest := turned
    have hpos : 0 < log.latest + 1 - 8192 := by omega
    refine .inr ⟨turned, ?_⟩
    rw [address_eq, same]
    exact h.complete _ hpos (Nat.sub_le_of_le_add (Nat.add_le_add_left (by decide) _))

theorem scanMarkers_spec {post : Code × Option State → Device Page → Prop}
    {rest : MarkerScan → PageProg Page H A (Code × Option State)} (hinv : inv d) (h : Marked d.view)
    (failed : post (.io, none) d) (next : (rest { copies := 2 }).wp faulty post inv d) :
    (do
      let some seen ← scanMarker 0 {} | return (.io, none)
      let some seen ← scanMarker 1 seen | return (.io, none)
      rest seen : PageProg Page H A (Code × Option State)).wp faulty post inv d := by
  apply Prog.wp_bind (scanMarker_spec 0 {} hinv h.first)
  rintro r d' ⟨rfl, rfl | rfl⟩
  · exact failed
  apply Prog.wp_bind (scanMarker_spec 1 _ hinv h.second)
  rintro r d' ⟨rfl, rfl | rfl⟩
  · exact failed
  · exact next

/-- A load recovers the log, or reports that a read failed. -/
theorem load_spec (hinv : inv d) (h : Holds d.view log) :
    (load : PageProg Page H A _).wp faulty
      (fun r d' => d' = d ∧ (r = (.io, none) ∨
        r = (if log.latest ≠ 0 then .ok else .empty, some (recovered log)))) inv d := by
  have hmax : log.published ≤ maxSeq := by
    have := h.bounded
    have := h.behind
    omega
  unfold load
  apply scanMarkers_spec hinv h.marked ⟨rfl, .inl rfl⟩
  rw [if_neg (by simp)]
  apply Prog.wp_bind (loadIndex_spec hinv h.indexed hmax)
  rintro r d' ⟨rfl, rfl | rfl⟩
  · exact ⟨rfl, .inl rfl⟩
  have tail : (indexState log.published log.copy).latestSeq ≠ 0 →
      Complete (indexState log.published log.copy).latestSeq
        (d'.view (address (indexState log.published log.copy).latestSeq)) := by
    rw [indexState_latestSeq]
    intro written
    have near : log.latest < log.published + 8192 := by
      have := h.behind
      omega
    exact (h.entry (Nat.pos_of_ne_zero written) (by have := h.behind; omega) near).2
  apply Prog.wp_bind (checkTail_spec hinv tail)
  rintro r d' ⟨rfl, rfl | rfl⟩
  · exact ⟨rfl, .inl rfl⟩
  rcases h.behind with current | orphan
  · have recover : recovered log = indexState log.published log.copy := by
      rw [recovered, if_neg (by omega)]
    have spare := h.spare
    rw [← current] at spare
    have old : blank (d'.view (address ((indexState log.published log.copy).latestSeq + 1))) = true ∨
        dataPages ≤ (indexState log.published log.copy).latestSeq ∧
          (indexState log.published log.copy).oldestSeq =
            oldest (indexState log.published log.copy).latestSeq ∧
          Complete ((indexState log.published log.copy).latestSeq + 1 - dataPages)
            (d'.view (address ((indexState log.published log.copy).latestSeq + 1))) := by
      rw [indexState_latestSeq]
      rcases spare with blank | ⟨turned, complete⟩
      · exact .inl blank
      · have written : log.published ≠ 0 := by
          have : 8192 ≤ log.published := turned
          omega
        exact .inr ⟨turned, indexState_oldestSeq written _, complete⟩
    apply Prog.wp_bind (adoptNext_spare hinv old)
    rintro r d' ⟨rfl, rfl | rfl⟩
    · exact ⟨rfl, .inl rfl⟩
    · rw [recover, ← current]
      simp
  · have recover : recovered log = { indexState log.published log.copy with
        latestSeq := log.published + 1, oldestSeq := oldest (log.published + 1), adopted := true } := by
      rw [recovered, if_pos (by omega), orphan]
    have complete := (h.entry (s := log.latest) (by omega) le_rfl (Nat.lt_add_of_pos_right (by decide))).2
    rw [← orphan] at complete
    have room : (indexState log.published log.copy).latestSeq < maxSeq := by
      rw [indexState_latestSeq]
      have := h.bounded
      omega
    have successor : Complete ((indexState log.published log.copy).latestSeq + 1)
        (d'.view (address ((indexState log.published log.copy).latestSeq + 1))) := by
      rw [indexState_latestSeq]
      exact complete
    apply Prog.wp_bind (adoptNext_orphan hinv room successor)
    rintro r d' ⟨rfl, rfl | rfl⟩
    · exact ⟨rfl, .inl rfl⟩
    · rw [recover, ← orphan]
      simp

theorem read_spec (hinv : inv d) (h : Holds d.view log) {seq : Nat} (hpos : 0 < seq)
    (hle : seq ≤ log.latest) (near : log.latest < seq + dataPages) :
    (read seq : PageProg Page H A _).wp faulty
      (fun r d' => d' = d ∧ (r = (.io, none) ∨ r = (.ok, some (log.page seq)))) inv d := by
  have entry := h.entry hpos hle near
  have complete := entry.2
  rw [entry.1] at complete
  unfold read
  rw [if_neg (Nat.ne_of_gt hpos)]
  simp only [Prog.wp_bind_iff, wp_readPage, entry.1, complete.valid, complete.sequence]
  refine ⟨hinv, ⟨rfl, .inl rfl⟩, ?_⟩
  rw [if_neg (by simp)]
  exact ⟨rfl, .inr rfl⟩

def nextCopy (published : Nat) (copy : Fin 2) : Fin 2 :=
  if published = 0 then 0 else otherCopy copy

def Log.publish (log : Log) : Log :=
  { log with published := log.latest, copy := nextCopy log.published log.copy }

def Log.append (log : Log) (p : Page) : Log :=
  { log with latest := log.latest + 1, page := Function.update log.page (log.latest + 1) p }

/-- Nothing that was in the log is gone or changed. -/
structure Extends (old new : Log) : Prop where
  latest : old.latest ≤ new.latest
  page : ∀ s, s ≤ old.latest → new.page s = old.page s

theorem Extends.refl (log : Log) : Extends log log := ⟨le_rfl, fun _ _ => rfl⟩

theorem Extends.trans {a b c : Log} (h : Extends a b) (h' : Extends b c) : Extends a c :=
  ⟨Nat.le_trans h.latest h'.latest,
    fun s hs => (h'.page s (Nat.le_trans hs h.latest)).trans (h.page s hs)⟩

theorem extends_publish (log : Log) : Extends log log.publish := ⟨le_rfl, fun _ _ => rfl⟩

theorem extends_append (log : Log) (p : Page) : Extends log (log.append p) :=
  ⟨Nat.le_succ _, fun s hs => Function.update_of_ne (by omega) _ _⟩

theorem otherCopy_ne (copy : Fin 2) : (otherCopy copy).val ≠ copy.val := by
  by_cases hc : copy = 0
  · rw [hc]
    decide
  · have hc1 : copy = 1 := by omega
    rw [hc1]
    decide

private theorem otherCopy_otherCopy (copy : Fin 2) : otherCopy (otherCopy copy) = copy := by
  have := otherCopy_ne copy
  have := otherCopy_ne (otherCopy copy)
  omega

/-- Writing the index of the newest entry publishes it. -/
theorem Holds.publish {m : Medium Page} (h : Holds m log) (behind : log.published + 1 = log.latest) :
    Holds (Function.update m (indexBase + nextCopy log.published log.copy) (index log.latest))
      log.publish := by
  have low : ∀ page, page < 16 → Function.update m (indexBase + nextCopy log.published log.copy)
      (index log.latest) page = m page := fun page hp =>
    Function.update_of_ne (by simp only [indexBase]; omega) _ _
  have high : ∀ page, 64 ≤ page → Function.update m (indexBase + nextCopy log.published log.copy)
      (index log.latest) page = m page := fun page hp =>
    Function.update_of_ne (by simp only [indexBase]; omega) _ _
  refine ⟨h.marked.congr (low 0 (by decide)) (low 1 (by decide)),
    h.ring.congr (by decide) fun a hlow _ => high a hlow, h.complete, h.bounded, .inl rfl, ?_⟩
  refine .inr ⟨by change 0 < log.latest; omega, Function.update_self _ _ _, ?_⟩
  change log.latest = 1 ∧ _ ∨ 1 < log.latest ∧ _
  have kept : Function.update m (indexBase + nextCopy log.published log.copy) (index log.latest)
      (indexBase + otherCopy (nextCopy log.published log.copy)) =
      m (indexBase + otherCopy (nextCopy log.published log.copy)) :=
    Function.update_of_ne (by have := otherCopy_ne (nextCopy log.published log.copy); omega) _ _
  have back : log.publish.copy = nextCopy log.published log.copy := rfl
  rw [back, kept]
  rcases h.indexed with ⟨none, blank⟩ | ⟨hpos, newest, -⟩
  · exact .inl ⟨by omega, blank _⟩
  · have same : otherCopy (nextCopy log.published log.copy) = log.copy := by
      rw [nextCopy, if_neg (by omega), otherCopy_otherCopy]
    have previous : log.publish.published - 1 = log.published := by
      change log.latest - 1 = _
      omega
    rw [same, previous]
    exact .inr ⟨by omega, newest⟩

/-- Writing the next entry into its slot appends it. -/
theorem Holds.append {m : Medium Page} (h : Holds m log) (current : log.published = log.latest)
    (room : log.latest < maxSeq) {p : Page} (complete : Complete (log.latest + 1) p) :
    Holds (Function.update m (address (log.latest + 1)) p) (log.append p) := by
  have low : ∀ page, page < 64 →
      Function.update m (address (log.latest + 1)) p page = m page := fun page hp =>
    Function.update_of_ne (by simp only [address, dataBase]; omega) _ _
  refine ⟨h.marked.congr (low 0 (by decide)) (low 1 (by decide)), h.ring.append p, ?_, room,
    .inr (by change log.published + 1 = log.latest + 1; omega), ?_⟩
  · intro s hs hle
    change Complete s (Function.update log.page (log.latest + 1) p s)
    by_cases new : s = log.latest + 1
    · rw [new, Function.update_self]
      exact complete
    · have older : s ≤ log.latest := by
        change s ≤ log.latest + 1 at hle
        omega
      rw [Function.update_of_ne new]
      exact h.complete s hs older
  · have index : ∀ c : Fin 2, Function.update m (address (log.latest + 1)) p (indexBase + c) =
        m (indexBase + c) := fun c => low _ (by simp only [indexBase]; omega)
    unfold Indexed
    simp only [index]
    exact h.indexed

/-- What an append may leave when it is interrupted. -/
def LogLeft (log : Log) (m : Medium Page) : Prop := ∃ log', Extends log log' ∧ Holds m log'

theorem LogLeft.of {m : Medium Page} {log' : Log} (h : Holds m log') (extends' : Extends log log') :
    LogLeft log m := ⟨log', extends', h⟩

theorem LogLeft.since {old new : Log} (extends' : Extends old new) {m : Medium Page}
    (h : LogLeft new m) : LogLeft old m := by
  obtain ⟨log', grown, holds⟩ := h
  exact ⟨log', extends'.trans grown, holds⟩

def stored (d : Device Page) (page : Nat) (data : Page) : Device Page := (d.write page data).flush

theorem stored_view (d : Device Page) (page : Nat) (data : Page) :
    (stored d page data).view = Function.update d.view page data := by
  rw [stored, Device.flush_view, Device.write_view]

/-- A page write whose two outcomes are both acceptable, up to its read back. -/
theorem wp_store {α : Type} {post : α → Device Page → Prop} {left : Medium Page → Prop} {page : Nat}
    {data : Page} {failed : PageProg Page H A α} {next : Page → PageProg Page H A α}
    (synced : d.pending = []) (before : left d.durable)
    (after : left (Function.update d.durable page data))
    (stop : ∀ d' : Device Page, d'.Leaves (fun m _ => left m) →
      failed.wp faulty post (Device.Leaves fun m _ => left m) d')
    (done : (next data).wp faulty post (Device.Leaves fun m _ => left m) (stored d page data)) :
    (do
      if (← writePage page data) = false then failed
      else if (← sync) = false then failed
      else
        let some verify ← readPage page | failed
        next verify : PageProg Page H A α).wp faulty post (Device.Leaves fun m _ => left m) d := by
  have view : d.view = d.durable := by rw [Device.view, synced, writeAll_nil]
  have refused : (d.refuse page).Leaves fun m _ => left m := fun m hm => by
    rw [(Device.survives_of_synced (d := d.refuse page) synced).mp hm]
    exact before
  have written : (d.write page data).Leaves fun m _ => left m := fun m hm => by
    rcases (Device.survives_write_synced synced).mp hm with rfl | rfl
    · exact before
    · exact after
  have flushed : (stored d page data).Leaves fun m _ => left m := by
    rw [stored, Device.leaves_flush, Device.write_view, view]
    exact after
  have read : (stored d page data).view page = data := by
    rw [stored_view, Function.update_self]
  simp only [Prog.wp_bind_iff, wp_writePage, wp_sync, Bool.true_eq_false, if_true, if_false]
  refine ⟨⟨written, refused⟩, ⟨stop _ refused, stop _ written⟩, ⟨written, flushed⟩,
    ⟨stop _ written, stop _ flushed⟩, ?_⟩
  rw [wp_readPage]
  refine ⟨flushed, stop _ flushed, ?_⟩
  change (next ((stored d page data).view page)).wp faulty post _ _
  rw [read]
  exact done

theorem publish_spec {state : State} {log0 : Log} (synced : d.pending = [])
    (h : Holds d.durable log) (behind : log.published + 1 = log.latest)
    (from0 : Extends log0 log)
    (copy : state.indexCopy = (indexState log.published log.copy).indexCopy) :
    (publish state log.latest : PageProg Page H A _).wp faulty
      (fun r d' => (r = (.io, state) ∧ d'.Leaves fun m _ => LogLeft log0 m) ∨
        (r = (.ok, { state with
            latestSeq := log.latest
            oldestSeq := oldest log.latest
            indexCopy := some (nextCopy log.published log.copy) }) ∧
          d' = stored d (indexBase + nextCopy log.published log.copy) (index log.latest)))
      (Device.Leaves fun m _ => LogLeft log0 m) d := by
  have target : (if state.indexCopy = some 0 then (1 : Fin 2) else 0) =
      nextCopy log.published log.copy := by
    rw [copy, indexState, nextCopy]
    by_cases none : log.published = 0
    · simp [none]
    · simp [none, otherCopy]
  unfold publish
  simp only [target]
  apply wp_store synced (.of h from0) (.of (h.publish behind) (from0.trans (extends_publish log)))
  · exact fun d' hd' => .inl ⟨rfl, hd'⟩
  · rw [if_neg fun ne => ne rfl]
    exact .inr ⟨rfl, rfl⟩

/-- The slot of the next entry may be spent. -/
theorem Holds.spareCode {m : Medium Page} (h : Holds m log) (copy : Fin 2) :
    spareCode (indexState log.latest copy) (log.latest + 1) (m (address (log.latest + 1))) = .ok := by
  unfold LogModel.spareCode
  rcases h.spare with blank | ⟨turned, complete⟩
  · rw [if_pos blank]
  · have written := complete.written
    have positive : log.latest ≠ 0 := by
      have turned' : 8192 ≤ log.latest := turned
      omega
    obtain ⟨same, differ, retired⟩ := turn_back turned
    have outside : ¬ (log.latest + 1 - dataPages > (indexState log.latest copy).latestSeq ∨
        log.latest + 1 - dataPages ≥ (indexState log.latest copy).oldestSeq) := by
      rw [indexState_latestSeq, indexState_oldestSeq positive]
      have := oldest_le (Nat.pos_of_ne_zero positive)
      omega
    dsimp only
    rw [if_neg (by rw [written]; decide), complete.header, complete.sequence, if_neg (by decide),
      if_neg (fun ne => ne same), if_neg differ, if_neg outside]

/-- The entry that an append reports as done. -/
structure Entered (log : Log) (input page : Page) (state : State) (m : Medium Page) : Prop where
  final : finalize input (log.latest + 1) = some page
  latest : state.latestSeq = log.latest + 1
  oldest : state.oldestSeq = LogModel.oldest (log.latest + 1)
  holds : ∃ log', Extends log log' ∧ log'.latest = log.latest + 1 ∧
    log'.page (log.latest + 1) = page ∧ Holds m log'

/-- What an append leaves behind, and what it has done when it says so. -/
def Appended (log : Log) (input : Page) (r : Code × Page × State) (d : Device Page) : Prop :=
  (d.Leaves fun m _ => LogLeft log m) ∧ r.1 ≠ .empty ∧
    (r.1 = .ok → d.Leaves fun m _ => Entered log input r.2.1 r.2.2 m)

theorem Appended.failed {log : Log} {input : Page} {r : Code × Page × State} {d : Device Page}
    (h : d.Leaves fun m _ => LogLeft log m) (notDone : r.1 ≠ .ok ∧ r.1 ≠ .empty) :
    Appended log input r d :=
  ⟨h, notDone.2, fun ok => (notDone.1 ok).elim⟩

theorem Extends.latest_eq {old new : Log} (h : Extends old new) (same : new.latest = old.latest)
    {input page : Page} {state : State} {m : Medium Page} (entered : Entered new input page state m) :
    Entered old input page state m := by
  obtain ⟨final, latest, oldest, log', extends', holds⟩ := entered
  rw [same] at final latest oldest holds
  exact ⟨final, latest, oldest, log', h.trans extends', holds⟩

/-- Writing the entry and then the index, over a log whose index is up to date. -/
theorem appendNext_spec (input : Page) (synced : d.pending = []) (h : Holds d.durable log)
    (current : log.published = log.latest) (room : log.latest < maxSeq) :
    (appendNext input (indexState log.latest log.copy) : PageProg Page H A _).wp faulty
      (Appended log input) (Device.Leaves fun m _ => LogLeft log m) d := by
  have view : d.view = d.durable := by rw [Device.view, synced, writeAll_nil]
  have start : d.Leaves fun m _ => LogLeft log m :=
    (Device.leaves_of_synced synced).mpr (.of h (.refl log))
  unfold appendNext
  simp only [indexState_latestSeq]
  cases final : finalize input (log.latest + 1) with
  | none => exact .failed start (by simp)
  | some page =>
    obtain ⟨rfl, -, hcount, hfits⟩ := finalize_eq final
    have complete := complete_finalized (Nat.succ_pos _) room hcount hfits
    have appended := h.append current room complete
    have spare := h.spareCode log.copy
    rw [← view] at spare
    dsimp only
    simp only [Prog.wp_bind_iff (readPage _), wp_readPage]
    refine ⟨start, .failed start (by simp), ?_⟩
    rw [if_neg (fun ne => ne spare)]
    apply wp_store synced (.of h (.refl log)) (.of appended (extends_append log _))
    · exact fun d' hd' => .failed hd' (by simp)
    rw [if_neg (fun ne => ne rfl)]
    have written : (stored d (address (log.latest + 1)) (finalized input (log.latest + 1))).durable =
        Function.update d.durable (address (log.latest + 1)) (finalized input (log.latest + 1)) := by
      rw [stored, Device.flush_durable, Device.write_view, view]
    rw [← written] at appended
    have copy : (indexState log.latest log.copy).indexCopy = (indexState
        (log.append (finalized input (log.latest + 1))).published
        (log.append (finalized input (log.latest + 1))).copy).indexCopy := by
      rw [Log.append, current]
    apply Prog.wp_bind (publish_spec rfl appended (congrArg Nat.succ current) (extends_append log _) copy)
    rintro r d' (⟨rfl, left⟩ | ⟨rfl, rfl⟩)
    · exact .failed left (by simp)
    · have published := appended.publish (congrArg Nat.succ current)
      have settled : (stored (stored d (address (log.latest + 1)) (finalized input (log.latest + 1)))
          (indexBase + nextCopy (log.append (finalized input (log.latest + 1))).published
            (log.append (finalized input (log.latest + 1))).copy)
          (index (log.append (finalized input (log.latest + 1))).latest)).Leaves fun m _ =>
            Holds m (log.append (finalized input (log.latest + 1))).publish := by
        rw [stored, Device.leaves_flush, Device.write_view]
        exact published
      have grown := (extends_append log (finalized input (log.latest + 1))).trans (extends_publish _)
      refine ⟨settled.mono fun m _ holds => .of holds grown, by simp,
        fun _ => settled.mono fun m _ holds => ?_⟩
      exact ⟨final, rfl, rfl, _, grown, rfl, Function.update_self _ _ _, holds⟩

/-- An append to the log that a load recovered. -/
theorem append_spec (input : Page) (synced : d.pending = []) (h : Holds d.durable log) :
    (append input (recovered log) : PageProg Page H A _).wp faulty
      (Appended log input) (Device.Leaves fun m _ => LogLeft log m) d := by
  have start : d.Leaves fun m _ => LogLeft log m :=
    (Device.leaves_of_synced synced).mpr (.of h (.refl log))
  unfold append
  rcases h.behind with current | orphan
  · have recover : recovered log = indexState log.latest log.copy := by
      rw [recovered, if_neg (by omega), current]
    rw [recover, indexState_latestSeq, indexState_adopted]
    split
    · exact .failed start (by simp)
    · rename_i below
      have room : log.latest < maxSeq := Nat.lt_of_le_of_ne h.bounded below
      exact appendNext_spec input synced h current room
  · have latest : (recovered log).latestSeq = log.latest := by rw [recovered, if_pos (by omega)]
    have adopted : (recovered log).adopted = true := by rw [recovered, if_pos (by omega)]
    have copy : (recovered log).indexCopy = (indexState log.published log.copy).indexCopy := by
      rw [recovered, if_pos (by omega)]
    rw [latest, adopted]
    split
    · exact .failed start (by simp)
    · rename_i below
      have room : log.latest < maxSeq := Nat.lt_of_le_of_ne h.bounded below
      rw [if_pos rfl]
      apply Prog.wp_bind (publish_spec synced h orphan (.refl log) copy)
      rintro r d' (⟨rfl, left⟩ | ⟨rfl, rfl⟩)
      · exact .failed left (by simp)
      have caught : indexState log.publish.latest log.publish.copy = { recovered log with
          latestSeq := log.latest
          oldestSeq := oldest log.latest
          indexCopy := some (nextCopy log.published log.copy)
          adopted := false } := by
        have written : log.publish.latest ≠ 0 := by
          change log.latest ≠ 0
          omega
        rw [indexState, if_neg written]
        rfl
      have view : d.view = d.durable := by rw [Device.view, synced, writeAll_nil]
      have published : Holds (stored d (indexBase + nextCopy log.published log.copy)
          (index log.latest)).durable log.publish := by
        rw [stored, Device.flush_durable, Device.write_view, view]
        exact h.publish orphan
      have next := @appendNext_spec H A _ _ input rfl published rfl room
      rw [caught] at next
      apply Prog.wp_mono next
      · rintro r d' ⟨left, notEmpty, done⟩
        exact ⟨left.mono fun m _ => LogLeft.since (extends_publish log), notEmpty,
          fun ok => (done ok).mono fun m _ => (extends_publish log).latest_eq rfl⟩
      · exact fun d' left => left.mono fun m _ => LogLeft.since (extends_publish log)

theorem recovered_latestSeq {m : Medium Page} (h : Holds m log) : (recovered log).latestSeq = log.latest := by
  rw [recovered]
  split
  · rfl
  · rw [indexState_latestSeq]
    have := h.behind
    omega

theorem recovered_oldestSeq {m : Medium Page} (h : Holds m log) (written : log.latest ≠ 0) :
    (recovered log).oldestSeq = oldest log.latest := by
  rw [recovered]
  split
  · rfl
  · have caught : log.published = log.latest := by
      have := h.behind
      omega
    rw [caught, indexState_oldestSeq written]

/-- What the log still counts is less than one turn old. -/
theorem counted {m : Medium Page} (h : Holds m log) {seq : Nat} (hpos : 0 < seq) (hle : seq ≤ log.latest)
    (hold : (recovered log).oldestSeq ≤ seq) : log.latest < seq + dataPages := by
  rw [recovered_oldestSeq h (by omega)] at hold
  change (if log.latest > 8191 then log.latest - 8191 + 1 else 1) ≤ seq at hold
  change log.latest < seq + 8192
  split at hold <;> omega

/-- At the last sequence an append makes no call at all. -/
theorem append_overflow (input : Page) {state : State} (full : state.latestSeq = maxSeq) :
    (append input state : PageProg Page H A _) = pure (.overflow, input, state) := by
  rw [append, if_pos full]

end Mosaico.Nand.LogModel
