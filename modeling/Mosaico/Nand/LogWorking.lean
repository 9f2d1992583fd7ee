import Mosaico.Nand.LogSafety
import Mosaico.Nand.TraceWorking

/-! The log when no call fails: a load answers the recovered state, a read its page, and an
append that has room is acknowledged. -/
namespace Mosaico.Nand.LogModel

open ByteFields PageDevice Interaction StoreModel

section Model

variable {H γ : Type} {A : H → Type} {works : (h : H) → γ → A h → γ → Prop} {d : Device Page}
    {g : γ} {log : Log}

theorem scanIndex_works (copy : Fin 2) :
    Delivers works (scanIndex copy : PageProg Page H A _) (fun r _ _ => r ≠ .error .io) d g := by
  unfold scanIndex
  rw [delivers_readPage]
  dsimp only
  split
  · exact fun other => by cases other
  · split
    · split <;> exact fun other => by cases other
    · exact fun other => by cases other

theorem loadIndex_works : Delivers works (loadIndex : PageProg Page H A _) (fun r _ _ => r ≠ .error .io) d g := by
  unfold loadIndex
  apply (scanIndex_works 0).bind
  intro first d₁ g₁ read
  split
  · exact fun other => read (by cases other; rfl)
  · apply (scanIndex_works 1).bind
    intro second d₂ g₂ read
    split
    · exact fun other => read (by cases other; rfl)
    · split
      · exact fun other => by cases other
      · split
        · split <;> exact fun other => by cases other
        · split <;> exact fun other => by cases other

theorem checkTail_works (state : State) :
    Delivers works (checkTail state : PageProg Page H A _) (fun r _ _ => r ≠ some .io) d g := by
  unfold checkTail
  split
  · exact fun other => by cases other
  · rw [delivers_readPage]
    dsimp only
    split <;> exact fun other => by cases other

theorem adoptNext_works (state : State) :
    Delivers works (adoptNext state : PageProg Page H A _) (fun r _ _ => r ≠ .error .io) d g := by
  have ok : ∀ state : State, (.ok state : Except Code State) ≠ .error .io := fun _ other => by cases other
  have corrupt : (.error .corrupt : Except Code State) ≠ .error .io := fun other => by cases other
  unfold adoptNext
  split
  · exact ok _
  rw [delivers_readPage]
  dsimp only
  split
  · exact ok _
  split
  · exact corrupt
  split
  · exact corrupt
  split
  · split
    · exact ok _
    · exact ok _
  split
  · exact corrupt
  · exact ok _

theorem load_read : Delivers works (load : PageProg Page H A _) (fun r _ _ => r.1 ≠ .io) d g := by
  have code : ∀ written : Prop, [Decidable written] → (if written then Code.corrupt else .notFormatted) ≠ .io := by
    intro written _
    split <;> decide
  unfold load
  apply (scanMarker_works 0 {}).bind
  rintro _ d₁ g₁ ⟨first, rfl⟩
  apply (scanMarker_works 1 first).bind
  rintro _ d₂ g₂ ⟨seen, rfl⟩
  dsimp only
  split
  · exact code _
  apply loadIndex_works.bind
  intro indexed d₃ g₃ read
  split
  · exact fun other => read (congrArg _ other)
  · apply (checkTail_works _).bind
    intro tail d₄ g₄ read
    split
    · exact fun other => read (congrArg _ other)
    · apply (adoptNext_works _).bind
      intro next d₅ g₅ read
      split
      · exact fun other => read (congrArg _ other)
      · rename_i state
        show (if state.latestSeq ≠ 0 then Code.ok else .empty) ≠ .io
        split <;> decide

/-- A load of a medium that holds `log` recovers it. -/
theorem load_works (h : Holds d.view log) :
    Delivers works (load : PageProg Page H A _)
      (fun r d' _ => d' = d ∧ r = (if log.latest ≠ 0 then .ok else .empty, some (recovered log))) d g := by
  have found : (load : PageProg Page H A _).wp faulty (fun r d' => d' = d ∧ (r = (.io, none) ∨
      r = (if log.latest ≠ 0 then .ok else .empty, some (recovered log)))) (fun _ => True) d := load_spec trivial h
  apply (load_read.and (.of_faulty found)).mono
  rintro r d' g' ⟨read, same, rfl | recovered⟩
  · exact absurd rfl read
  · exact ⟨same, recovered⟩

theorem read_works (h : Holds d.view log) {seq : Nat} (hpos : 0 < seq) (hle : seq ≤ log.latest)
    (near : log.latest < seq + dataPages) :
    Delivers works (read seq : PageProg Page H A _)
      (fun r d' _ => d' = d ∧ r = (.ok, some (log.page seq))) d g := by
  have went : Delivers works (read seq : PageProg Page H A _) (fun r _ _ => r.1 ≠ .io) d g := by
    unfold read
    split
    · exact fun other => by cases other
    · rw [delivers_readPage]
      dsimp only
      split <;> exact fun other => by cases other
  have found : (read seq : PageProg Page H A _).wp faulty
      (fun r d' => d' = d ∧ (r = (.io, none) ∨ r = (.ok, some (log.page seq)))) (fun _ => True) d :=
    read_spec trivial h hpos hle near
  apply (went.and (.of_faulty found)).mono
  rintro r d' g' ⟨read, same, rfl | there⟩
  · exact absurd rfl read
  · exact ⟨same, there⟩

/-- Pages in front of the index are as they were, and everything is durable. -/
def Beside (d d' : Device Page) : Prop := d'.pending = [] ∧ ∀ page < indexBase, d'.view page = d.view page

theorem beside_stored {page : Nat} (data : Page) (behind : indexBase ≤ page) : Beside d (stored d page data) := by
  refine ⟨rfl, fun q front => ?_⟩
  rw [stored_view, Function.update_of_ne (by omega)]

theorem Beside.trans {d' d'' : Device Page} (first : Beside d d') (second : Beside d' d'') : Beside d d'' :=
  ⟨second.1, fun page front => (second.2 page front).trans (first.2 page front)⟩

theorem publish_works (state : State) (seq : Nat) :
    Delivers works (publish state seq : PageProg Page H A _) (fun r d' _ => r.1 = .ok ∧ Beside d d') d g := by
  unfold publish
  dsimp only
  rw [delivers_writePage, if_neg (by decide), delivers_sync, if_neg (by decide), delivers_readPage]
  dsimp only
  rw [Device.flush_view, Device.write_view, Function.update_self, if_neg (fun bad => bad rfl)]
  exact ⟨rfl, beside_stored _ (Nat.le_add_right _ _)⟩

private theorem address_behind (seq : Nat) : indexBase ≤ address seq :=
  Nat.le_trans (by decide) (Nat.le_add_right dataBase _)

theorem appendNext_works {input page : Page} {state : State}
    (final : finalize input (state.latestSeq + 1) = some page)
    (spare : spareCode state (state.latestSeq + 1) (d.view (address (state.latestSeq + 1))) = .ok) :
    Delivers works (appendNext input state : PageProg Page H A _) (fun r d' _ => r.1 = .ok ∧ Beside d d') d g := by
  unfold appendNext
  dsimp only
  rw [final]
  dsimp only
  rw [delivers_readPage]
  dsimp only
  rw [if_neg (fun bad => bad spare), delivers_writePage, if_neg (by decide), delivers_sync, if_neg (by decide),
    delivers_readPage]
  dsimp only
  rw [Device.flush_view, Device.write_view, Function.update_self, if_neg (fun bad => bad rfl)]
  apply (publish_works state _).bind
  rintro ⟨code, after⟩ d' g' ⟨ok, beside⟩
  exact ⟨ok, (beside_stored _ (address_behind _)).trans beside⟩

/-- An append that has room, of a page that can be finalized, is done. -/
theorem append_works {input page : Page} (synced : d.pending = []) (h : Holds d.durable log)
    (room : log.latest ≠ maxSeq) (final : finalize input (log.latest + 1) = some page) :
    Delivers works (append input (recovered log) : PageProg Page H A _)
      (fun r d' _ => (r.1 = .ok ∧ Beside d d') ∧ Appended log input r d') d g := by
  have view : d.view = d.durable := by rw [Device.view, synced, writeAll_nil]
  have settled := append_spec (H := H) (A := A) input synced h
  refine Delivers.and ?_ (.of_faulty settled)
  unfold append
  rcases h.behind with current | orphan
  · have recover : recovered log = indexState log.latest log.copy := by
      rw [recovered, if_neg (by omega), current]
    rw [recover, indexState_latestSeq, if_neg room, indexState_adopted, if_neg (by decide)]
    have spare := h.spareCode log.copy
    rw [← view] at spare
    exact appendNext_works (by rw [indexState_latestSeq]; exact final)
      (by rw [indexState_latestSeq]; exact spare)
  · have latest : (recovered log).latestSeq = log.latest := by rw [recovered, if_pos (by omega)]
    have adopted : (recovered log).adopted = true := by rw [recovered, if_pos (by omega)]
    have copy : (recovered log).indexCopy = (indexState log.published log.copy).indexCopy := by
      rw [recovered, if_pos (by omega)]
    have published := publish_spec (H := H) (A := A) synced h orphan (.refl log) copy
    rw [latest, if_neg room, adopted, if_pos rfl]
    apply ((publish_works (recovered log) log.latest).and (.of_faulty published)).bind
    rintro r d' g' ⟨⟨ok, beside⟩, ⟨rfl, -⟩ | ⟨rfl, rfl⟩⟩
    · cases ok
    have caught : indexState log.publish.latest log.publish.copy = { recovered log with
        latestSeq := log.latest
        oldestSeq := oldest log.latest
        indexCopy := some (nextCopy log.published log.copy)
        adopted := false } := by
      have written : log.publish.latest ≠ 0 := by
        change log.latest ≠ 0
        omega
      rw [indexState, if_neg written]
      rfl
    have holds : Holds (stored d (indexBase + nextCopy log.published log.copy)
        (index log.latest)).view log.publish := by
      rw [stored_view, view]
      exact h.publish orphan
    have spare := holds.spareCode log.publish.copy
    dsimp only
    rw [if_neg (fun bad => bad rfl)]
    have next :
        Delivers works (appendNext input (indexState log.publish.latest log.publish.copy) : PageProg Page H A _)
        (fun r d'' _ => r.1 = .ok ∧ Beside _ d'')
        (stored d (indexBase + nextCopy log.published log.copy) (index log.latest)) g' :=
      appendNext_works (by rw [indexState_latestSeq]; exact final) (by rw [indexState_latestSeq]; exact spare)
    rw [caught] at next
    exact next.mono fun r d'' _ done => ⟨done.1, beside.trans done.2⟩

end Model

end Mosaico.Nand.LogModel

namespace Mosaico.Nand.Store

open ByteFields PageDevice
open StoreModel (Page pageSize)
open LogModel (Log Holds recovered recovered_latestSeq recovered_oldestSeq maxSeq)

variable {d : Device Page} {g : Selectors} {m : Medium Page} {log : Log} {result : Report}

theorem loadCode_ok (log : Log) : logError (if log.latest ≠ 0 then .ok else .empty) = .ok := by
  split <;> rfl

theorem openLog_works (h : Holds d.view log) (enough : LogModel.requiredPages ≤ result.logicalPages)
    (clean : result.cleanupError = .ok) :
    Delivers works (openLog result) (fun r d' _ => d' = d ∧ ∃ report : Report,
      r = .ok (report, digestOf d.view tracePages, recovered log) ∧ report.error = .ok ∧ report.cleanupError = .ok)
      d g := by
  unfold openLog
  rw [if_neg (Nat.not_lt.mpr enough)]
  apply (digest_works tracePages).bind
  rintro _ d₁ g₁ ⟨rfl, rfl⟩
  apply (LogModel.load_works h).bind
  rintro _ d₂ g₂ ⟨rfl, rfl⟩
  dsimp only
  rw [if_neg (fun bad => bad (loadCode_ok log))]
  exact ⟨rfl, _, rfl, loadCode_ok log, clean⟩

theorem recordLogLoad_works (h : Holds d.view log) (enough : LogModel.requiredPages ≤ result.logicalPages)
    (clean : result.cleanupError = .ok) :
    Delivers works (recordLogLoad result)
      (fun r _ _ => (r.report.error = .ok ∧ r.work.logState = recovered log) ∧ r.report.cleanupError = .ok) d g := by
  unfold recordLogLoad
  apply (openLog_works h enough clean).bind
  rintro _ d' g' ⟨rfl, report, rfl, ok, still⟩
  exact ⟨⟨ok, rfl⟩, still⟩

theorem recordLogRead_works (h : Holds d.view log) (enough : LogModel.requiredPages ≤ result.logicalPages)
    (clean : result.cleanupError = .ok) {seq : Nat} (hpos : 0 < seq) (hle : seq ≤ log.latest)
    (kept : (recovered log).oldestSeq ≤ seq) :
    Delivers works (recordLogRead seq result)
      (fun r _ _ => ((r.report.error = .ok ∧ r.report.logCode = .ok) ∧ r.work.logPage = log.page seq) ∧
        r.report.cleanupError = .ok) d g := by
  unfold recordLogRead
  apply (openLog_works h enough clean).bind
  rintro _ d' g' ⟨rfl, report, rfl, ok, still⟩
  have inside : ¬(seq = 0 ∨ seq < (recovered log).oldestSeq ∨ seq > (recovered log).latestSeq) := by
    rw [recovered_latestSeq h]
    omega
  dsimp only
  rw [if_neg inside]
  apply (LogModel.read_works h hpos hle (LogModel.counted h hpos hle kept)).bind
  rintro _ d₂ g₂ ⟨rfl, rfl⟩
  dsimp only
  rw [if_neg (fun bad => bad rfl)]
  exact ⟨⟨⟨rfl, rfl⟩, rfl⟩, still⟩

theorem recordLogAppend_full (h : Holds d.view log) (enough : LogModel.requiredPages ≤ result.logicalPages)
    (clean : result.cleanupError = .ok) (full : log.latest = maxSeq) (input : Page) :
    Delivers works (recordLogAppend input result)
      (fun r _ _ => (r.report.logCode = .overflow ∧ r.report.error ≠ .ok) ∧ r.report.cleanupError = .ok) d g := by
  unfold recordLogAppend
  apply (openLog_works h enough clean).bind
  rintro _ d' g' ⟨rfl, report, rfl, ok, still⟩
  dsimp only
  rw [LogModel.append_overflow input ((recovered_latestSeq h).trans full)]
  exact ⟨⟨rfl, fun bad => by cases bad⟩, still⟩

private theorem tracePages_front : ∀ page ∈ tracePages, page < LogModel.indexBase := by
  decide

theorem recordLogAppend_works (h : Holds m log) (enough : LogModel.requiredPages ≤ result.logicalPages)
    (clean : result.cleanupError = .ok) (room : log.latest ≠ maxSeq) {input page : Page}
    (final : LogModel.finalize input (log.latest + 1) = some page) :
    Delivers works (recordLogAppend input result)
      (fun r _ _ => r.report.error = .ok ∧ r.report.cleanupError = .ok) (.fresh m) g := by
  unfold recordLogAppend
  apply (openLog_works (d := .fresh m) h enough clean).bind
  rintro _ d₁ g₁ ⟨rfl, report, rfl, ok, still⟩
  dsimp only
  apply (LogModel.append_works rfl h room final).bind
  rintro ⟨code, written, state⟩ d₂ g₂ ⟨⟨rfl, synced, front⟩, -, -, entered⟩
  dsimp only
  rw [if_neg (fun bad => bad rfl)]
  have left : d₂.Leaves fun m' _ => LogModel.Entered log input written state m' ∧
      ∀ page < LogModel.indexBase, m' page = m page := by
    have durable : d₂.view = d₂.durable := by rw [Device.view, synced, writeAll_nil]
    rw [Device.leaves_of_synced synced, ← durable]
    exact ⟨(entered rfl).view, front⟩
  unfold verifyAppend
  apply (reopen_works _ _ left).bind
  rintro _ d₃ g₃ ⟨rfl, there⟩
  obtain ⟨⟨-, latest, oldest, log', -, latest', page', holds⟩, same⟩ := there.view
  dsimp only
  rw [if_neg (by decide)]
  apply (LogModel.load_works holds).bind
  rintro _ d₄ g₄ ⟨rfl, rfl⟩
  have reached : (recovered log').latestSeq = state.latestSeq := by rw [recovered_latestSeq holds, latest', latest]
  have begun : (recovered log').oldestSeq = state.oldestSeq := by
    rw [recovered_oldestSeq holds (by omega), latest', oldest]
  dsimp only
  rw [if_neg (fun bad => bad (loadCode_ok log')), if_neg (by rw [Option.getD_some, reached, begun]; simp)]
  have near : log'.latest < state.latestSeq + LogModel.dataPages := by
    rw [latest', latest]
    exact Nat.lt_add_of_pos_right (by decide)
  apply (LogModel.read_works holds (by omega) (by omega) near).bind
  rintro _ d₅ g₅ ⟨rfl, rfl⟩
  dsimp only
  rw [latest, page', if_neg (fun bad => bad rfl), if_neg (fun bad => bad rfl)]
  have trace : digestOf m tracePages = digestOf d₅.view tracePages :=
    (digestOf_congr fun page mem => same page (tracePages_front page mem)).symm
  show Delivers works (checkDigest tracePages (digestOf m tracePages) >>= _) _ d₅ g₅
  rw [trace]
  apply (checkDigest_works tracePages).bind
  rintro _ d₆ g₆ rfl
  rw [if_neg (fun bad => bad rfl)]
  exact ⟨rfl, still⟩

end Mosaico.Nand.Store
