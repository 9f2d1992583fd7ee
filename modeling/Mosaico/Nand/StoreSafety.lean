import Mosaico.Nand.StoreLayout

/-! Crash atomicity of the trace store. A medium holds no payload or one; a scan
finds it whatever reads fail, and a save that is cut anywhere leaves the medium
holding what it held or the new payload. -/
namespace Mosaico.Nand.StoreModel

open ByteFields PageDevice Interaction

structure Saved where
  slot : Fin 2
  generation : Nat
  payload : Payload

def spare : Option Saved → Fin 2
  | none => 0
  | some s => if s.slot = 0 then 1 else 0

/-- The commit page of a slot that is not the newest. -/
def Stale (m : Medium Page) (slot : Fin 2) (generation : Nat) : Prop :=
  blank (m (base slot + 2)) = true ∨
    ∃ g c, 0 < g ∧ g < generation ∧ c < 256 ^ 4 ∧ m (base slot + 2) = commit slot g c

structure Marked (m : Medium Page) : Prop where
  first : m 0 = marker
  second : m 1 = marker

structure Stored (m : Medium Page) (s : Saved) : Prop where
  positive : 0 < s.generation
  bounded : s.generation ≤ maxGeneration
  commit : m (base s.slot + 2) = commit s.slot s.generation (crc s.payload payloadSize)
  first : m (base s.slot) = payloadPage s.payload 0
  second : m (base s.slot + 1) = payloadPage s.payload 1
  stale : Stale m (spare (some s)) s.generation

/-- What a formatted medium holds for the trace store. -/
def Holds (m : Medium Page) : Option Saved → Prop
  | none => Marked m ∧ ∀ slot, blank (m (base slot + 2)) = true
  | some s => Marked m ∧ Stored m s

theorem Holds.marked {m : Medium Page} {st : Option Saved} (h : Holds m st) : Marked m := by
  cases st with
  | none => exact h.1
  | some s => exact h.1

def payloadIn (m : Medium Page) (slot : Fin 2) (expectedCrc : Nat) : Except Code Payload :=
  match assemble (m (base slot)) (m (base slot + 1)) with
  | none => .error .corrupt
  | some payload => if crc payload payloadSize = expectedCrc then .ok payload else .error .corrupt

def slotIn (m : Medium Page) (slot : Fin 2) : Slot :=
  match payloadIn m slot (parseCommit (m (base slot + 2)) slot).payloadCrc with
  | .error _ => { parseCommit (m (base slot + 2)) slot with valid := false }
  | .ok _ => parseCommit (m (base slot + 2)) slot

theorem slotIn_unpublished {m : Medium Page} {slot : Fin 2}
    (h : (parseCommit (m (base slot + 2)) slot).valid = false) :
    slotIn m slot = parseCommit (m (base slot + 2)) slot := by
  unfold slotIn
  cases payloadIn m slot (parseCommit (m (base slot + 2)) slot).payloadCrc with
  | error _ =>
    cases hp : parseCommit (m (base slot + 2)) slot with
    | mk valid generation payloadCrc =>
      rw [hp] at h
      cases h
      rfl
  | ok _ => rfl

theorem Stored.payloadIn {m : Medium Page} {s : Saved} (h : Stored m s) :
    payloadIn m s.slot (crc s.payload payloadSize) = .ok s.payload := by
  rw [StoreModel.payloadIn, h.first, h.second, assemble_payloadPage]
  simp

theorem Stored.slotIn {m : Medium Page} {s : Saved} (h : Stored m s) :
    slotIn m s.slot = ⟨true, s.generation, crc s.payload payloadSize⟩ := by
  have parsed : parseCommit (m (base s.slot + 2)) s.slot =
      ⟨true, s.generation, crc s.payload payloadSize⟩ := by
    rw [h.commit, parseCommit_commit s.slot h.positive h.bounded (crc_lt _ _)]
  rw [StoreModel.slotIn, parsed]
  simp only [h.payloadIn]

theorem slotIn_blank {m : Medium Page} {slot : Fin 2} (h : blank (m (base slot + 2)) = true) :
    (slotIn m slot).valid = false := by
  rw [slotIn, parseCommit_blank h]
  cases payloadIn m slot ({} : Slot).payloadCrc <;> rfl

theorem Stale.slotIn {m : Medium Page} {slot : Fin 2} {generation : Nat}
    (h : Stale m slot generation) (hgen : generation ≤ maxGeneration) :
    (slotIn m slot).valid = true → (slotIn m slot).generation < generation := by
  intro valid
  rcases h with blank | ⟨g, c, hpos, hlt, hcrc, hpage⟩
  · rw [slotIn_blank blank] at valid
    cases valid
  · have parsed : parseCommit (m (base slot + 2)) slot = ⟨true, g, c⟩ := by
      rw [hpage, parseCommit_commit slot hpos (by omega) hcrc]
    rw [StoreModel.slotIn, parsed]
    cases payloadIn m slot c <;> exact hlt

variable {H : Type} {A : H → Type} {inv : Device Page → Prop} {d : Device Page}

theorem readPayload_spec (slot : Fin 2) (expectedCrc : Nat) (hinv : inv d) :
    (readPayload slot expectedCrc : PageProg Page H A _).wp faulty
      (fun r d' => d' = d ∧ (r = .error .io ∨ r = payloadIn d.view slot expectedCrc)) inv d := by
  simp only [readPayload, Prog.wp_bind_iff, wp_readPage]
  refine ⟨hinv, ⟨rfl, .inl rfl⟩, ?_⟩
  cases first : takeHalf (zero payloadSize) 0 (d.view (base slot)) with
  | none => exact ⟨rfl, .inr (by simp [payloadIn, assemble, first])⟩
  | some payload =>
    simp only [Prog.wp_bind_iff, wp_readPage]
    refine ⟨hinv, ⟨rfl, .inl rfl⟩, ?_⟩
    cases second : takeHalf payload 1 (d.view (base slot + 1)) with
    | none => exact ⟨rfl, .inr (by simp [payloadIn, assemble, first, second])⟩
    | some payload =>
      have whole : assemble (d.view (base slot)) (d.view (base slot + 1)) = some payload := by
        simp [assemble, first, second]
      by_cases matched : crc payload payloadSize = expectedCrc
      · simp [payloadIn, whole, matched]
      · simp [payloadIn, whole, matched]

theorem scanMarker_spec (copy : Nat) (seen : MarkerScan) (hinv : inv d)
    (hmarker : d.view copy = marker) :
    (scanMarker copy seen : PageProg Page H A _).wp faulty
      (fun r d' => d' = d ∧ (r = none ∨ r = some { seen with copies := seen.copies + 1 })) inv d := by
  simp only [scanMarker, Prog.wp_bind_iff, wp_readPage, hmarker, validMarker_marker]
  exact ⟨hinv, ⟨rfl, .inl rfl⟩, ⟨rfl, .inr rfl⟩⟩

theorem scanSlot_spec (result : Result) (slot : Fin 2) (invalidCommit : Bool) (hinv : inv d) :
    (scanSlot result slot invalidCommit : PageProg Page H A _).wp faulty
      (fun r d' => d' = d ∧
        ((∃ stage, r = .error { result with stage := stage, code := .io }) ∨
          ∃ stage flag, r = .ok ({ result with stage := stage }, slotIn d.view slot, flag) ∧
            (blank (d.view (base slot + 2)) = true → flag = invalidCommit))) inv d := by
  simp only [scanSlot, Prog.wp_bind_iff, wp_readPage]
  refine ⟨hinv, ⟨rfl, .inl ⟨_, rfl⟩⟩, ?_⟩
  cases hfound : (parseCommit (d.view (base slot + 2)) slot).valid with
  | false =>
    rw [if_pos rfl, Prog.wp_pure, ← slotIn_unpublished hfound]
    exact ⟨rfl, .inr ⟨_, _, rfl, fun hb => by rw [hb]; simp⟩⟩
  | true =>
    have written : blank (d.view (base slot + 2)) = true → False := by
      intro hb
      rw [parseCommit_blank hb] at hfound
      cases hfound
    simp only [Bool.true_eq_false, if_false, Prog.wp_bind_iff]
    apply Prog.wp_mono (readPayload_spec slot _ hinv) _ (fun _ => id)
    rintro r d' ⟨rfl, rfl | rfl⟩
    · exact ⟨rfl, .inl ⟨_, rfl⟩⟩
    · cases hread : payloadIn d'.view slot (parseCommit (d'.view (base slot + 2)) slot).payloadCrc with
      | ok payload =>
        have seen : slotIn d'.view slot = parseCommit (d'.view (base slot + 2)) slot := by
          unfold slotIn
          rw [hread]
        rw [← seen]
        exact ⟨rfl, .inr ⟨_, _, rfl, fun hb => (written hb).elim⟩⟩
      | error code =>
        have seen : slotIn d'.view slot =
            { parseCommit (d'.view (base slot + 2)) slot with valid := false } := by
          unfold slotIn
          rw [hread]
        have corrupt : code = .corrupt := by
          unfold payloadIn at hread
          split at hread
          · cases hread; rfl
          · split at hread <;> cases hread; rfl
        rw [← seen, corrupt]
        exact ⟨rfl, .inr ⟨_, _, rfl, fun hb => (written hb).elim⟩⟩

/-- What a scan of a medium reports when no read fails. -/
def Scanned (r : Result) : Option Saved → Prop
  | none => r.code = .empty ∧ r.generation = 0 ∧ r.slot = none
  | some s => r.code = .ok ∧ r.generation = s.generation ∧ r.slot = some s.slot

theorem choose_empty {result : Result} {slot0 slot1 : Slot} (h0 : slot0.valid = false)
    (h1 : slot1.valid = false) : choose result slot0 slot1 false = { result with code := .empty } := by
  simp [choose, h0, h1]

private theorem choose_first {result : Result} {slot0 slot1 : Slot} {flag : Bool} (h0 : slot0.valid = true)
    (h1 : slot1.valid = true → slot1.generation < slot0.generation) :
    choose result slot0 slot1 flag =
      { result with slot := some 0, generation := slot0.generation, code := .ok } := by
  cases hv : slot1.valid with
  | false => simp [choose, h0, hv]
  | true =>
    have older := h1 hv
    have differ : slot0.generation ≠ slot1.generation := by omega
    have smaller : ¬ slot0.generation < slot1.generation := by omega
    simp [choose, h0, hv, differ, smaller]

private theorem choose_second {result : Result} {slot0 slot1 : Slot} {flag : Bool} (h1 : slot1.valid = true)
    (h0 : slot0.valid = true → slot0.generation < slot1.generation) :
    choose result slot0 slot1 flag =
      { result with slot := some 1, generation := slot1.generation, code := .ok } := by
  cases hv : slot0.valid with
  | false => simp [choose, h1, hv]
  | true =>
    have older := h0 hv
    have differ : slot0.generation ≠ slot1.generation := by omega
    simp [choose, h1, hv, differ, older]

/-- The newest payload is chosen whatever the other slot was left with. -/
theorem choose_scanned {m : Medium Page} {st : Option Saved} (h : Holds m st) {result : Result}
    {flag : Bool} (clean : st = none → flag = false) (hslot : result.slot = none)
    (hgen : result.generation = 0) :
    Scanned (choose result (slotIn m 0) (slotIn m 1) flag) st := by
  cases st with
  | none =>
    rw [clean rfl, choose_empty (slotIn_blank (h.2 0)) (slotIn_blank (h.2 1))]
    exact ⟨rfl, hgen, hslot⟩
  | some s =>
    have live := h.2.slotIn
    have stale := h.2.stale.slotIn h.2.bounded
    by_cases hs : s.slot = 0
    · rw [spare, if_pos hs] at stale
      rw [hs] at live
      rw [choose_first (by rw [live]) (by rw [live]; exact stale), live]
      exact ⟨rfl, rfl, hs.symm ▸ rfl⟩
    · have hs1 : s.slot = 1 := by omega
      rw [spare, if_neg hs] at stale
      rw [hs1] at live
      rw [choose_second (by rw [live]) (by rw [live]; exact stale), live]
      exact ⟨rfl, rfl, hs1.symm ▸ rfl⟩

theorem scan_spec {st : Option Saved} (hinv : inv d) (h : Holds d.view st) :
    (scan : PageProg Page H A _).wp faulty
      (fun r d' => d' = d ∧ (r.code = .io ∨ Scanned r st)) inv d := by
  unfold scan
  apply Prog.wp_bind (scanMarker_spec 0 {} hinv h.marked.first)
  rintro r d' ⟨rfl, rfl | rfl⟩
  · exact ⟨rfl, .inl rfl⟩
  apply Prog.wp_bind (scanMarker_spec 1 _ hinv h.marked.second)
  rintro r d' ⟨rfl, rfl | rfl⟩
  · exact ⟨rfl, .inl rfl⟩
  apply Prog.wp_bind (scanSlot_spec _ 0 false hinv)
  rintro r d' ⟨rfl, ⟨stage, rfl⟩ | ⟨stage, flag, rfl, hflag⟩⟩
  · exact ⟨rfl, .inl rfl⟩
  apply Prog.wp_bind (scanSlot_spec _ 1 flag hinv)
  rintro r d' ⟨rfl, ⟨stage, rfl⟩ | ⟨stage, flag', rfl, hflag'⟩⟩
  · exact ⟨rfl, .inl rfl⟩
  have clean : st = none → flag' = false := by
    rintro rfl
    rw [hflag' (h.2 1), hflag (h.2 0)]
  exact ⟨rfl, .inr (choose_scanned h clean rfl rfl)⟩

/-- A load reports what the medium holds, or that a read failed. -/
def Loaded (r : Result × Option Payload) (st : Option Saved) : Prop :=
  (r.1.code = .io ∧ r.2 = none) ∨ (Scanned r.1 st ∧ r.2 = st.map Saved.payload)

theorem load_spec {st : Option Saved} (hinv : inv d) (h : Holds d.view st) :
    (load : PageProg Page H A _).wp faulty (fun r d' => d' = d ∧ Loaded r st) inv d := by
  unfold load
  apply Prog.wp_bind (scan_spec hinv h)
  rintro r d' ⟨rfl, failed | scanned⟩
  · rw [if_pos (by rw [failed]; decide)]
    exact ⟨rfl, .inl ⟨failed, rfl⟩⟩
  cases st with
  | none =>
    rw [if_pos (by rw [scanned.1]; decide)]
    exact ⟨rfl, .inr ⟨scanned, rfl⟩⟩
  | some s =>
    have parsed : parseCommit (d'.view (base s.slot + 2)) s.slot =
        ⟨true, s.generation, crc s.payload payloadSize⟩ := by
      rw [h.2.commit, parseCommit_commit s.slot h.2.positive h.2.bounded (crc_lt _ _)]
    obtain ⟨hcode, hgen, hslot⟩ := scanned
    rw [if_neg (by rw [hcode]; decide)]
    simp only [hslot, Option.getD_some, Prog.wp_bind_iff, wp_readPage, parsed, hgen]
    refine ⟨hinv, ⟨rfl, .inl ⟨rfl, rfl⟩⟩, ?_⟩
    rw [if_neg (by simp)]
    apply Prog.wp_bind (readPayload_spec s.slot _ hinv)
    rintro r d' ⟨rfl, rfl | rfl⟩
    · exact ⟨rfl, .inl ⟨rfl, rfl⟩⟩
    · rw [h.2.payloadIn]
      exact ⟨rfl, .inr ⟨⟨rfl, rfl, rfl⟩, rfl⟩⟩

def generationOf : Option Saved → Nat
  | none => 0
  | some s => s.generation

/-- What the medium holds once a save of `input` is published. -/
def successor (st : Option Saved) (input : Payload) : Saved :=
  ⟨spare st, generationOf st + 1, input⟩

def Unpublished (st : Option Saved) (page : Nat) : Prop :=
  page = base (spare st) ∨ page = base (spare st) + 1

def SparePage (st : Option Saved) (page : Nat) : Prop :=
  Unpublished st page ∨ page = base (spare st) + 2

theorem spare_ne (s : Saved) : spare (some s) ≠ s.slot := by
  by_cases h : s.slot = 0
  · simp only [spare, h, if_true]
    decide
  · simp only [spare, h, if_false]
    exact Ne.symm h

/-- No page of a formatted layout but the spare slot's own is one of its pages. -/
theorem not_sparePage {st : Option Saved} {page : Nat} (h : page < 2 ∨
    ∃ slot k, slot ≠ spare st ∧ k < 3 ∧ page = base slot + k) : ¬ SparePage st page := by
  unfold SparePage Unpublished base
  rcases h with low | ⟨slot, k, hslot, hk, rfl⟩
  · omega
  · unfold base
    have := slot.isLt
    have := (spare st).isLt
    have : slot.val ≠ (spare st).val := fun h => hslot (Fin.ext h)
    omega

private theorem unpublished_ne_commit {st : Option Saved} (slot : Fin 2) :
    ¬ Unpublished st (base slot + 2) := by
  unfold Unpublished base
  omega

theorem Marked.congr {m m' : Medium Page} (h : Marked m) (first : m' 0 = m 0)
    (second : m' 1 = m 1) : Marked m' :=
  ⟨first.trans h.first, second.trans h.second⟩

/-- Unpublished payload pages do not change what the medium holds. -/
theorem Holds.off_unpublished {m m' : Medium Page} {st : Option Saved} (h : Holds m st)
    (same : ∀ page, ¬ Unpublished st page → m' page = m page) : Holds m' st := by
  have outside : ∀ page, ¬ SparePage st page → m' page = m page := fun page hp =>
    same page fun hu => hp (.inl hu)
  have marked : Marked m' := h.marked.congr (outside 0 (not_sparePage (.inl (by decide))))
    (outside 1 (not_sparePage (.inl (by decide))))
  cases st with
  | none =>
    refine ⟨marked, fun slot => ?_⟩
    rw [same _ (unpublished_ne_commit slot)]
    exact h.2 slot
  | some s =>
    have kept : ∀ k, k < 3 → m' (base s.slot + k) = m (base s.slot + k) := fun k hk =>
      outside _ (not_sparePage (.inr ⟨s.slot, k, (spare_ne s).symm, hk, rfl⟩))
    refine ⟨marked, h.2.positive, h.2.bounded, (kept 2 (by decide)).trans h.2.commit,
      (kept 0 (by decide)).trans h.2.first, (kept 1 (by decide)).trans h.2.second, ?_⟩
    unfold Stale
    rw [same _ (unpublished_ne_commit _)]
    exact h.2.stale

/-- Publishing the commit page of a complete payload moves to the successor. -/
theorem Holds.publish {m m' : Medium Page} {st : Option Saved} {input : Payload} (h : Holds m st)
    (room : generationOf st < maxGeneration)
    (same : ∀ page, ¬ SparePage st page → m' page = m page)
    (first : m' (base (spare st)) = payloadPage input 0)
    (second : m' (base (spare st) + 1) = payloadPage input 1)
    (committed : m' (base (spare st) + 2) =
      commit (spare st) (generationOf st + 1) (crc input payloadSize)) :
    Holds m' (some (successor st input)) := by
  have marked : Marked m' := h.marked.congr (same 0 (not_sparePage (.inl (by decide))))
    (same 1 (not_sparePage (.inl (by decide))))
  refine ⟨marked, Nat.succ_pos _, room, committed, first, second, ?_⟩
  have differ : spare (some (successor st input)) ≠ spare st := spare_ne (successor st input)
  have kept : m' (base (spare (some (successor st input))) + 2) =
      m (base (spare (some (successor st input))) + 2) :=
    same _ (not_sparePage (.inr ⟨_, 2, differ, by decide, rfl⟩))
  unfold Stale
  rw [kept]
  cases st with
  | none => exact .inl (h.2 _)
  | some s =>
    have back : spare (some (successor (some s) input)) = s.slot := by
      have := spare_ne s
      omega
    rw [back]
    exact .inr ⟨s.generation, crc s.payload payloadSize, h.2.positive, Nat.lt_succ_self _,
      crc_lt _ _, h.2.commit⟩

/-- What an interrupted save may leave, and the pages it may name. -/
def SaveLeft (st : Option Saved) (input : Payload) (m : Medium Page) (issued : List Nat) : Prop :=
  (Holds m st ∨ Holds m (some (successor st input))) ∧ ∀ page ∈ issued, SparePage st page

def SaveDone (st : Option Saved) (input : Payload) (r : Result) (m : Medium Page)
    (issued : List Nat) : Prop :=
  SaveLeft st input m issued ∧
    ((r.code = .io ∨ r.code = .generationExhausted) ∨
      r.code = .ok ∧ Holds m (some (successor st input)) ∧ r.generation = generationOf st + 1)

theorem saveDone_of_failed {st : Option Saved} {input : Payload} {r : Result}
    (h : d.Leaves (SaveLeft st input)) (failed : r.code = .io ∨ r.code = .generationExhausted) :
    d.Leaves (SaveDone st input r) :=
  h.mono fun _ _ left => ⟨left, .inl failed⟩

theorem within_saveLeft {st : Option Saved} {input : Payload} {m : Medium Page} (h : Holds m st)
    (within : d.Within (Unpublished st) m) : d.Leaves (SaveLeft st input) :=
  within.leaves fun _ same =>
    ⟨.inl (h.off_unpublished same), fun page hp => .inl (within.issued page hp)⟩

/-- The payload is durable and verified; only the commit page is missing. -/
structure Written (st : Option Saved) (input : Payload) (d : Device Page) : Prop where
  synced : d.pending = []
  holds : Holds d.durable st
  first : d.durable (base (spare st)) = payloadPage input 0
  second : d.durable (base (spare st) + 1) = payloadPage input 1
  issued : ∀ page ∈ d.issued, SparePage st page

theorem Written.view {st : Option Saved} {input : Payload} (h : Written st input d) :
    d.view = d.durable := by
  rw [Device.view, h.synced, writeAll_nil]

theorem Written.published {st : Option Saved} {input : Payload} (h : Written st input d)
    (room : generationOf st < maxGeneration) :
    Holds (Function.update d.durable (base (spare st) + 2)
      (commit (spare st) (generationOf st + 1) (crc input payloadSize)))
      (some (successor st input)) := by
  apply h.holds.publish room
  · intro page outside
    exact Function.update_of_ne (fun eq => outside (.inr eq)) _ _
  · rw [Function.update_of_ne (by omega), h.first]
  · rw [Function.update_of_ne (by omega), h.second]
  · rw [Function.update_self]

theorem publishCommit_spec {st : Option Saved} {input : Payload} (result : Result)
    (h : Written st input d) (room : generationOf st < maxGeneration) :
    (publishCommit result (spare st) (generationOf st + 1) input : PageProg Page H A _).wp faulty
      (fun r => Device.Leaves (SaveDone st input r)) (Device.Leaves (SaveLeft st input)) d := by
  let page := commit (spare st) (generationOf st + 1) (crc input payloadSize)
  let published := Function.update d.durable (base (spare st) + 2) page
  have holds : Holds published (some (successor st input)) := h.published room
  have issued : ∀ named ∈ d.issued ++ [base (spare st) + 2], SparePage st named := by
    intro named hn
    rcases List.mem_append.mp hn with old | new
    · exact h.issued named old
    · exact .inr (List.mem_singleton.mp new)
  have refused : (d.refuse (base (spare st) + 2)).Leaves (SaveLeft st input) :=
    fun m hm => ⟨.inl (by rw [(Device.survives_of_synced h.synced).mp hm]; exact h.holds), issued⟩
  have written : (d.write (base (spare st) + 2) page).Leaves (SaveLeft st input) := by
    intro m hm
    rcases (Device.survives_write_synced h.synced).mp hm with rfl | rfl
    · exact ⟨.inl h.holds, issued⟩
    · exact ⟨.inr holds, issued⟩
  have view : (d.write (base (spare st) + 2) page).view = published := by
    rw [Device.write_view, h.view]
  have flushed : (d.write (base (spare st) + 2) page).flush.Leaves (SaveLeft st input) := by
    rw [Device.leaves_flush, view]
    exact ⟨.inr holds, issued⟩
  have payload : payloadIn published (spare st) (crc input payloadSize) = .ok input :=
    holds.2.payloadIn
  have kept : published (base (spare st) + 2) = page := Function.update_self _ _ _
  simp only [publishCommit, Prog.wp_bind_iff, wp_writePage, wp_sync, wp_readPage,
    Bool.true_eq_false, if_true, if_false]
  refine ⟨⟨written, refused⟩, ⟨saveDone_of_failed refused (.inl rfl),
    saveDone_of_failed written (.inl rfl)⟩, ⟨written, flushed⟩,
    ⟨saveDone_of_failed written (.inl rfl), saveDone_of_failed flushed (.inl rfl)⟩, flushed,
    saveDone_of_failed flushed (.inl rfl), ?_⟩
  have read : (d.write (base (spare st) + 2) page).flush.view (base (spare st) + 2) = page := by
    rw [Device.flush_view, view, kept]
  rw [if_neg fun ne => ne read]
  apply Prog.wp_bind (readPayload_spec (spare st) (crc input payloadSize) flushed)
  rintro r d' ⟨rfl, rfl | rfl⟩
  · exact saveDone_of_failed flushed (.inl rfl)
  · rw [Device.flush_view, view, payload]
    simp only [ne_eq, not_true_eq_false, if_false, Prog.wp_pure, Device.leaves_flush, view]
    exact ⟨⟨.inr holds, issued⟩, .inr ⟨rfl, holds, rfl⟩⟩

theorem save_spec {st : Option Saved} {m : Medium Page} (input : Payload) (h : Holds m st) :
    (save input : PageProg Page H A _).wp faulty
      (fun r => Device.Leaves (SaveDone st input r)) (Device.Leaves (SaveLeft st input))
      (.fresh m) := by
  have start : (Device.fresh m).Leaves (SaveLeft st input) :=
    within_saveLeft h (Device.within_fresh _ m)
  unfold save
  apply Prog.wp_bind (scan_spec start h)
  rintro r d' ⟨rfl, failed | scanned⟩
  · rw [if_pos (by rw [failed]; decide)]
    exact saveDone_of_failed start (.inl failed)
  have found : (r.code = .ok ∨ r.code = .empty) ∧ r.generation = generationOf st ∧
      (if r.slot = some 0 then (1 : Fin 2) else 0) = spare st := by
    cases st with
    | none => exact ⟨.inr scanned.1, scanned.2.1, by rw [scanned.2.2]; rfl⟩
    | some s =>
      refine ⟨.inl scanned.1, scanned.2.1, ?_⟩
      rw [scanned.2.2, spare]
      simp only [Option.some.injEq]
  obtain ⟨hcode, hgen, hslot⟩ := found
  rw [if_neg (by rcases hcode with hc | hc <;> simp [hc]), hgen]
  by_cases exhausted : generationOf st = maxGeneration
  · rw [if_pos exhausted]
    exact saveDone_of_failed start (.inr rfl)
  rw [if_neg exhausted]
  have room : generationOf st < maxGeneration := by
    cases st with
    | none => decide
    | some s => exact Nat.lt_of_le_of_ne h.2.bounded exhausted
  simp only [hslot]
  let first := (Device.fresh m).write (base (spare st)) (payloadPage input 0)
  let both := first.write (base (spare st) + 1) (payloadPage input 1)
  have withinFirst : first.Within (Unpublished st) m :=
    (Device.within_fresh _ m).write _ (.inl rfl)
  have withinBoth : both.Within (Unpublished st) m := withinFirst.write _ (.inr rfl)
  have leaves : ∀ d : Device Page, d.Within (Unpublished st) m → d.Leaves (SaveLeft st input) :=
    fun d hd => within_saveLeft h hd
  have written : Written st input both.flush := by
    refine ⟨rfl, h.off_unpublished fun page hp => withinBoth.view hp, ?_, ?_,
      fun page hp => .inl (withinBoth.issued page hp)⟩
    · simp [both, first, Device.write_view]
    · simp [both, first, Device.write_view]
  have payload : payloadIn both.flush.view (spare st) (crc input payloadSize) = .ok input := by
    unfold payloadIn
    rw [written.view, written.first, written.second, assemble_payloadPage]
    simp
  simp only [Prog.wp_bind_iff, wp_writePage, wp_sync, Bool.true_eq_false, if_true, if_false]
  have refusedFirst : ((Device.fresh m).refuse (base (spare st))).Leaves (SaveLeft st input) :=
    leaves _ ((Device.within_fresh _ m).refuse (.inl rfl))
  have refusedBoth : (first.refuse (base (spare st) + 1)).Leaves (SaveLeft st input) :=
    leaves _ (withinFirst.refuse (.inr rfl))
  have one := leaves first withinFirst
  have two := leaves both withinBoth
  have synced := leaves both.flush withinBoth.flush
  refine ⟨⟨one, refusedFirst⟩, ⟨saveDone_of_failed refusedFirst (.inl rfl),
    saveDone_of_failed one (.inl rfl)⟩, ⟨two, refusedBoth⟩,
    ⟨saveDone_of_failed refusedBoth (.inl rfl), saveDone_of_failed two (.inl rfl)⟩,
    ⟨two, synced⟩, ⟨saveDone_of_failed two (.inl rfl), saveDone_of_failed synced (.inl rfl)⟩, ?_⟩
  apply Prog.wp_mono (readPayload_spec (spare st) (crc input payloadSize) synced) _ (fun _ => id)
  rintro r d' ⟨rfl, rfl | rfl⟩
  · exact saveDone_of_failed synced (.inl rfl)
  · rw [payload]
    simp only [ne_eq, not_true_eq_false, if_false]
    exact publishCommit_spec _ written room

def formatted : Medium Page := Function.update (Function.update (fun _ => erased) 0 marker) 1 marker

theorem holds_formatted : Holds formatted none := by
  refine ⟨⟨by simp [formatted], by simp [formatted]⟩, fun slot => ?_⟩
  have untouched : formatted (base slot + 2) = erased := by
    unfold formatted base
    rw [Function.update_of_ne (by omega), Function.update_of_ne (by omega)]
  rw [untouched]
  exact blank_erased

theorem writeFormatMarkers_spec :
    (writeFormatMarkers : PageProg Page H A Result).wp faulty
      (fun r => Device.Leaves fun m _ => r.code = .ok → m = formatted) (fun _ => True)
      (.fresh fun _ => erased) := by
  have view : (((Device.fresh fun _ => erased).write 0 marker).write 1 marker).view = formatted := by
    simp [formatted]
  have done : ∀ r : Result, (((Device.fresh fun _ => erased).write 0 marker).write 1
      marker).flush.Leaves fun m _ => r.code = .ok → m = formatted := by
    intro r
    rw [Device.leaves_flush]
    exact fun _ => view
  have verified : ∀ (result : Result) (copy : Nat),
      (verifyMarker result copy : PageProg Page H A _).wp faulty
        (fun _ d' => d' = (((Device.fresh fun _ => erased).write 0 marker).write 1 marker).flush)
        (fun _ => True) (((Device.fresh fun _ => erased).write 0 marker).write 1 marker).flush := by
    intro result copy
    simp only [verifyMarker, Prog.wp_bind_iff, wp_readPage]
    refine ⟨trivial, rfl, ?_⟩
    split <;> rfl
  have failed : ∀ d : Device Page, d.Leaves fun m _ => Code.io = .ok → m = formatted := by
    intro d m _ ok
    cases ok
  simp only [writeFormatMarkers, Prog.wp_bind_iff, wp_writePage, wp_sync, Bool.true_eq_false,
    if_true, if_false, true_and, Prog.wp_pure]
  refine ⟨⟨failed _, failed _⟩, ⟨failed _, failed _⟩, ⟨failed _, failed _⟩, ?_⟩
  apply Prog.wp_mono (verified _ 0) _ (fun _ => id)
  rintro (early | result) d' rfl
  · exact done early
  rw [Prog.wp_bind_iff]
  apply Prog.wp_mono (verified _ 1) _ (fun _ => id)
  rintro (early | result) d' rfl
  · exact done early
  · exact done result

theorem run_verifyMarker_calm (answer : (h : H) → A h) (result : Result) (copy : Nat)
    (h : d.view copy = marker) :
    (verifyMarker result copy : PageProg Page H A _).run machine ⟨d, calm answer⟩ =
      (some (.ok { result with markerCopies := result.markerCopies + 1 }), ⟨d, calm answer⟩) := by
  unfold verifyMarker
  rw [Prog.run_bind, run_readPage_calm]
  dsimp only
  rw [h, if_neg fun ne => ne rfl]
  rfl

/-- Formatting succeeds when nothing fails. -/
theorem run_writeFormatMarkers_calm (answer : (h : H) → A h) (d : Device Page) :
    (writeFormatMarkers : PageProg Page H A Result).run machine ⟨d, calm answer⟩ =
      (some { stage := .formatVerify, markerCopies := 2 },
        ⟨((d.write 0 marker).write 1 marker).flush, calm answer⟩) := by
  have first : ((d.write 0 marker).write 1 marker).flush.view 0 = marker := by simp
  have second : ((d.write 0 marker).write 1 marker).flush.view 1 = marker := by simp
  unfold writeFormatMarkers
  simp only [Prog.run_bind, run_writePage_calm, run_sync_calm, Bool.true_eq_false, if_false]
  rw [run_verifyMarker_calm answer _ 0 first]
  dsimp only
  rw [Prog.run_bind, run_verifyMarker_calm answer _ 1 second]
  rfl

end Mosaico.Nand.StoreModel
