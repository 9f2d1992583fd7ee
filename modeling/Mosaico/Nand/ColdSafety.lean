import Mosaico.Nand.ColdLayout
import Mosaico.Nand.StoreSafety
import Mosaico.Nand.StoreSession

/-! Crash atomicity of the cold store under a policy. What a load without read
failures returns is a function of the medium; a save writes one page, and only
when that function allows its record. -/
namespace Mosaico.Nand.ColdStore

open ByteFields PageDevice Interaction
open StoreModel (Page Marked blank validMarker)
open Store (coldIo Host HostAnswer Session)

def Loaded.after {α : Type} (found : Except Code α) (next : α → Loaded) : Loaded :=
  match found with
  | .error code => { code := code }
  | .ok a => next a

@[simp] theorem Loaded.after_error {α : Type} (code : Code) (next : α → Loaded) :
    Loaded.after (.error code) next = { code := code } := rfl

@[simp] theorem Loaded.after_ok {α : Type} (a : α) (next : α → Loaded) :
    Loaded.after (.ok a) next = next a := rfl

def pairIn (policy : Policy) (base : Nat) (m : Medium Page) : Loaded :=
  .after (recordIn policy (m base)) fun a =>
    .after (recordIn policy (m (base + 1))) fun b => select policy a b

def loadIn (policy : Policy) (base : Nat) (m : Medium Page) : Loaded :=
  .after (markerIn (m 0) false) fun marker => .after (markerIn (m 1) marker) fun marker =>
    if marker = false then { code := .notFormatted } else pairIn policy base m

section Driver

variable {base : Nat}

theorem coldIo_marker {page : Nat} (h : page < 2) : (coldIo base).read page = readPage page := by
  simp only [coldIo, h, if_true]

theorem coldIo_read (i : Fin 2) : (coldIo base).read (pageBase + i) = readPage (base + i) := by
  have low : ¬ 8 + i.val < 2 := by omega
  have inside : 8 ≤ 8 + i.val ∧ 8 + i.val < 8 + 2 := by omega
  have place : base + (8 + i.val) - 8 = base + i.val := by omega
  simp only [coldIo, pageBase, low, if_false, inside, and_self, if_true, place]

theorem coldIo_write (i : Fin 2) (data : Page) :
    (coldIo base).write (pageBase + i) data = writePage (base + i) data := by
  have inside : 8 ≤ 8 + i.val ∧ 8 + i.val < 8 + 2 := by omega
  have place : base + (8 + i.val) - 8 = base + i.val := by omega
  simp only [coldIo, pageBase, inside, and_self, if_true, place]

theorem coldIo_sync : (coldIo base).sync = sync := rfl

end Driver

variable {inv : Device Page → Prop} {d : Device Page} {policy : Policy} {base : Nat}

theorem loadMarker_spec {copy : Nat} (hcopy : copy < 2) (marker : Bool) (hinv : inv d) :
    (loadMarker (coldIo base) copy marker).wp faulty
      (fun r d' => d' = d ∧ (r = .error .io ∨ r = markerIn (d.view copy) marker)) inv d := by
  simp [loadMarker, coldIo_marker hcopy, Prog.wp_bind_iff, wp_readPage, hinv]

theorem loadRecord_spec (i : Fin 2) (hinv : inv d) :
    (loadRecord (coldIo base) policy i).wp faulty
      (fun r d' => d' = d ∧ (r = .error .io ∨ r = recordIn policy (d.view (base + i)))) inv d := by
  simp [loadRecord, coldIo_read, Prog.wp_bind_iff, wp_readPage, hinv]

theorem load_spec (hinv : inv d) :
    (load (coldIo base) policy).wp faulty
      (fun r d' => d' = d ∧ (r = { code := .io } ∨ r = loadIn policy base d.view)) inv d := by
  unfold load
  apply Prog.wp_bind (loadMarker_spec (by decide) false hinv)
  rintro r d' ⟨rfl, rfl | rfl⟩
  · exact ⟨rfl, .inl rfl⟩
  rw [loadIn]
  cases markerIn (d'.view 0) false with
  | error code => exact ⟨rfl, .inr rfl⟩
  | ok marker =>
    apply Prog.wp_bind (loadMarker_spec (by decide) marker hinv)
    rintro r d' ⟨rfl, rfl | rfl⟩
    · exact ⟨rfl, .inl rfl⟩
    rw [Loaded.after_ok]
    cases markerIn (d'.view 1) marker with
    | error code => exact ⟨rfl, .inr rfl⟩
    | ok marker =>
      rw [Loaded.after_ok]
      dsimp only
      split
      · exact ⟨rfl, .inr rfl⟩
      rw [pairIn]
      apply Prog.wp_bind (loadRecord_spec 0 hinv)
      rintro r d' ⟨rfl, rfl | rfl⟩
      · exact ⟨rfl, .inl rfl⟩
      rw [show base + ((0 : Fin 2) : Nat) = base from rfl]
      cases recordIn policy (d'.view base) with
      | error code => exact ⟨rfl, .inr rfl⟩
      | ok a =>
        apply Prog.wp_bind (loadRecord_spec 1 hinv)
        rintro r d' ⟨rfl, rfl | rfl⟩
        · exact ⟨rfl, .inl rfl⟩
        rw [show base + ((1 : Fin 2) : Nat) = base + 1 from rfl]
        rw [Loaded.after_ok]
        cases recordIn policy (d'.view (base + 1)) with
        | error code => exact ⟨rfl, .inr rfl⟩
        | ok b => exact ⟨rfl, .inr rfl⟩

/-- The save may go ahead, to this page of the pair. -/
structure Admitted (policy : Policy) (base : Nat) (m : Medium Page) (next : Record)
    (target : Fin 2) : Prop where
  shape : shape next = true
  valid : policy.valid next = true
  chosen : chooseTarget policy next (loadIn policy base m) = .ok target

/-- What an interrupted save leaves: nothing, or one admitted page. -/
def SaveLeft (policy : Policy) (base : Nat) (m : Medium Page) (next : Record) (m' : Medium Page)
    (issued : List Nat) : Prop :=
  Store.Unchanged m m' issued ∨ ∃ target, Admitted policy base m next target ∧
    (m' = m ∨ m' = Function.update m (base + target) (image next)) ∧ issued = [base + target]

def SaveDone (policy : Policy) (base : Nat) (m : Medium Page) (next : Record) (code : Code)
    (m' : Medium Page) (issued : List Nat) : Prop :=
  SaveLeft policy base m next m' issued ∧
    (code = .io ∨ code = .rejected ∨ code = (loadIn policy base m).code ∧ code ≠ .ready ∧ code ≠ .empty ∨
      code = .ready ∧ ∃ target, Admitted policy base m next target ∧
        m' = Function.update m (base + target) (image next))

def Loaded.Selects (loaded : Loaded) : Prop := loaded.code = .ready → loaded.selected ≠ none

private theorem selectOnly_selects (policy : Policy) (slot : Fin 2) (r : Record) :
    (selectOnly policy slot r).Selects := by
  unfold Loaded.Selects selectOnly
  split
  · intro h
    cases h
  · exact fun _ => Option.some_ne_none _

private theorem selectNewer_selects (policy : Policy) (newer : Fin 2) (old next : Record) :
    (selectNewer policy newer old next).Selects := by
  unfold Loaded.Selects selectNewer
  split
  · intro h
    cases h
  · exact fun _ => Option.some_ne_none _

theorem select_selects (policy : Policy) (a b : Option Record) : (select policy a b).Selects := by
  cases a with
  | none =>
    cases b with
    | none =>
      intro h
      cases h
    | some r => exact selectOnly_selects policy 1 r
  | some a =>
    cases b with
    | none => exact selectOnly_selects policy 0 a
    | some b =>
      rw [select]
      split
      · intro h
        cases h
      split
      · exact selectNewer_selects policy 0 b a
      · exact selectNewer_selects policy 1 a b

theorem markerIn_error {page : Page} {marker : Bool} {code : Code}
    (h : markerIn page marker = .error code) : code = .corrupt := by
  unfold markerIn at h
  split at h
  · cases h
  split at h
  · cases h
    rfl
  · cases h

theorem recordIn_error {page : Page} {code : Code} (h : recordIn policy page = .error code) :
    code = .corrupt := by
  unfold recordIn at h
  split at h
  · cases h
  split at h
  · cases h
    rfl
  split at h
  · cases h
  · cases h
    rfl

theorem Loaded.after_selects {α : Type} {found : Except Code α} {next : α → Loaded}
    (error : ∀ code, found = .error code → code = .corrupt) (ok : ∀ a, (next a).Selects) :
    (Loaded.after found next).Selects := by
  cases found with
  | error code =>
    intro h
    rw [Loaded.after_error, error code rfl] at h
    cases h
  | ok a => exact ok a

private theorem loadIn_selects (policy : Policy) (base : Nat) (m : Medium Page) :
    (loadIn policy base m).Selects := by
  unfold loadIn
  refine Loaded.after_selects (fun _ => markerIn_error) fun marker => ?_
  refine Loaded.after_selects (fun _ => markerIn_error) fun marker => ?_
  split
  · intro h
    cases h
  · unfold pairIn
    refine Loaded.after_selects (fun _ => recordIn_error) fun a => ?_
    exact Loaded.after_selects (fun _ => recordIn_error) fun b => select_selects policy a b

theorem chooseTarget_error {next : Record} {loaded : Loaded} {code : Code}
    (selects : loaded.Selects) (h : chooseTarget policy next loaded = .error code) :
    code = .rejected ∨ code = loaded.code ∧ code ≠ .ready ∧ code ≠ .empty := by
  unfold chooseTarget at h
  split at h
  · split at h
    · cases h
      exact .inl rfl
    · cases h
  · split at h
    · cases h
      exact .inl rfl
    · cases h
  · rename_i hempty hready
    cases h
    refine .inr ⟨rfl, fun ready => ?_, hempty⟩
    cases hs : loaded.selected with
    | none => exact selects ready hs
    | some p => exact hready p.1 p.2 ready hs

theorem save_spec (next : Record) (m : Medium Page) :
    (save (coldIo base) policy next true).wp faulty
      (fun code => Device.Leaves (SaveDone policy base m next code))
      (Device.Leaves (SaveLeft policy base m next)) (.fresh m) := by
  have start : (Device.fresh m).Leaves (SaveLeft policy base m next) :=
    Device.leaves_fresh.mpr (.inl ⟨rfl, rfl⟩)
  have stopped : ∀ {d : Device Page} {code : Code}, d.Leaves (SaveLeft policy base m next) →
      (code = .io ∨ code = .rejected ∨
        code = (loadIn policy base m).code ∧ code ≠ .ready ∧ code ≠ .empty) →
      d.Leaves (SaveDone policy base m next code) := by
    intro d code hd hcode
    refine hd.mono fun m' issued left => ⟨left, ?_⟩
    rcases hcode with io | rejected | same
    · exact .inl io
    · exact .inr (.inl rejected)
    · exact .inr (.inr (.inl same))
  unfold save
  split
  · exact stopped start (.inr (.inl rfl))
  rename_i checked
  have shaped : shape next = true := by
    cases h : shape next with
    | true => rfl
    | false => simp [h] at checked
  have valid : policy.valid next = true := by
    cases h : policy.valid next with
    | true => rfl
    | false => simp [h] at checked
  apply Prog.wp_bind (load_spec start)
  rintro loaded d' ⟨rfl, rfl | rfl⟩
  · exact stopped start (.inl rfl)
  rw [Device.fresh_view]
  cases hchoice : chooseTarget policy next (loadIn policy base m) with
  | error code => exact stopped start (.inr (chooseTarget_error (loadIn_selects policy base m) hchoice))
  | ok target =>
    have admitted : Admitted policy base m next target := ⟨shaped, valid, hchoice⟩
    have issued : ∀ m', (m' = m ∨ m' = Function.update m (base + target) (image next)) →
        SaveLeft policy base m next m' [base + target] := fun m' hm => .inr ⟨target, admitted, hm, rfl⟩
    have refused : ((Device.fresh m).refuse (base + target)).Leaves (SaveLeft policy base m next) :=
      fun m' hm => issued m' (.inl (Device.survives_fresh.mp hm))
    have written : ((Device.fresh m).write (base + target) (image next)).Leaves
        (SaveLeft policy base m next) :=
      fun m' hm => issued m' ((Device.survives_write_synced rfl).mp hm)
    have flushed : ((Device.fresh m).write (base + target) (image next)).flush.Leaves
        (SaveLeft policy base m next) := by
      rw [Device.leaves_flush, Device.write_view]
      exact issued _ (.inr rfl)
    have read : ((Device.fresh m).write (base + target) (image next)).flush.view (base + target) =
        image next := by
      rw [Device.flush_view, Device.write_view, Function.update_self]
    simp only [encode_eq shaped, coldIo_write, coldIo_read, coldIo_sync, Prog.wp_bind_iff,
      wp_writePage, wp_sync, wp_readPage, Bool.true_eq_false, if_true, if_false]
    refine ⟨⟨written, refused⟩, ⟨stopped refused (.inl rfl), stopped written (.inl rfl)⟩,
      ⟨written, flushed⟩, ⟨stopped written (.inl rfl), stopped flushed (.inl rfl)⟩, flushed,
      stopped flushed (.inl rfl), ?_⟩
    rw [read, if_neg fun ne => ne rfl, decode_image shaped]
    simp only [valid, if_true, Prog.wp_pure, Device.leaves_flush, Device.write_view]
    exact ⟨issued _ (.inr rfl), .inr (.inr (.inr ⟨rfl, target, admitted, rfl⟩))⟩

/-- A load that got past a page has read it. -/
theorem loadMarker_unreadable {lost copy : Nat} (hcopy : copy < 2) (marker : Bool) :
    (loadMarker (coldIo base) copy marker).wp (unreadable lost)
      (fun r d' => d' = d ∧ ((∃ code, r = .error code ∧ code ≠ .empty ∧ code ≠ .ready) ∨
        copy ≠ lost ∧ ∃ seen, r = .ok seen)) (fun d' => d' = d) d := by
  unfold loadMarker
  rw [coldIo_marker hcopy, Prog.wp_bind_iff]
  refine wp_readPage_unreadable rfl ⟨rfl, .inl ⟨.io, rfl, by decide, by decide⟩⟩ fun differ => ?_
  cases h : markerIn (d.view copy) marker with
  | error code =>
    rw [markerIn_error h] at h
    exact ⟨rfl, .inl ⟨.corrupt, h, by decide, by decide⟩⟩
  | ok seen => exact ⟨rfl, .inr ⟨differ, seen, h⟩⟩

private theorem loadRecord_unreadable {lost : Nat} (i : Fin 2) :
    (loadRecord (coldIo base) policy i).wp (unreadable lost)
      (fun r d' => d' = d ∧ ((∃ code, r = .error code ∧ code ≠ .empty ∧ code ≠ .ready) ∨
        base + i.val ≠ lost ∧ ∃ seen, r = .ok seen)) (fun d' => d' = d) d := by
  unfold loadRecord
  rw [coldIo_read, Prog.wp_bind_iff]
  refine wp_readPage_unreadable rfl ⟨rfl, .inl ⟨.io, rfl, by decide, by decide⟩⟩ fun differ => ?_
  cases h : recordIn policy (d.view (base + i)) with
  | error code =>
    rw [recordIn_error h] at h
    exact ⟨rfl, .inl ⟨.corrupt, h, by decide, by decide⟩⟩
  | ok seen => exact ⟨rfl, .inr ⟨differ, seen, h⟩⟩

/-- The pages a save has to read before it may write. -/
def Needed (base page : Nat) : Prop := page < 2 ∨ page = base ∨ page = base + 1

theorem load_unreadable {lost : Nat} (needed : Needed base lost) :
    (load (coldIo base) policy).wp (unreadable lost)
      (fun r d' => d' = d ∧ r.code ≠ .empty ∧ r.code ≠ .ready) (fun d' => d' = d) d := by
  unfold load
  apply Prog.wp_bind (loadMarker_unreadable (by decide) false)
  rintro r d' ⟨rfl, ⟨code, rfl, notEmpty, notReady⟩ | ⟨not0, marker, rfl⟩⟩
  · exact ⟨rfl, notEmpty, notReady⟩
  apply Prog.wp_bind (loadMarker_unreadable (by decide) marker)
  rintro r d' ⟨rfl, ⟨code, rfl, notEmpty, notReady⟩ | ⟨not1, marker, rfl⟩⟩
  · exact ⟨rfl, notEmpty, notReady⟩
  cases marker with
  | false => exact ⟨rfl, by simp, by simp⟩
  | true =>
    apply Prog.wp_bind (loadRecord_unreadable 0)
    rintro r d' ⟨rfl, ⟨code, rfl, notEmpty, notReady⟩ | ⟨notFirst, a, rfl⟩⟩
    · exact ⟨rfl, notEmpty, notReady⟩
    apply Prog.wp_bind (loadRecord_unreadable 1)
    rintro r d' ⟨rfl, ⟨code, rfl, notEmpty, notReady⟩ | ⟨notSecond, b, rfl⟩⟩
    · exact ⟨rfl, notEmpty, notReady⟩
    have first : base ≠ lost := notFirst
    have second : base + 1 ≠ lost := notSecond
    rcases needed with low | here | next
    · omega
    · omega
    · omega

/-- A save that cannot read a page it needs calls no write. -/
theorem save_unreadable {lost : Nat} (needed : Needed base lost) (next : Record) :
    (save (coldIo base) policy next true).wp (unreadable lost)
      (fun code d' => d' = d ∧ code ≠ .ready) (fun d' => d' = d) d := by
  unfold save
  split
  · exact ⟨rfl, by decide⟩
  apply Prog.wp_bind (load_unreadable needed)
  rintro loaded d' ⟨rfl, notEmpty, notReady⟩
  have stopped : ∃ code, chooseTarget policy next loaded = .error code ∧ code ≠ .ready := by
    unfold chooseTarget
    split
    · rename_i empty
      exact (notEmpty empty).elim
    · rename_i ready _
      exact (notReady ready).elim
    · exact ⟨_, rfl, notReady⟩
  obtain ⟨code, hcode, hne⟩ := stopped
  rw [hcode]
  exact ⟨rfl, hne⟩

/-- The calls a cold load makes. -/
theorem uses_load {allowed : Call Page Host → Prop} (markers : ∀ page, page < 2 → allowed (.read page))
    (pair : ∀ i : Fin 2, allowed (.read (base + i))) :
    (load (coldIo base) policy).Uses allowed := by
  have marker : ∀ copy, copy < 2 → ∀ seen,
      (loadMarker (coldIo base) copy seen).Uses allowed := by
    intro copy hcopy seen
    unfold loadMarker
    rw [coldIo_marker hcopy]
    refine ⟨markers copy hcopy, fun page => ?_⟩
    cases page <;> trivial
  have record : ∀ i, (loadRecord (coldIo base) policy i).Uses allowed := by
    intro i
    unfold loadRecord
    rw [coldIo_read]
    refine ⟨pair i, fun page => ?_⟩
    cases page <;> trivial
  unfold load
  apply (marker 0 (by decide) false).bind
  rintro (code | seen)
  · trivial
  apply (marker 1 (by decide) seen).bind
  rintro (code | seen)
  · trivial
  cases seen with
  | false => trivial
  | true =>
    apply (record 0).bind
    rintro (code | a)
    · trivial
    apply (record 1).bind
    rintro (code | b)
    · trivial
    · trivial

end Mosaico.Nand.ColdStore
