import Mathlib.Data.List.Basic
import Mathlib.Logic.Function.Basic
import Mosaico.Library.Interaction

/-! A device of whole pages behind a write-back cache. A call may fail before or
after taking effect, and power may be lost around any call; what is then left
is the durable medium with an arbitrary subset of the unsynced writes. Calls of
type `H` reach other hardware and touch no page. -/
namespace PageDevice

open Interaction

abbrev Medium (P : Type) := Nat → P

variable {P H : Type} {A : H → Type} {α : Type}

def writeAll (writes : List (Nat × P)) (m : Medium P) : Medium P :=
  writes.foldl (fun m w => Function.update m w.1 w.2) m

@[simp] theorem writeAll_nil (m : Medium P) : writeAll [] m = m := rfl

@[simp] theorem writeAll_cons (w : Nat × P) (rest : List (Nat × P)) (m : Medium P) :
    writeAll (w :: rest) m = writeAll rest (Function.update m w.1 w.2) := rfl

theorem writeAll_append (first rest : List (Nat × P)) (m : Medium P) :
    writeAll (first ++ rest) m = writeAll rest (writeAll first m) := by
  simp [writeAll, List.foldl_append]

theorem writeAll_other {writes : List (Nat × P)} {m : Medium P} {page : Nat}
    (h : ∀ w ∈ writes, w.1 ≠ page) : writeAll writes m page = m page := by
  induction writes generalizing m with
  | nil => rfl
  | cons w rest ih =>
    rw [writeAll_cons, ih fun v hv => h v (List.mem_cons_of_mem _ hv)]
    exact Function.update_of_ne (Ne.symm (h w List.mem_cons_self)) _ _

/-- A page holds what it held or what one of the writes put there. -/
theorem writeAll_cases (writes : List (Nat × P)) (m : Medium P) (page : Nat) :
    writeAll writes m page = m page ∨ ∃ w ∈ writes, w.1 = page ∧ writeAll writes m page = w.2 := by
  induction writes generalizing m with
  | nil => exact .inl rfl
  | cons w rest ih =>
    rcases ih (Function.update m w.1 w.2) with kept | ⟨v, hv, hpage, hval⟩
    · by_cases hw : w.1 = page
      · exact .inr ⟨w, List.mem_cons_self, hw, by rw [writeAll_cons, kept, ← hw]; simp⟩
      · exact .inl (by rw [writeAll_cons, kept, Function.update_of_ne (Ne.symm hw)])
    · exact .inr ⟨v, List.mem_cons_of_mem _ hv, hpage, by rw [writeAll_cons, hval]⟩

/-- `pending` are the writes since the last sync; `issued` records every page a
write call has named, whether or not it took effect. -/
structure Device (P : Type) where
  durable : Medium P
  pending : List (Nat × P) := []
  issued : List Nat := []

namespace Device

def fresh (m : Medium P) : Device P := { durable := m }

def view (d : Device P) : Medium P := writeAll d.pending d.durable

def write (d : Device P) (page : Nat) (data : P) : Device P :=
  { d with pending := d.pending ++ [(page, data)], issued := d.issued ++ [page] }

def refuse (d : Device P) (page : Nat) : Device P := { d with issued := d.issued ++ [page] }

def flush (d : Device P) : Device P := { d with durable := d.view, pending := [] }

def restart (d : Device P) (m : Medium P) : Device P := { d with durable := m, pending := [] }

@[simp] theorem fresh_durable (m : Medium P) : (fresh m).durable = m := rfl
@[simp] theorem fresh_pending (m : Medium P) : (fresh m).pending = [] := rfl
@[simp] theorem fresh_issued (m : Medium P) : (fresh m).issued = [] := rfl
@[simp] theorem fresh_view (m : Medium P) : (fresh m).view = m := rfl
@[simp] theorem write_durable (d : Device P) (page : Nat) (data : P) :
    (d.write page data).durable = d.durable := rfl
@[simp] theorem write_pending (d : Device P) (page : Nat) (data : P) :
    (d.write page data).pending = d.pending ++ [(page, data)] := rfl
@[simp] theorem write_issued (d : Device P) (page : Nat) (data : P) :
    (d.write page data).issued = d.issued ++ [page] := rfl
@[simp] theorem write_view (d : Device P) (page : Nat) (data : P) :
    (d.write page data).view = Function.update d.view page data := by
  simp [view, writeAll_append]
@[simp] theorem refuse_durable (d : Device P) (page : Nat) :
    (d.refuse page).durable = d.durable := rfl
@[simp] theorem refuse_pending (d : Device P) (page : Nat) :
    (d.refuse page).pending = d.pending := rfl
@[simp] theorem refuse_issued (d : Device P) (page : Nat) :
    (d.refuse page).issued = d.issued ++ [page] := rfl
@[simp] theorem refuse_view (d : Device P) (page : Nat) : (d.refuse page).view = d.view := rfl
@[simp] theorem flush_durable (d : Device P) : d.flush.durable = d.view := rfl
@[simp] theorem flush_pending (d : Device P) : d.flush.pending = [] := rfl
@[simp] theorem flush_issued (d : Device P) : d.flush.issued = d.issued := rfl
@[simp] theorem flush_view (d : Device P) : d.flush.view = d.view := rfl
@[simp] theorem restart_durable (d : Device P) (m : Medium P) : (d.restart m).durable = m := rfl
@[simp] theorem restart_pending (d : Device P) (m : Medium P) : (d.restart m).pending = [] := rfl
@[simp] theorem restart_issued (d : Device P) (m : Medium P) :
    (d.restart m).issued = d.issued := rfl
@[simp] theorem restart_view (d : Device P) (m : Medium P) : (d.restart m).view = m := rfl

/-- The cached view is discarded and any subset of the unsynced writes is kept. -/
def Survives (d : Device P) (m : Medium P) : Prop :=
  ∃ kept : List (Nat × P), kept.Sublist d.pending ∧ m = writeAll kept d.durable

variable {d : Device P} {m : Medium P}

theorem survives_of_synced (h : d.pending = []) : d.Survives m ↔ m = d.durable := by
  constructor
  · rintro ⟨kept, hsub, rfl⟩
    rw [h, List.sublist_nil] at hsub
    rw [hsub, writeAll_nil]
  · rintro rfl
    exact ⟨[], List.nil_sublist _, rfl⟩

@[simp] theorem survives_fresh {m' : Medium P} : (fresh m).Survives m' ↔ m' = m :=
  survives_of_synced rfl

@[simp] theorem survives_flush {m' : Medium P} : d.flush.Survives m' ↔ m' = d.view :=
  survives_of_synced rfl

@[simp] theorem survives_restart {m' : Medium P} : (d.restart m).Survives m' ↔ m' = m :=
  survives_of_synced rfl

@[simp] theorem survives_refuse {page : Nat} : (d.refuse page).Survives m ↔ d.Survives m := Iff.rfl

theorem Survives.other (h : d.Survives m) {page : Nat}
    (untouched : ∀ w ∈ d.pending, w.1 ≠ page) : m page = d.durable page := by
  obtain ⟨kept, hsub, rfl⟩ := h
  exact writeAll_other fun w hw => untouched w (hsub.subset hw)

/-- Each surviving page is whole: the durable one or one that was written. -/
theorem Survives.cases (h : d.Survives m) (page : Nat) :
    m page = d.durable page ∨ ∃ w ∈ d.pending, w.1 = page ∧ m page = w.2 := by
  obtain ⟨kept, hsub, rfl⟩ := h
  rcases writeAll_cases kept d.durable page with same | ⟨w, hw, hpage, hval⟩
  · exact .inl same
  · exact .inr ⟨w, hsub.subset hw, hpage, hval⟩

/-- One unsynced write is either lost or kept. -/
theorem survives_write_synced {page : Nat} {data : P} (h : d.pending = []) :
    (d.write page data).Survives m ↔ m = d.durable ∨ m = Function.update d.durable page data := by
  constructor
  · rintro ⟨kept, hsub, rfl⟩
    rw [write_pending, h, List.nil_append, List.sublist_cons_iff] at hsub
    rcases hsub with lost | ⟨rest, rfl, hrest⟩
    · rw [List.sublist_nil] at lost
      exact .inl (by rw [lost, writeAll_nil, write_durable])
    · rw [List.sublist_nil] at hrest
      exact .inr (by rw [hrest, writeAll_cons, writeAll_nil, write_durable])
  · rintro (rfl | rfl)
    · exact ⟨[], List.nil_sublist _, rfl⟩
    · exact ⟨[(page, data)], by simp [h], rfl⟩

/-- The device differs from `m` inside `pages` only, and only those were named. -/
structure Within (pages : Nat → Prop) (m : Medium P) (d : Device P) : Prop where
  durable : ∀ page, ¬ pages page → d.durable page = m page
  pending : ∀ w ∈ d.pending, pages w.1
  issued : ∀ page ∈ d.issued, pages page

section Within

variable {pages wider : Nat → Prop} {base : Medium P}

theorem within_fresh (pages : Nat → Prop) (m : Medium P) : Within pages m (fresh m) where
  durable := fun _ _ => rfl
  pending := by simp
  issued := by simp

theorem Within.mono (h : Within pages base d) (implies : ∀ page, pages page → wider page) :
    Within wider base d where
  durable := fun page hp => h.durable page fun hq => hp (implies page hq)
  pending := fun w hw => implies _ (h.pending w hw)
  issued := fun page hp => implies _ (h.issued page hp)

theorem Within.pending_ne (h : Within pages base d) {page : Nat} (outside : ¬ pages page) :
    ∀ w ∈ d.pending, w.1 ≠ page := by
  rintro w hw rfl
  exact outside (h.pending w hw)

theorem Within.survives (h : Within pages base d) (left : d.Survives m) {page : Nat}
    (outside : ¬ pages page) : m page = base page := by
  rw [left.other (h.pending_ne outside), h.durable page outside]

theorem Within.view (h : Within pages base d) {page : Nat} (outside : ¬ pages page) :
    d.view page = base page := by
  unfold Device.view
  rw [writeAll_other (h.pending_ne outside), h.durable page outside]

theorem Within.write (h : Within pages base d) {page : Nat} (data : P) (inside : pages page) :
    Within pages base (d.write page data) where
  durable := h.durable
  pending := by
    intro w hw
    rcases List.mem_append.mp hw with old | new
    · exact h.pending w old
    · rw [List.mem_singleton.mp new]; exact inside
  issued := by
    intro named hnamed
    rcases List.mem_append.mp hnamed with old | new
    · exact h.issued named old
    · rw [List.mem_singleton.mp new]; exact inside

theorem Within.refuse (h : Within pages base d) {page : Nat} (inside : pages page) :
    Within pages base (d.refuse page) where
  durable := h.durable
  pending := h.pending
  issued := by
    intro named hnamed
    rcases List.mem_append.mp hnamed with old | new
    · exact h.issued named old
    · rw [List.mem_singleton.mp new]; exact inside

theorem Within.flush (h : Within pages base d) : Within pages base d.flush where
  durable := fun _ outside => h.view outside
  pending := by simp
  issued := h.issued

theorem Within.restart (h : Within pages base d) (left : d.Survives m) :
    Within pages base (d.restart m) where
  durable := fun _ outside => h.survives left outside
  pending := by simp
  issued := h.issued

end Within

/-- What holds of the medium left behind and of the pages named, whichever of
the unsynced writes survive. -/
def Leaves (left : Medium P → List Nat → Prop) (d : Device P) : Prop :=
  ∀ m, d.Survives m → left m d.issued

section Leaves

variable {left wider : Medium P → List Nat → Prop}

theorem leaves_of_synced (h : d.pending = []) : d.Leaves left ↔ left d.durable d.issued := by
  unfold Leaves
  constructor
  · exact fun all => all _ ((survives_of_synced h).mpr rfl)
  · intro hd m hm
    rw [(survives_of_synced h).mp hm]
    exact hd

@[simp] theorem leaves_fresh : (fresh m).Leaves left ↔ left m [] := leaves_of_synced rfl

@[simp] theorem leaves_flush : d.flush.Leaves left ↔ left d.view d.issued := leaves_of_synced rfl

theorem Leaves.mono (h : d.Leaves left) (implies : ∀ m issued, left m issued → wider m issued) :
    d.Leaves wider :=
  fun m hm => implies m _ (h m hm)

theorem Leaves.restart (h : d.Leaves left) (survived : d.Survives m) :
    (d.restart m).Leaves left :=
  (leaves_of_synced rfl).mpr (h m survived)

theorem Leaves.view (h : d.Leaves left) : left d.view d.issued :=
  h _ ⟨d.pending, List.Sublist.refl _, rfl⟩

theorem Leaves.flush (h : d.Leaves left) : d.flush.Leaves left :=
  leaves_flush.mpr h.view

theorem Within.leaves {pages : Nat → Prop} {base : Medium P} (h : Within pages base d)
    (close : ∀ m, (∀ page, ¬ pages page → m page = base page) → left m d.issued) :
    d.Leaves left :=
  fun m hm => close m fun _ outside => h.survives hm outside

end Leaves
end Device

/-- The calls of a page program. `deinit` closes the session; the next view is
the durable medium again. -/
inductive Call (P H : Type) where
  | read (page : Nat)
  | write (page : Nat) (data : P)
  | sync
  | deinit
  | host (h : H)

abbrev Answer (A : H → Type) : Call P H → Type
  | .read _ => Option P
  | .write _ _ => Bool
  | .sync => Bool
  | .deinit => Bool
  | .host h => A h

abbrev PageProg (P H : Type) (A : H → Type) : Type → Type := Prog (Call P H) (Answer A)

def readPage (page : Nat) : PageProg P H A (Option P) := .perform (Call.read page)
def writePage (page : Nat) (data : P) : PageProg P H A Bool := .perform (Call.write page data)
def sync : PageProg P H A Bool := .perform Call.sync
def deinit : PageProg P H A Bool := .perform Call.deinit
def host (h : H) : PageProg P H A (A h) := .perform (Call.host h)

def faulty : Behaviour (Call P H) (Answer A) (Device P)
  | .read page, d, r, d' => d' = d ∧ (r = none ∨ r = some (d.view page))
  | .write page data, d, r, d' => d' = d.write page data ∨ (r = false ∧ d' = d.refuse page)
  | .sync, d, r, d' => d' = d.flush ∨ (r = false ∧ d' = d)
  | .deinit, d, r, d' => (∃ m, d.Survives m ∧ d' = d.restart m) ∨ (r = false ∧ d' = d)
  | .host _, d, _, d' => d' = d

def unreadable (page : Nat) : Behaviour (Call P H) (Answer A) (Device P)
  | .read q, d, r, d' => faulty (.read q) d r d' ∧ (q = page → r = none)
  | c, d, r, d' => faulty c d r d'

section Rules

variable {inv : Device P → Prop} {d : Device P}

theorem wp_readPage {page : Nat} {post : Option P → Device P → Prop} :
    (readPage page : PageProg P H A _).wp faulty post inv d ↔
      inv d ∧ post none d ∧ post (some (d.view page)) d := by
  constructor
  · intro h
    exact ⟨(h none d ⟨rfl, .inl rfl⟩).1, (h none d ⟨rfl, .inl rfl⟩).2,
      (h (some (d.view page)) d ⟨rfl, .inr rfl⟩).2⟩
  · rintro ⟨hinv, hnone, hsome⟩ r d' ⟨rfl, rfl | rfl⟩
    · exact ⟨hinv, hnone⟩
    · exact ⟨hinv, hsome⟩

theorem wp_readPage_unreadable {lost page : Nat} {post : Option P → Device P → Prop} (hinv : inv d)
    (none : post none d) (some : page ≠ lost → post (some (d.view page)) d) :
    (readPage page : PageProg P H A _).wp (unreadable lost) post inv d := by
  rintro r d' ⟨⟨rfl, rfl | rfl⟩, hlost⟩
  · exact ⟨hinv, none⟩
  · exact ⟨hinv, some fun h => by cases hlost h⟩

theorem wp_writePage {page : Nat} {data : P} {post : Bool → Device P → Prop} :
    (writePage page data : PageProg P H A _).wp faulty post inv d ↔
      (inv (d.write page data) ∧ inv (d.refuse page)) ∧
        (post false (d.refuse page) ∧ post false (d.write page data)) ∧
          post true (d.write page data) := by
  constructor
  · intro h
    exact ⟨⟨(h true _ (.inl rfl)).1, (h false _ (.inr ⟨rfl, rfl⟩)).1⟩,
      ⟨(h false _ (.inr ⟨rfl, rfl⟩)).2, (h false _ (.inl rfl)).2⟩, (h true _ (.inl rfl)).2⟩
  · rintro ⟨⟨hinv, hinv'⟩, ⟨hbefore, hafter⟩, hdone⟩ r d' (rfl | ⟨rfl, rfl⟩)
    · cases r with
      | false => exact ⟨hinv, hafter⟩
      | true => exact ⟨hinv, hdone⟩
    · exact ⟨hinv', hbefore⟩

theorem wp_sync {post : Bool → Device P → Prop} :
    (sync : PageProg P H A _).wp faulty post inv d ↔
      (inv d ∧ inv d.flush) ∧ (post false d ∧ post false d.flush) ∧ post true d.flush := by
  constructor
  · intro h
    exact ⟨⟨(h false _ (.inr ⟨rfl, rfl⟩)).1, (h true _ (.inl rfl)).1⟩,
      ⟨(h false _ (.inr ⟨rfl, rfl⟩)).2, (h false _ (.inl rfl)).2⟩, (h true _ (.inl rfl)).2⟩
  · rintro ⟨⟨hinv, hinv'⟩, ⟨hbefore, hafter⟩, hdone⟩ r d' (rfl | ⟨rfl, rfl⟩)
    · cases r with
      | false => exact ⟨hinv', hafter⟩
      | true => exact ⟨hinv', hdone⟩
    · exact ⟨hinv, hbefore⟩

theorem wp_deinit {post : Bool → Device P → Prop} :
    (deinit : PageProg P H A _).wp faulty post inv d ↔
      (inv d ∧ post false d) ∧
        ∀ m, d.Survives m →
          inv (d.restart m) ∧ post false (d.restart m) ∧ post true (d.restart m) := by
  constructor
  · intro h
    refine ⟨h false _ (.inr ⟨rfl, rfl⟩), fun m hm => ?_⟩
    exact ⟨(h true _ (.inl ⟨m, hm, rfl⟩)).1, (h false _ (.inl ⟨m, hm, rfl⟩)).2,
      (h true _ (.inl ⟨m, hm, rfl⟩)).2⟩
  · rintro ⟨hsame, hclosed⟩ r d' (⟨m, hm, rfl⟩ | ⟨rfl, rfl⟩)
    · cases r with
      | false => exact ⟨(hclosed m hm).1, (hclosed m hm).2.1⟩
      | true => exact ⟨(hclosed m hm).1, (hclosed m hm).2.2⟩
    · exact hsame

theorem wp_host {h : H} {post : A h → Device P → Prop} (hinv : inv d) :
    (host h : PageProg P H A _).wp faulty post inv d ↔ ∀ r, post r d := by
  constructor
  · exact fun all r => (all r d rfl).2
  · rintro all r d' rfl
    exact ⟨hinv, all r⟩

section Uses

variable {β : Type} {allowed : Call P H → Prop}

theorem uses_readPage_bind {page : Nat} {next : Option P → PageProg P H A β}
    (h : allowed (.read page)) (rest : ∀ r, (next r).Uses allowed) :
    (readPage page >>= next).Uses allowed := ⟨h, rest⟩

theorem uses_deinit_bind {next : Bool → PageProg P H A β} (h : allowed .deinit)
    (rest : ∀ r, (next r).Uses allowed) : (deinit >>= next).Uses allowed := ⟨h, rest⟩

theorem uses_host_bind {c : H} {next : A c → PageProg P H A β} (h : allowed (.host c))
    (rest : ∀ r, (next r).Uses allowed) : (host c >>= next).Uses allowed := ⟨h, rest⟩

end Uses

/-- A call that may be made without touching pages outside `pages`. -/
def Confined (pages : Nat → Prop) : Call P H → Prop
  | .write page _ => pages page
  | _ => True

def HostOnly : Call P H → Prop
  | .host _ => True
  | _ => False

theorem Device.Within.step {pages : Nat → Prop} {m : Medium P} {c : Call P H} {r : Answer A c}
    {d' : Device P} (confined : Confined pages c) (step : faulty c d r d')
    (h : d.Within pages m) : d'.Within pages m := by
  cases c with
  | read page => obtain ⟨rfl, -⟩ := step; exact h
  | write page data =>
    rcases step with rfl | ⟨-, rfl⟩
    · exact h.write data confined
    · exact h.refuse confined
  | sync =>
    rcases step with rfl | ⟨-, rfl⟩
    · exact h.flush
    · exact h
  | deinit =>
    rcases step with ⟨m', hm', rfl⟩ | ⟨-, rfl⟩
    · exact h.restart hm'
    · exact h
  | host _ => cases step; exact h

def Silent : Call P H → Prop
  | .write _ _ => False
  | _ => True

/-- Without a write nothing is left that could not have been left before. -/
theorem wp_silent {program : PageProg P H A α} {left wider : Medium P → List Nat → Prop}
    (silent : program.Uses Silent) (h : d.Leaves left)
    (implies : ∀ m issued, left m issued → wider m issued) :
    program.wp faulty (fun _ t => t.Leaves left) (fun t => t.Leaves wider) d := by
  have keeps : ∀ (c : Call P H) (t : Device P) (r : Answer A c) (t' : Device P),
      Silent c → faulty c t r t' → t.Leaves left → t'.Leaves left := by
    intro c t r t' allowed step ht
    cases c with
    | read page => obtain ⟨rfl, -⟩ := step; exact ht
    | write page data => exact allowed.elim
    | sync =>
      rcases step with rfl | ⟨-, rfl⟩
      · exact ht.flush
      · exact ht
    | deinit =>
      rcases step with ⟨m, hm, rfl⟩ | ⟨-, rfl⟩
      · exact ht.restart hm
      · exact ht
    | host _ => cases step; exact ht
  exact Prog.wp_mono (silent.wp keeps h) (fun _ _ => id) fun _ ht => ht.mono implies

def ReadOnly : Call P H → Prop
  | .read _ | .host _ => True
  | _ => False

theorem wp_readOnly {program : PageProg P H A α} {post : α → Device P → Prop}
    (reads : program.Uses ReadOnly) (hinv : inv d) (hpost : ∀ a, post a d) :
    program.wp faulty post inv d := by
  have same : program.wp faulty (fun _ t => t = d) (fun t => t = d) d := by
    have keeps : ∀ (c : Call P H) (t : Device P) (r : Answer A c) (t' : Device P),
        ReadOnly c → faulty c t r t' → t = d → t' = d := by
      intro c t r t' allowed step ht
      cases c with
      | read _ => exact Eq.trans step.1 ht
      | host _ => exact Eq.trans step ht
      | write _ _ => exact allowed.elim
      | sync => exact allowed.elim
      | deinit => exact allowed.elim
    exact reads.wp keeps rfl
  apply Prog.wp_mono same
  · rintro a t rfl
    exact hpost a
  · rintro t rfl
    exact hinv

theorem Uses.readOnly {program : PageProg P H A α} (host : program.Uses HostOnly) :
    program.Uses ReadOnly :=
  Prog.Uses.mono host fun c hc => by cases c <;> trivial

theorem Uses.silent {program : PageProg P H A α} (reads : program.Uses ReadOnly) :
    program.Uses Silent :=
  Prog.Uses.mono reads fun c hc => by cases c <;> trivial

theorem wp_hostOnly {program : PageProg P H A α} {post : α → Device P → Prop}
    (host : program.Uses HostOnly) (hinv : inv d) (hpost : ∀ a, post a d) :
    program.wp faulty post inv d :=
  wp_readOnly (Uses.readOnly host) hinv hpost

end Rules

/-! An executable device: a script says, call by call, what goes wrong. -/

inductive Fault where
  | none
  | failBefore
  | failAfter
  | powerLost (afterEffect : Bool)
  deriving DecidableEq, Repr

/-- How one call is met: its fault, the answer of other hardware, and which of
the unsynced writes outlive a closed session. -/
structure Turn (A : H → Type) where
  fault : Fault := .none
  answer : (h : H) → A h
  keep : List Bool := []

/-- `idle` meets the calls that the listed turns do not reach. -/
structure Weather (A : H → Type) where
  turns : List (Turn A) := []
  idle : Turn A
  keep : List Bool := []

structure Session (P : Type) {H : Type} (A : H → Type) where
  device : Device P
  weather : Weather A

namespace Session

def turn (s : Session P A) : Turn A := s.weather.turns.headD s.weather.idle

def advance (s : Session P A) (d : Device P) : Session P A :=
  ⟨d, { s.weather with turns := s.weather.turns.tail }⟩

end Session

def survivors (keep : List Bool) (pending : List (Nat × P)) : List (Nat × P) :=
  ((pending.zip keep).filter fun w => w.2).map Prod.fst

theorem survivors_sublist (keep : List Bool) (pending : List (Nat × P)) :
    (survivors keep pending).Sublist pending := by
  induction pending generalizing keep with
  | nil => simp [survivors]
  | cons w rest ih =>
    cases keep with
    | nil => simp [survivors]
    | cons k ks =>
      cases k with
      | false => exact .cons _ (by simpa [survivors] using ih ks)
      | true =>
        have kept : survivors (true :: ks) (w :: rest) = w :: survivors ks rest := by
          simp [survivors]
        rw [kept]
        exact .cons_cons _ (ih ks)

def Device.settle (d : Device P) (keep : List Bool) : Medium P :=
  writeAll (survivors keep d.pending) d.durable

theorem Device.survives_settle (d : Device P) (keep : List Bool) : d.Survives (d.settle keep) :=
  ⟨survivors keep d.pending, survivors_sublist keep d.pending, rfl⟩

def effect (turn : Turn A) : (c : Call P H) → Device P → Answer A c × Device P
  | .read page, d => (some (d.view page), d)
  | .write page data, d => (true, d.write page data)
  | .sync, d => (true, d.flush)
  | .deinit, d => (true, d.restart (d.settle turn.keep))
  | .host h, d => (turn.answer h, d)

def refusal : (c : Call P H) → Device P → Device P
  | .write page _, d => d.refuse page
  | _, d => d

def failed (turn : Turn A) : (c : Call P H) → Answer A c
  | .read _ => none
  | .write _ _ => false
  | .sync => false
  | .deinit => false
  | .host h => turn.answer h

def machine : Machine (Call P H) (Answer A) (Session P A) := fun c s =>
  let turn := s.turn
  match turn.fault with
  | .none => (some (effect turn c s.device).1, s.advance (effect turn c s.device).2)
  | .failBefore => (some (failed turn c), s.advance (refusal c s.device))
  | .failAfter => (some (failed turn c), s.advance (effect turn c s.device).2)
  | .powerLost false => (none, s.advance s.device)
  | .powerLost true => (none, s.advance (effect turn c s.device).2)

theorem faulty_effect (turn : Turn A) (c : Call P H) (d : Device P) :
    faulty c d (effect turn c d).1 (effect turn c d).2 := by
  cases c with
  | read page => exact ⟨rfl, .inr rfl⟩
  | write page data => exact .inl rfl
  | sync => exact .inl rfl
  | deinit => exact .inl ⟨_, d.survives_settle turn.keep, rfl⟩
  | host h => exact rfl

theorem faulty_failAfter (turn : Turn A) (c : Call P H) (d : Device P) :
    faulty c d (failed turn c) (effect turn c d).2 := by
  cases c with
  | read page => exact ⟨rfl, .inl rfl⟩
  | write page data => exact .inl rfl
  | sync => exact .inl rfl
  | deinit => exact .inl ⟨_, d.survives_settle turn.keep, rfl⟩
  | host h => exact rfl

theorem faulty_failBefore (turn : Turn A) (c : Call P H) (d : Device P) :
    faulty c d (failed turn c) (refusal c d) := by
  cases c with
  | read page => exact ⟨rfl, .inl rfl⟩
  | write page data => exact .inr ⟨rfl, rfl⟩
  | sync => exact .inr ⟨rfl, rfl⟩
  | deinit => exact .inr ⟨rfl, rfl⟩
  | host h => exact rfl

theorem machine_realises :
    Prog.Realises (machine (P := P) (A := A)) faulty Session.device where
  answered := by
    intro c s r s' h
    unfold machine at h
    dsimp only at h
    split at h <;> cases h
    · exact faulty_effect _ c s.device
    · exact faulty_failBefore _ c s.device
    · exact faulty_failAfter _ c s.device
  cut := by
    intro c s s' h
    unfold machine at h
    dsimp only at h
    split at h <;> cases h
    · exact .inl rfl
    · exact .inr ⟨_, faulty_effect _ c s.device⟩

/-- What one operation leaves: its reply if power lasted, the durable medium the
next session starts from, and the pages its write calls named. -/
structure Outcome (P α : Type) where
  reply : Option α
  medium : Medium P
  issued : List Nat

def operate (program : PageProg P H A α) (weather : Weather A) (m : Medium P) : Outcome P α :=
  let final := program.run machine ⟨.fresh m, weather⟩
  { reply := final.1
    medium := final.2.device.settle weather.keep
    issued := final.2.device.issued }

theorem operate_reply (program : PageProg P H A α) (weather : Weather A) (m : Medium P) :
    (operate program weather m).reply = (program.run machine ⟨.fresh m, weather⟩).1 := rfl

/-- The end of an operation, seen from its weakest precondition. -/
theorem operate_sound {program : PageProg P H A α} {post : α → Device P → Prop}
    {inv : Device P → Prop} {m : Medium P} (weather : Weather A)
    (h : program.wp faulty post inv (.fresh m)) (hinv : inv (.fresh m)) :
    ∃ d : Device P, inv d ∧ d.Survives (operate program weather m).medium ∧
      (operate program weather m).issued = d.issued ∧
        ∀ a, (operate program weather m).reply = some a → post a d := by
  have sound := Prog.wp_run machine_realises (t := (⟨.fresh m, weather⟩ : Session P A)) h hinv
  exact ⟨_, sound.1, Device.survives_settle _ _, rfl, sound.2⟩

/-- The end of an operation whose devices all leave something. -/
theorem operate_leaves {program : PageProg P H A α} {post : α → Medium P → List Nat → Prop}
    {left : Medium P → List Nat → Prop} {m : Medium P} (weather : Weather A)
    (h : program.wp faulty (fun a => Device.Leaves (post a)) (Device.Leaves left) (.fresh m))
    (hinv : left m []) :
    left (operate program weather m).medium (operate program weather m).issued ∧
      ∀ a, (operate program weather m).reply = some a →
        post a (operate program weather m).medium (operate program weather m).issued := by
  obtain ⟨d, hd, hsurvives, hissued, hreply⟩ :=
    operate_sound weather h (Device.leaves_fresh.mpr hinv)
  rw [hissued]
  exact ⟨hd _ hsurvives, fun a ha => hreply a ha _ hsurvives⟩

/-- A page no write call has named is what it was. -/
theorem operate_untouched (program : PageProg P H A α) (weather : Weather A) (m : Medium P)
    {page : Nat} (unnamed : page ∉ (operate program weather m).issued) :
    (operate program weather m).medium page = m page := by
  let inv : Device P → Prop := fun t => t.Within (fun q => q ∈ t.issued) m
  have grow : ∀ {t : Device P} {pages : List Nat}, inv t →
      t.Within (fun q => q ∈ t.issued ++ pages) m := fun ht =>
    ht.mono fun _ hq => List.mem_append_left _ hq
  have keeps : ∀ (c : Call P H) (t : Device P) (r : Answer A c) (t' : Device P),
      True → faulty c t r t' → inv t → inv t' := by
    intro c t r t' _ step ht
    cases c with
    | read page => obtain ⟨rfl, -⟩ := step; exact ht
    | write page data =>
      rcases step with rfl | ⟨-, rfl⟩
      · exact (grow ht).write data (by simp)
      · exact (grow ht).refuse (by simp)
    | sync =>
      rcases step with rfl | ⟨-, rfl⟩
      · exact ht.flush
      · exact ht
    | deinit =>
      rcases step with ⟨m', hm', rfl⟩ | ⟨-, rfl⟩
      · exact ht.restart hm'
      · exact ht
    | host _ => cases step; exact ht
  obtain ⟨d, hd, hsurvives, hissued, -⟩ := operate_sound weather
    (program.uses_any.wp keeps (Device.within_fresh _ m)) (Device.within_fresh _ m)
  exact hd.survives hsurvives (hissued ▸ unnamed)

/-! A device on which nothing goes wrong. -/

def calm (answer : (h : H) → A h) : Weather A := { idle := { answer := answer } }

section Calm

variable (answer : (h : H) → A h) (d : Device P)

@[simp] theorem run_readPage_calm (page : Nat) :
    (readPage page : PageProg P H A _).run machine ⟨d, calm answer⟩ =
      (some (some (d.view page)), ⟨d, calm answer⟩) := rfl

@[simp] theorem run_writePage_calm (page : Nat) (data : P) :
    (writePage page data : PageProg P H A _).run machine ⟨d, calm answer⟩ =
      (some true, ⟨d.write page data, calm answer⟩) := rfl

@[simp] theorem run_sync_calm :
    (sync : PageProg P H A _).run machine ⟨d, calm answer⟩ =
      (some true, ⟨d.flush, calm answer⟩) := rfl

@[simp] theorem run_deinit_calm :
    (deinit : PageProg P H A _).run machine ⟨d, calm answer⟩ =
      (some true, ⟨d.restart (d.settle []), calm answer⟩) := rfl

@[simp] theorem run_host_calm (h : H) :
    (host h : PageProg P H A _).run machine ⟨d, calm answer⟩ =
      (some (answer h), ⟨d, calm answer⟩) := rfl

end Calm

end PageDevice
