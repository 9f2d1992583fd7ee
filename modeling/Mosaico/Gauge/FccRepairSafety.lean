import Mosaico.Gauge.FccRepair
import Mathlib.Data.List.Nodup

/-! What the coordinator does to the gauge, whatever its backend answers: no mutation without
its own intent saved right before it, none twice, and access closed once it was announced. -/
namespace Mosaico.Gauge.FccRepair

open Interaction

/-- A call and what the backend answered. -/
structure Step where
  call : Call
  answer : Answer call

abbrev Trace := List Step

def recorded : Behaviour Call Answer Trace := fun c t r t' => t' = ⟨c, r⟩ :: t

def Command.mutates : Command → Bool
  | .sendUnsealPair | .sendFullPair | .enterCfg | .exitCfg | .reseal => true
  | .writeConfigOnly _ | .writeDcOnly _ | .writeFccOnly _ => true
  | .journalSaveReadback _ _ | .qualifyRuntimeQuiet | .waitCfg | .verifyTarget _ _ => false

def Command.writes : Command → Bool
  | .writeConfigOnly _ | .writeDcOnly _ | .writeFccOnly _ => true
  | _ => false

def Step.mutation (s : Step) : Option Command :=
  match s.call with
  | .command c => if c.mutates then some c else none
  | _ => none

def mutations (t : Trace) : List Command := t.filterMap Step.mutation

def Step.saved (s : Step) : Option Journal :=
  match s.call with
  | .command (.journalSaveReadback _ j) => some j
  | _ => none

def saves (t : Trace) : List Journal := t.filterMap Step.saved

def Step.reads (s : Step) : Bool := s.mutation.isNone && s.saved.isNone

def lastIntents (t : Trace) : UInt16 := ((saves t).head?.map (·.intents)).getD 0

def lastStatus : Trace → Option Security
  | [] => none
  | ⟨.observedSecurity, s⟩ :: _ => s
  | _ :: t => lastStatus t

/-- The mutation each intent stands for. -/
def mutationOf (j : Journal) : Intent → Option Command
  | .unseal => some .sendUnsealPair
  | .full => some .sendFullPair
  | .enter => some .enterCfg
  | .config => some (.writeConfigOnly j.target.config)
  | .dc => some (.writeDcOnly j.target.dc)
  | .fcc => some (.writeFccOnly j.target.fcc)
  | .restoreConfig => some (.writeConfigOnly j.before.config)
  | .restoreDc => some (.writeDcOnly j.before.dc)
  | .restoreFcc => some (.writeFccOnly j.before.fcc)
  | .exit => some .exitCfg
  | .seal => some .reseal
  | .targetVerified => none

/-- The newest step that is no read saved a journal whose only new intent is the one of `c`. -/
def Announced (older : Trace) (j : Journal) (c : Command) : Prop :=
  ∃ mode flag rest, older.dropWhile Step.reads =
      ⟨.command (.journalSaveReadback mode j), true⟩ :: rest ∧
    mutationOf j flag = some c ∧ j.intents = lastIntents rest ||| flag.bit ∧
    ∀ past ∈ saves rest, has past.intents flag = false

/-- Two equal snapshots in a row, taken as the original values. -/
def Snapshot (older : Trace) (j : Journal) : Prop :=
  j.target = targetOf j.before ∧
    [(⟨.dmSnapshot, some j.before⟩ : Step), ⟨.dmSnapshot, some j.before⟩] <:+: older

structure Writable (older : Trace) (j : Journal) : Prop where
  fullAccess : (lastStatus older).any fullCfgStatus = true
  snapshot : Snapshot older j
  notLeft : Command.exitCfg ∉ mutations older
  notSealed : Command.reseal ∉ mutations older

/-- What a mutation may follow. -/
structure Lawful (older : Trace) (c : Command) : Prop where
  once : c ∉ mutations older
  announced : c ≠ .exitCfg → c ≠ .reseal →
    ∃ j, Announced older j c ∧ (c.writes = true → Writable older j)

def valuesOf (d : Dm) : List Command :=
  [.writeConfigOnly d.config, .writeDcOnly d.dc, .writeFccOnly d.fcc]

/-- Every write is of an original value or of its target. -/
def Fixed (original : Dm) (t : Trace) : Prop :=
  ∀ c ∈ mutations t, c.writes = true → c ∈ valuesOf original ∨ c ∈ valuesOf (targetOf original)

def Disciplined : Trace → Prop
  | [] => True
  | s :: older => (∀ c, s.mutation = some c → Lawful older c) ∧ Disciplined older

section Reads

variable {s : Step} {t : Trace}

theorem mutations_cons (s : Step) (t : Trace) :
    mutations (s :: t) = s.mutation.toList ++ mutations t := by
  unfold mutations
  cases h : s.mutation <;> simp [h]

theorem saves_cons (s : Step) (t : Trace) : saves (s :: t) = s.saved.toList ++ saves t := by
  unfold saves
  cases h : s.saved <;> simp [h]

theorem mutations_read (h : s.reads = true) : mutations (s :: t) = mutations t := by
  simp only [Step.reads, Bool.and_eq_true, Option.isNone_iff_eq_none] at h
  simp [mutations_cons, h.1]

theorem saves_read (h : s.reads = true) : saves (s :: t) = saves t := by
  simp only [Step.reads, Bool.and_eq_true, Option.isNone_iff_eq_none] at h
  simp [saves_cons, h.2]

theorem lastIntents_read (h : s.reads = true) : lastIntents (s :: t) = lastIntents t := by
  simp only [lastIntents, saves_read h]

theorem Disciplined.quiet (h : Disciplined t) (hs : s.mutation = none) : Disciplined (s :: t) :=
  ⟨by simp [hs], h⟩

theorem Disciplined.read (h : Disciplined t) (hs : s.reads = true) : Disciplined (s :: t) := by
  apply h.quiet
  simp only [Step.reads, Bool.and_eq_true, Option.isNone_iff_eq_none] at hs
  exact hs.1

theorem Snapshot.cons {j : Journal} (h : Snapshot t j) (s : Step) : Snapshot (s :: t) j :=
  ⟨h.1, List.infix_cons h.2⟩

end Reads

private theorem bit_and (f g : Intent) : (f.bit &&& g.bit == 0) = !decide (f = g) := by
  cases f <;> cases g <;> rfl

theorem has_or (intents : UInt16) (f g : Intent) :
    has (intents ||| f.bit) g = (has intents g || decide (f = g)) := by
  have split : (intents ||| f.bit) &&& g.bit = (intents &&& g.bit) ||| (f.bit &&& g.bit) :=
    UInt16.toBitVec_inj.mp BitVec.and_or_distrib_right
  have apart : ((intents ||| f.bit) &&& g.bit == 0) =
      ((intents &&& g.bit == 0) && (f.bit &&& g.bit == 0)) := by
    rw [Bool.eq_iff_iff, split]
    simp [UInt16.or_eq_zero_iff]
  simp only [has, bne, apart, bit_and, Bool.not_and, Bool.not_not]

@[simp] theorem mutationOf_claim (r : Repair) (f g : Intent) :
    mutationOf (r.claim f).j g = mutationOf r.j g := by
  cases g <;> rfl

/-- What the two snapshots showed, as far as the writes depend on it. -/
structure Plan (mode : Mode) (d : Dm) : Prop where
  unlimited : d.config &&& limitBit = 0
  cold : mode = .coldFactory → d.dc = 3000

/-- The coordinator and the trace before access is closed. -/
structure Good (mode : Mode) (accessed : Bool) (r : Repair) (t : Trace) : Prop where
  disciplined : Disciplined t
  accessed : r.accessed = accessed
  inside : r.exited = false
  last : lastIntents t = r.j.intents
  bits : ∀ past ∈ saves t, ∀ flag, has past.intents flag = true → has r.j.intents flag = true
  intended : ∀ flag c, mutationOf r.j flag = some c → c ∈ mutations t → has r.j.intents flag = true
  notLeft : Command.exitCfg ∉ mutations t
  notSealed : Command.reseal ∉ mutations t
  unwritten : r.j.backupValid = false → ∀ c ∈ mutations t, c.writes = false
  snapshot : r.j.backupValid = true → Snapshot t r.j ∧ Plan mode r.j.before
  values : ∀ c ∈ mutations t, c.writes = true → ∃ flag, mutationOf r.j flag = some c

/-- The intent was saved last, and what it stands for is still to come. -/
structure Fresh (flag : Intent) (r : Repair) (t : Trace) : Prop where
  saved : ∃ mode rest, t.dropWhile Step.reads =
      ⟨.command (.journalSaveReadback mode r.j), true⟩ :: rest ∧
    r.j.intents = lastIntents rest ||| flag.bit ∧ ∀ past ∈ saves rest, has past.intents flag = false
  unspent : ∀ c, mutationOf r.j flag = some c → c ∉ mutations t

section Steps

variable {mode : Mode} {a : Bool} {r : Repair} {t : Trace} {s : Step} {flag : Intent}

theorem Good.read (h : Good mode a r t) (hs : s.reads = true) : Good mode a r (s :: t) where
  disciplined := h.disciplined.read hs
  accessed := h.accessed
  inside := h.inside
  last := by rw [lastIntents_read hs, h.last]
  bits := by rw [saves_read hs]; exact h.bits
  intended := by rw [mutations_read hs]; exact h.intended
  notLeft := by rw [mutations_read hs]; exact h.notLeft
  notSealed := by rw [mutations_read hs]; exact h.notSealed
  unwritten := by rw [mutations_read hs]; exact h.unwritten
  snapshot := fun hb => ⟨(h.snapshot hb).1.cons s, (h.snapshot hb).2⟩
  values := by rw [mutations_read hs]; exact h.values

theorem Fresh.read (h : Fresh flag r t) (hs : s.reads = true) : Fresh flag r (s :: t) where
  saved := by
    obtain ⟨m, rest, hdrop, more⟩ := h.saved
    exact ⟨m, rest, by rw [List.dropWhile_cons_of_pos hs, hdrop], more⟩
  unspent := by rw [mutations_read hs]; exact h.unspent

theorem Fresh.claimed (h : Fresh flag r t) : has r.j.intents flag = true := by
  obtain ⟨m, rest, _, hbits, _⟩ := h.saved
  simp [hbits, has_or]

def saving (mode : Mode) (j : Journal) (ok : Bool) : Step :=
  ⟨.command (.journalSaveReadback mode j), ok⟩

@[simp] theorem saving_mutation (m : Mode) (j : Journal) (ok : Bool) :
    (saving m j ok).mutation = none := rfl

@[simp] theorem mutations_saving (m : Mode) (j : Journal) (ok : Bool) (t : Trace) :
    mutations (saving m j ok :: t) = mutations t := rfl

@[simp] theorem saves_saving (m : Mode) (j : Journal) (ok : Bool) (t : Trace) :
    saves (saving m j ok :: t) = j :: saves t := rfl

theorem Good.claim (h : Good mode a r t) (m : Mode) (flag : Intent) (ok : Bool) :
    Good mode a (r.claim flag) (saving m (r.claim flag).j ok :: t) where
  disciplined := h.disciplined.quiet (saving_mutation ..)
  accessed := h.accessed
  inside := h.inside
  last := rfl
  bits := by
    intro past hpast f hf
    rw [saves_saving, List.mem_cons] at hpast
    cases hpast with
    | inl same => rwa [same] at hf
    | inr old => simp only [Repair.claim, has_or, h.bits past old f hf, Bool.true_or]
  intended := by
    intro f c hc hmem
    have done := h.intended f c (by simpa using hc) hmem
    simp only [Repair.claim, has_or, done, Bool.true_or]
  notLeft := h.notLeft
  notSealed := h.notSealed
  unwritten := h.unwritten
  snapshot := by
    intro hb
    have snap := h.snapshot hb
    exact ⟨⟨snap.1.1, List.infix_cons snap.1.2⟩, snap.2⟩
  values := by
    intro c hmem hw
    obtain ⟨f, hf⟩ := h.values c hmem hw
    exact ⟨f, by simpa using hf⟩

theorem Good.fresh (h : Good mode a r t) (m : Mode) (new : has r.j.intents flag = false) :
    Fresh flag (r.claim flag) (saving m (r.claim flag).j true :: t) where
  saved := by
    refine ⟨m, t, rfl, ?_, ?_⟩
    · rw [h.last]
      rfl
    · intro past hpast
      by_contra had
      have now := h.bits past hpast flag (by simpa using had)
      simp [new] at now
  unspent := by
    intro c hc hmem
    have done := h.intended flag c (by simpa using hc) hmem
    simp [new] at done

/-- The announced mutation itself. -/
theorem Good.issue (h : Good mode a r t) (f : Fresh flag r t) {c : Command} (ok : Bool)
    (his : mutationOf r.j flag = some c) (mutates : c.mutates = true)
    (only : ∀ g, mutationOf r.j g = some c → g = flag) (left : c ≠ .exitCfg) (sealed : c ≠ .reseal)
    (watched : c.writes = true →
      (lastStatus t).any fullCfgStatus = true ∧ r.j.backupValid = true) :
    Good mode a r (⟨.command c, ok⟩ :: t) := by
  have mutation : Step.mutation ⟨.command c, ok⟩ = some c := by simp [Step.mutation, mutates]
  have more : mutations (⟨.command c, ok⟩ :: t) = c :: mutations t := by
    simp [mutations_cons, mutation]
  have nosave : Step.saved ⟨.command c, ok⟩ = none := by
    cases c <;> first | rfl | (simp [Command.mutates] at mutates)
  have same : saves (⟨.command c, ok⟩ :: t) = saves t := by simp [saves_cons, nosave]
  have lawful : Lawful t c := by
    refine ⟨f.unspent c his, fun _ _ => ⟨r.j, ?_, ?_⟩⟩
    · obtain ⟨m, rest, hdrop, hbits, hold⟩ := f.saved
      exact ⟨m, flag, rest, hdrop, his, hbits, hold⟩
    · intro hw
      have snap := (h.snapshot (watched hw).2).1
      exact ⟨(watched hw).1, snap, h.notLeft, h.notSealed⟩
  constructor
  · refine ⟨fun c' hc' => ?_, h.disciplined⟩
    rw [mutation] at hc'
    cases hc'
    exact lawful
  · exact h.accessed
  · exact h.inside
  · rw [lastIntents, same]
    exact h.last
  · rw [same]
    exact h.bits
  · intro g c' hc' hmem
    rw [more, List.mem_cons] at hmem
    cases hmem with
    | inl new => rw [only g (by rw [hc', new]), f.claimed]
    | inr old => exact h.intended g c' hc' old
  · rw [more, List.mem_cons, not_or]
    exact ⟨fun e => left e.symm, h.notLeft⟩
  · rw [more, List.mem_cons, not_or]
    exact ⟨fun e => sealed e.symm, h.notSealed⟩
  · intro hb c' hmem
    rw [more, List.mem_cons] at hmem
    cases hmem with
    | inl new =>
      by_contra hw
      have valid := (watched (by simpa [new] using hw)).2
      simp [hb] at valid
    | inr old => exact h.unwritten hb c' old
  · exact fun hb => ⟨(h.snapshot hb).1.cons _, (h.snapshot hb).2⟩
  · intro c' hmem hw
    rw [more, List.mem_cons] at hmem
    cases hmem with
    | inl new => exact ⟨flag, by rw [new, his]⟩
    | inr old => exact h.values c' old hw

end Steps

section Rules

variable {mode : Mode} {a : Bool} {r : Repair} {t : Trace} {flag : Intent}
  {P P' : Repair → Trace → Prop}

/-- The state stays good, and where the condition holds `P` holds too. -/
def Yields (mode : Mode) (a : Bool) (P : Repair → Trace → Prop) (x : Bool × Repair) (t : Trace) :
    Prop :=
  Good mode a x.2 t ∧ (x.1 = true → P x.2 t)

/-- From here the condition keeps the discipline and yields `P`. -/
abbrev Gives (mode : Mode) (a : Bool) (p : Cond) (P : Repair → Trace → Prop) (t : Trace) : Prop :=
  p.wp recorded (Yields mode a P) Disciplined t

theorem gives_mono {p : Cond} (h : Gives mode a p P t) (weaker : ∀ r t, P r t → P' r t) :
    Gives mode a p P' t :=
  Prog.wp_mono h (fun x t hx => ⟨hx.1, fun ok => weaker x.2 t (hx.2 ok)⟩) fun _ => id

theorem gives_pure {ok : Bool} (h : Good mode a r t) (hp : ok = true → P r t) :
    Gives mode a (pure (ok, r)) P t := ⟨h, hp⟩

theorem gives_both {first : Cond} {next : Repair → Cond} (h : Gives mode a first P t)
    (rest : ∀ r t, Good mode a r t → P r t → Gives mode a (next r) P' t) :
    Gives mode a (both first next) P' t := by
  apply Prog.wp_bind h
  intro x t' hx
  obtain ⟨ok, r'⟩ := x
  cases ok with
  | false => exact gives_pure hx.1 nofun
  | true => exact rest r' t' hx.1 (hx.2 rfl)

theorem gives_perform {c : Call} {next : Answer c → Cond} (h : Disciplined t)
    (quiet : ∀ v, Step.mutation ⟨c, v⟩ = none)
    (rest : ∀ v, Gives mode a (next v) P (⟨c, v⟩ :: t)) :
    Gives mode a (Prog.perform c >>= next) P t := by
  intro v t' ht'
  rw [ht']
  exact ⟨h.quiet (quiet v), rest v⟩

theorem gives_command {c : Command}
    (h : ∀ ok, Good mode a r (⟨.command c, ok⟩ :: t) ∧ (ok = true → P r (⟨.command c, ok⟩ :: t))) :
    Gives mode a (command c r) P t := by
  intro ok t' ht'
  rw [ht']
  exact ⟨(h ok).1.disciplined, h ok⟩

theorem observed_gives {p : Security → Bool} (h : Good mode a r t) :
    Gives mode a (observed p r)
      (fun r' t' => r' = r ∧ ∃ s, p s = true ∧ t' = ⟨.observedSecurity, some s⟩ :: t) t := by
  apply gives_perform h.disciplined fun _ => rfl
  intro v
  apply gives_pure (h.read rfl)
  intro hp
  obtain ⟨s, hv, hs⟩ := Option.any_eq_true _ _ |>.mp hp
  rw [hv]
  exact ⟨rfl, s, hs, rfl⟩

theorem read_gives {c : Command} (h : Good mode a r t)
    (hc : ∀ ok, Step.reads ⟨.command c, ok⟩ = true) :
    Gives mode a (command c r) (fun r' _ => r' = r) t :=
  gives_command fun ok => ⟨h.read (hc ok), fun _ => rfl⟩

theorem intent_gives (h : Good mode a r t) (m : Mode) :
    Gives mode a (intent m flag r) (fun r' t' => r' = r.claim flag ∧ Fresh flag r' t') t := by
  unfold intent
  cases had : has r.j.intents flag with
  | true => exact gives_pure h nofun
  | false =>
    apply gives_command
    intro ok
    refine ⟨h.claim m flag ok, fun hok => ⟨rfl, ?_⟩⟩
    rw [hok]
    exact h.fresh m had

/-- Two intents share a mutation only where it is a write. -/
theorem access_only {j : Journal} {f g : Intent} {c : Command} (nowrite : c.writes = false)
    (hf : mutationOf j f = some c) (hg : mutationOf j g = some c) : g = f := by
  cases f <;> cases hf <;> first
    | (simp [Command.writes] at nowrite; done)
    | (cases g <;> first | rfl | cases hg)

theorem issue_gives {c : Command} (h : Good mode a r t) (f : Fresh flag r t)
    (his : mutationOf r.j flag = some c) (mutates : c.mutates = true)
    (only : ∀ g, mutationOf r.j g = some c → g = flag) (left : c ≠ .exitCfg) (sealed : c ≠ .reseal)
    (watched : c.writes = true →
      (lastStatus t).any fullCfgStatus = true ∧ r.j.backupValid = true) :
    Gives mode a (command c r) (fun r' _ => r' = r) t :=
  gives_command fun ok => ⟨h.issue f ok his mutates only left sealed watched, fun _ => rfl⟩

theorem announced_gives {c : Command} (h : Good mode a r t) (backed : r.j.backupValid = true)
    (m : Mode) (his : mutationOf r.j flag = some c) (writes : c.writes = true)
    (only : ∀ g, mutationOf r.j g = some c → g = flag) :
    Gives mode a (announced m flag c r) (fun r' _ => r' = r.claim flag) t := by
  apply gives_both (intent_gives h m)
  rintro _ t1 h1 ⟨rfl, f1⟩
  apply gives_both (observed_gives h1)
  rintro _ _ h2 ⟨rfl, s, hs, rfl⟩
  apply issue_gives h2 (f1.read rfl) (by simpa using his)
  · cases c <;> simp_all [Command.writes, Command.mutates]
  · intro g hg
    exact only g (by simpa using hg)
  · intro exits
    simp [exits, Command.writes] at writes
  · intro seals
    simp [seals, Command.writes] at writes
  · exact fun _ => ⟨by simpa [lastStatus] using hs, backed⟩

end Rules

section Phases

variable {mode : Mode} {a : Bool} {r : Repair} {t : Trace} {id : Identity}

def Backed (r : Repair) (_ : Trace) : Prop := r.j.backupValid = true

def Unbacked (r : Repair) (_ : Trace) : Prop := r.j.backupValid = false

theorem unsealed_gives (h : Good mode a r t) (f : Fresh .unseal r t)
    (unbacked : r.j.backupValid = false) : Gives mode a (unsealed r) Unbacked t := by
  apply gives_both (issue_gives h f rfl rfl (fun _ => access_only rfl rfl)
    nofun nofun nofun)
  rintro _ t1 h1 rfl
  apply gives_mono (observed_gives h1)
  rintro _ _ ⟨rfl, _⟩
  exact unbacked

theorem stillQuiet_gives (h : Good mode a r t) :
    Gives mode a (stillQuiet mode r) (fun r' _ => r' = r) t :=
  gives_perform h.disciplined (fun _ => rfl) fun _ => gives_pure (h.read rfl) fun _ => rfl

theorem opened_gives (h : Good mode a r t) (unbacked : r.j.backupValid = false) :
    Gives mode a (opened mode r) Unbacked t := by
  apply gives_both (stillQuiet_gives h)
  rintro _ t1 h1 rfl
  apply gives_both (intent_gives h1 mode)
  rintro _ t2 h2 ⟨rfl, f2⟩
  apply gives_both (issue_gives h2 f2 rfl rfl (fun _ => access_only rfl rfl)
    nofun nofun nofun)
  rintro _ t3 h3 rfl
  apply gives_mono (observed_gives h3)
  rintro _ _ ⟨rfl, _⟩
  exact unbacked

theorem original_plan {d : Dm} (h : original mode id d = true) : Plan mode d := by
  simp only [original, Bool.and_eq_true, beq_iff_eq, decide_eq_true_eq] at h
  constructor
  · exact h.1.2
  · rintro rfl
    simp only [Bool.and_eq_true, beq_iff_eq] at h
    exact h.2.1.1

/-- Nothing was written yet, so the journal may take the snapshots. -/
theorem Good.backUp {d : Dm} (h : Good mode a r t) (unbacked : r.j.backupValid = false)
    (plan : Plan mode d)
    (seen : [(⟨.dmSnapshot, some d⟩ : Step), ⟨.dmSnapshot, some d⟩] <:+: t) :
    Good mode a (r.backUp d) t where
  disciplined := h.disciplined
  accessed := h.accessed
  inside := h.inside
  last := h.last
  bits := h.bits
  intended := by
    intro f c hc hmem
    have nowrite := h.unwritten unbacked c hmem
    cases f <;> first
      | exact h.intended _ c hc hmem
      | (cases hc; simp [Command.writes] at nowrite)
  notLeft := h.notLeft
  notSealed := h.notSealed
  unwritten := nofun
  snapshot := fun _ => ⟨⟨rfl, seen⟩, plan⟩
  values := by
    intro c hmem hw
    simp [h.unwritten unbacked c hmem] at hw

theorem Good.verifiedAccess (h : Good mode a r t) :
    Good mode a { r with j := { r.j with fullAccessVerified := true } } t :=
  { h with intended := h.intended, values := h.values }

theorem backup_gives (h : Good mode a r t) (unbacked : r.j.backupValid = false) :
    Gives mode a (backup mode id r) Backed t := by
  have h0 := h.verifiedAccess
  apply gives_perform h0.disciplined fun _ => rfl
  intro first
  cases first with
  | none => exact gives_pure (h0.read rfl) nofun
  | some first =>
    apply gives_perform (h0.read rfl).disciplined fun _ => rfl
    intro second
    have h2 := (h0.read (s := ⟨.dmSnapshot, some first⟩) rfl).read
      (s := ⟨.dmSnapshot, second⟩) rfl
    cases second with
    | none => exact gives_pure h2 nofun
    | some second =>
      dsimp only
      split
      · rename_i equal
        obtain ⟨rfl, planned⟩ := equal
        refine gives_pure (h2.backUp unbacked (original_plan planned) ?_) fun _ => rfl
        exact ⟨[], t, rfl⟩
      · exact gives_pure h2 nofun

theorem entered_gives (h : Good mode a r t) (backed : r.j.backupValid = true) :
    Gives mode a (entered mode r) Backed t := by
  apply gives_both (intent_gives h mode)
  rintro _ t1 h1 ⟨rfl, f1⟩
  apply gives_both (issue_gives h1 f1 rfl rfl (fun _ => access_only rfl rfl)
    nofun nofun nofun)
  rintro _ t2 h2 rfl
  apply gives_both (read_gives h2 fun _ => rfl)
  rintro _ t3 h3 rfl
  apply gives_mono (observed_gives h3)
  rintro _ _ ⟨rfl, _⟩
  exact backed

section Values

variable {j : Journal}

theorem config_only (h : j.target.config ≠ j.before.config) (g : Intent) :
    (mutationOf j g = some (.writeConfigOnly j.target.config) → g = .config) ∧
      (mutationOf j g = some (.writeConfigOnly j.before.config) → g = .restoreConfig) := by
  cases g <;> simp [mutationOf, h, h.symm]

theorem dc_only (h : j.target.dc ≠ j.before.dc) (g : Intent) :
    (mutationOf j g = some (.writeDcOnly j.target.dc) → g = .dc) ∧
      (mutationOf j g = some (.writeDcOnly j.before.dc) → g = .restoreDc) := by
  cases g <;> simp [mutationOf, h, h.symm]

theorem fcc_only (h : j.target.fcc ≠ j.before.fcc) (g : Intent) :
    (mutationOf j g = some (.writeFccOnly j.target.fcc) → g = .fcc) ∧
      (mutationOf j g = some (.writeFccOnly j.before.fcc) → g = .restoreFcc) := by
  cases g <;> simp [mutationOf, h, h.symm]

end Values

theorem Good.config_changes (h : Good mode a r t) (backed : r.j.backupValid = true) :
    r.j.target.config ≠ r.j.before.config := by
  intro same
  have limit : (r.j.before.config ||| limitBit) &&& limitBit = limitBit := by
    apply UInt16.toBitVec_inj.mp
    ext i
    simp only [UInt16.toBitVec_and, UInt16.toBitVec_or, BitVec.getElem_and, BitVec.getElem_or,
      Bool.and_eq_right_iff_imp]
    exact Bool.or_inr
  have free := (h.snapshot backed).2.unlimited
  rw [(h.snapshot backed).1.1] at same
  rw [← same] at free
  simp only [targetOf, limit] at free
  exact absurd free (by decide)

theorem applyConfig_gives (h : Good mode a r t) (backed : r.j.backupValid = true) :
    Gives mode a (applyConfig mode r) Backed t := by
  apply gives_mono (announced_gives h backed mode rfl rfl fun g =>
    (config_only (h.config_changes backed) g).1)
  rintro _ _ rfl
  exact backed

theorem applyDc_gives (h : Good mode a r t) (backed : r.j.backupValid = true) :
    Gives mode a (applyDc mode r) Backed t := by
  have snap := h.snapshot backed
  have target : r.j.target.dc = 65 := by rw [snap.1.1]; rfl
  unfold applyDc
  split
  · rename_i cold
    have changes : r.j.target.dc ≠ r.j.before.dc := by
      rw [target, snap.2.cold cold]
      decide
    rw [← target]
    apply gives_mono (announced_gives h backed mode rfl rfl fun g => (dc_only changes g).1)
    rintro _ _ rfl
    exact backed
  · exact gives_pure h fun _ => backed

theorem applyFcc_gives (h : Good mode a r t) (backed : r.j.backupValid = true) :
    Gives mode a (applyFcc mode r) Backed t := by
  have target : r.j.target.fcc = 65 := by rw [(h.snapshot backed).1.1]; rfl
  unfold applyFcc
  split
  · exact gives_pure h fun _ => backed
  · rename_i other
    have changes : r.j.target.fcc ≠ r.j.before.fcc := by
      rw [target]
      exact fun e => other e.symm
    rw [← target]
    apply gives_mono (announced_gives h backed mode rfl rfl fun g => (fcc_only changes g).1)
    rintro _ _ rfl
    exact backed

theorem confirmed_gives (h : Good mode a r t) (backed : r.j.backupValid = true) :
    Gives mode a (confirmed mode r) Backed t := by
  apply gives_both (read_gives h fun _ => rfl)
  rintro _ t1 h1 rfl
  apply gives_mono (intent_gives h1 mode)
  rintro _ _ ⟨rfl, _⟩
  exact backed

theorem repair_gives (h : Good mode a r t) (f : Fresh .unseal r t)
    (unbacked : r.j.backupValid = false) : Gives mode a (repair mode id r) Backed t := by
  apply gives_both (unsealed_gives h f unbacked)
  intro r t h unbacked
  apply gives_both (opened_gives h unbacked)
  intro r t h unbacked
  apply gives_both (backup_gives h unbacked)
  intro r t h backed
  apply gives_both (entered_gives h backed)
  intro r t h backed
  apply gives_both (applyConfig_gives h backed)
  intro r t h backed
  apply gives_both (applyDc_gives h backed)
  intro r t h backed
  apply gives_both (applyFcc_gives h backed)
  intro r t h backed
  exact confirmed_gives h backed

theorem knownDm_gives {p : Dm → Bool} {next : Dm → Cond} {P : Repair → Trace → Prop}
    (h : Good mode a r t)
    (rest : ∀ now t', Good mode a r t' → known r.j now = true → Gives mode a (next now) P t') :
    Gives mode a (knownDm p r next) P t := by
  apply gives_both (observed_gives h)
  rintro _ t1 h1 ⟨rfl, _⟩
  apply gives_perform h1.disciplined fun _ => rfl
  intro v
  cases v with
  | none => exact gives_pure (h1.read rfl) nofun
  | some now =>
    dsimp only
    split
    · rename_i seen
      simp only [Bool.and_eq_true] at seen
      exact rest now _ (h1.read rfl) seen.1
    · exact gives_pure (h1.read rfl) nofun

theorem restoreConfig_gives (h : Good mode a r t) (backed : r.j.backupValid = true) :
    Gives mode a (restoreConfig mode r) Backed t := by
  apply knownDm_gives h
  intro now t1 h1 _
  split
  · exact gives_pure h1 fun _ => backed
  · apply gives_mono (announced_gives h1 backed mode rfl rfl fun g =>
      (config_only (h1.config_changes backed) g).2)
    rintro _ _ rfl
    exact backed

private theorem known_dc {j : Journal} {now : Dm} (h : known j now = true) (other : now.dc ≠ j.before.dc) :
    j.target.dc ≠ j.before.dc := by
  simp only [known, Bool.and_eq_true, Bool.or_eq_true, beq_iff_eq] at h
  cases h.1.2 with
  | inl same => exact absurd same other
  | inr same => rwa [← same]

private theorem known_fcc {j : Journal} {now : Dm} (h : known j now = true)
    (other : now.fcc ≠ j.before.fcc) : j.target.fcc ≠ j.before.fcc := by
  simp only [known, Bool.and_eq_true, Bool.or_eq_true, beq_iff_eq] at h
  cases h.2 with
  | inl same => exact absurd same other
  | inr same => rwa [← same]

theorem restoreDc_gives (h : Good mode a r t) (backed : r.j.backupValid = true) :
    Gives mode a (restoreDc mode r) Backed t := by
  apply knownDm_gives h
  intro now t1 h1 seen
  split
  · exact gives_pure h1 fun _ => backed
  · rename_i other
    split
    · exact gives_pure h1 nofun
    · apply gives_mono (announced_gives h1 backed mode rfl rfl fun g =>
        (dc_only (known_dc seen other) g).2)
      rintro _ _ rfl
      exact backed

theorem restoreFcc_gives (h : Good mode a r t) (backed : r.j.backupValid = true) :
    Gives mode a (restoreFcc mode r) Backed t := by
  apply knownDm_gives h
  intro now t1 h1 seen
  split
  · exact gives_pure h1 fun _ => backed
  · rename_i other
    apply gives_mono (announced_gives h1 backed mode rfl rfl fun g =>
      (fcc_only (known_fcc seen other) g).2)
    rintro _ _ rfl
    exact backed

theorem rollback_gives (h : Good mode a r t) :
    Gives mode a (rollback mode r) (fun _ _ => True) t := by
  unfold rollback
  split
  · exact gives_pure h nofun
  · rename_i valid
    have backed : r.j.backupValid = true := by simpa using valid
    apply gives_both (restoreConfig_gives h backed)
    intro r t h backed
    apply gives_both (restoreDc_gives h backed)
    intro r t h backed
    exact gives_mono (restoreFcc_gives h backed) fun _ _ _ => trivial

end Phases

/-- Which of the two closing commands were given. -/
structure Access (left closed : Bool) (t : Trace) : Prop where
  disciplined : Disciplined t
  left : Command.exitCfg ∈ mutations t ↔ left = true
  closed : Command.reseal ∈ mutations t ↔ closed = true
  fixed : ∃ original, Fixed original t

section Closing

variable {mode : Mode} {left closed : Bool} {r : Repair} {t : Trace}

theorem Access.quiet {s : Step} (h : Access left closed t) (hs : s.mutation = none) :
    Access left closed (s :: t) := by
  have same : mutations (s :: t) = mutations t := by simp [mutations_cons, hs]
  exact ⟨h.disciplined.quiet hs, by rw [same]; exact h.left, by rw [same]; exact h.closed,
    by simpa only [Fixed, same] using h.fixed⟩

private theorem mutationOf_values {j : Journal} {flag : Intent} {c : Command}
    (h : mutationOf j flag = some c) (writes : c.writes = true) :
    c ∈ valuesOf j.before ∨ c ∈ valuesOf j.target := by
  cases flag <;> cases h <;> simp_all [Command.writes, valuesOf]

theorem Good.fixed {a : Bool} (h : Good mode a r t) : Fixed r.j.before t := by
  intro c hmem hw
  cases valid : r.j.backupValid with
  | false => simp [h.unwritten valid c hmem] at hw
  | true =>
    obtain ⟨flag, hflag⟩ := h.values c hmem hw
    rw [← (h.snapshot valid).1.1]
    exact mutationOf_values hflag hw

theorem Good.inside_access {a : Bool} (h : Good mode a r t) : Access false false t :=
  ⟨h.disciplined, by simp [h.notLeft], by simp [h.notSealed], r.j.before, h.fixed⟩

/-- A closing command writes nothing. -/
theorem Fixed.close {original : Dm} {s : Step} {c : Command} (h : Fixed original t)
    (hs : s.mutation = some c) (nowrite : c.writes = false) : Fixed original (s :: t) := by
  intro c' hmem hw
  rw [mutations_cons, hs] at hmem
  cases List.mem_cons.mp hmem with
  | inl new => simp [new, nowrite] at hw
  | inr old => exact h c' old hw

abbrev Ends {α : Type} (p : Backend α) (left closed : Bool) (t : Trace) : Prop :=
  p.wp recorded (fun _ t => Access left closed t) Disciplined t

theorem ends_then {α β : Type} {p : Backend α} {next : α → Backend β} {left' closed' : Bool}
    (h : Ends p left closed t) (rest : ∀ v t, Access left closed t → Ends (next v) left' closed' t) :
    Ends (p >>= next) left' closed' t :=
  Prog.wp_bind h fun v t hv => rest v t hv

theorem ends_perform {c : Call} (h : Access left closed t)
    (quiet : ∀ v, Step.mutation ⟨c, v⟩ = none) : Ends (Prog.perform c) left closed t := by
  intro v t' ht'
  rw [ht']
  exact ⟨(h.quiet (quiet v)).disciplined, h.quiet (quiet v)⟩

theorem ends_save (h : Access left closed t) (m : Mode) (r : Repair) :
    Ends (save m r) left closed t :=
  ends_then (ends_perform h fun _ => rfl) fun _ _ h => h

theorem ends_intent (h : Access left closed t) (m : Mode) (flag : Intent) (r : Repair) :
    Ends (intent m flag r) left closed t := by
  unfold intent
  split
  · exact h
  · exact ends_save h m _

theorem ends_observed (h : Access left closed t) (p : Security → Bool) (r : Repair) :
    Ends (observed p r) left closed t :=
  ends_then (ends_perform h fun _ => rfl) fun _ _ h => h

private theorem ends_exit (h : Access false false t) (r : Repair) :
    Ends (command .exitCfg r) true false t := by
  intro ok t' ht'
  rw [ht']
  have lawful : Lawful t .exitCfg := ⟨by simp [h.left], nofun⟩
  have more : Access true false (⟨.command .exitCfg, ok⟩ :: t) := by
    refine ⟨⟨fun c hc => ?_, h.disciplined⟩, ?_, ?_, h.fixed.imp fun _ f => f.close rfl rfl⟩
    · cases hc
      exact lawful
    · simp [mutations_cons, Step.mutation, Command.mutates]
    · simp [mutations_cons, Step.mutation, Command.mutates, h.closed]
  exact ⟨more.disciplined, more⟩

private theorem ends_reseal (h : Access true false t) (r : Repair) :
    Ends (command .reseal r) true true t := by
  intro ok t' ht'
  rw [ht']
  have lawful : Lawful t .reseal := ⟨by simp [h.closed], nofun⟩
  have more : Access true true (⟨.command .reseal, ok⟩ :: t) := by
    refine ⟨⟨fun c hc => ?_, h.disciplined⟩, ?_, ?_, h.fixed.imp fun _ f => f.close rfl rfl⟩
    · cases hc
      exact lawful
    · simp [mutations_cons, Step.mutation, Command.mutates, h.left]
    · simp [mutations_cons, Step.mutation, Command.mutates]
  exact ⟨more.disciplined, more⟩

theorem leave_ends (h : Access false false t) (inside : r.exited = false) :
    Ends (leave mode r) true false t := by
  simp only [leave, inside, Bool.false_eq_true, if_false]
  apply ends_then (ends_intent h mode .exit _)
  intro x t h
  exact ends_then (ends_exit h x.2) fun _ _ h => h

theorem cleanup_ends (h : Good mode true r t) : Ends (cleanup mode r) true true t := by
  simp only [cleanup, h.accessed, Bool.true_eq_false, if_false]
  apply ends_then (leave_ends h.inside_access h.inside)
  intro x t h
  apply ends_then (ends_intent h mode .seal x.2)
  intro x t h
  apply ends_then (ends_reseal h x.2)
  intro x t h
  exact ends_then (ends_observed h _ x.2) fun _ _ h => h

theorem fail_ends (h : Good mode true r t) :
    (fail mode r).wp recorded (fun result t => result = .failed ∧ Access true true t)
      Disciplined t := by
  have abandoned : Ends (abandon mode r) true true t := by
    simp only [abandon, h.accessed, if_true]
    apply Prog.wp_bind (rollback_gives h)
    intro x t hx
    exact cleanup_ends hx.1
  apply Prog.wp_bind abandoned
  intro x t h
  apply Prog.wp_bind (ends_save h mode _)
  exact fun _ t h => ⟨rfl, h⟩

theorem close_ends (h : Good mode true r t) :
    (close mode r).wp recorded (fun result t => result ≠ .rejected ∧ Access true true t)
      Disciplined t := by
  have checked : Ends (both (cleanup mode r) fun r => command (.verifyTarget r.j.target true) r)
      true true t := by
    apply ends_then (cleanup_ends h)
    intro x t h
    dsimp only
    split
    · exact ends_then (ends_perform h fun _ => rfl) fun _ _ h => h
    · exact h
  apply Prog.wp_bind checked
  intro x t h
  apply Prog.wp_bind (ends_save h mode _)
  intro y t h
  refine ⟨?_, h⟩
  split <;> nofun

end Closing

def UnsealSaved (t : Trace) : Prop :=
  ∃ mode j, (⟨.command (.journalSaveReadback mode j), true⟩ : Step) ∈ t ∧
    has j.intents .unseal = true

/-- What a finished run leaves behind. -/
structure Ended (result : Result) (t : Trace) : Prop where
  disciplined : Disciplined t
  fixed : ∃ original, Fixed original t
  closed : UnsealSaved t → Command.exitCfg ∈ mutations t ∧ Command.reseal ∈ mutations t
  rejected : result = .rejected → mutations t = []

section Run

variable {mode : Mode} {t : Trace}

def Unopened (t : Trace) : Prop := ∀ s ∈ t, s.reads = true

theorem Unopened.mutations (h : Unopened t) : mutations t = [] := by
  induction t with
  | nil => rfl
  | cons s t ih =>
    rw [mutations_read (h s (List.mem_cons_self ..))]
    exact ih fun x hx => h x (List.mem_cons_of_mem _ hx)

theorem Unopened.saves (h : Unopened t) : saves t = [] := by
  induction t with
  | nil => rfl
  | cons s t ih =>
    rw [saves_read (h s (List.mem_cons_self ..))]
    exact ih fun x hx => h x (List.mem_cons_of_mem _ hx)

theorem Unopened.disciplined (h : Unopened t) : Disciplined t := by
  induction t with
  | nil => trivial
  | cons s t ih =>
    apply (ih fun x hx => h x (List.mem_cons_of_mem _ hx)).read
    exact h s (List.mem_cons_self ..)

theorem Unopened.not_saved (h : Unopened t) : ¬ UnsealSaved t := by
  rintro ⟨m, j, hmem, _⟩
  exact absurd (h _ hmem) (by simp [Step.reads, Step.saved])

theorem Unopened.good (h : Unopened t) (mac : ByteFields.Bytes 6) :
    Good mode false { j := { mac := mac } } t where
  disciplined := h.disciplined
  accessed := rfl
  inside := rfl
  last := by simp [lastIntents, h.saves]
  bits := by simp [h.saves]
  intended := by simp [h.mutations]
  notLeft := by simp [h.mutations]
  notSealed := by simp [h.mutations]
  unwritten := by simp [h.mutations]
  snapshot := nofun
  values := by simp [h.mutations]

def Call.reads (c : Call) : Prop := ∀ v, Step.reads ⟨c, v⟩ = true

theorem uses_then {β : Type} {c : Call} {next : Answer c → Backend β} (h : c.reads)
    (rest : ∀ v, (next v).Uses Call.reads) : (Prog.perform c >>= next).Uses Call.reads :=
  Prog.Uses.bind ((Prog.uses_perform Call.reads c).mpr h) rest

theorem qualify_uses (mode : Mode) : (qualify mode).Uses Call.reads := by
  apply uses_then fun _ => rfl
  intro loaded
  split
  · trivial
  apply uses_then fun _ => rfl
  intro id
  cases id with
  | none => trivial
  | some id =>
    dsimp only
    split
    · trivial
    apply uses_then fun _ => rfl
    intro q
    cases q with
    | none => trivial
    | some q =>
      dsimp only
      split
      · trivial
      apply uses_then fun _ => rfl
      intro s
      cases s with
      | none => trivial
      | some s =>
        dsimp only
        split
        · trivial
        split
        · apply uses_then fun _ => rfl
          intro ok
          split <;> trivial
        · trivial

private theorem qualify_unopened : (qualify mode).wp recorded (fun _ t => Unopened t) Disciplined [] := by
  have keeps : ∀ (c : Call) t v t', c.reads → recorded c t v t' → Unopened t → Unopened t' := by
    rintro c t v _ allowed rfl h s hs
    cases List.mem_cons.mp hs with
    | inl new => rw [new]; exact allowed v
    | inr old => exact h s old
  have reads := (qualify_uses mode).wp keeps (nofun : Unopened [])
  exact Prog.wp_mono reads (fun _ _ h => h) fun _ h => h.disciplined

theorem announces_unseal {r : Repair} (h : Good mode false r t) (unopened : Unopened t)
    (unbacked : r.j.backupValid = false) :
    (intent mode .unseal r).wp recorded
      (fun x t => Good mode false x.2 t ∧ (x.1 = false → ¬ UnsealSaved t) ∧
        (x.1 = true → Fresh .unseal x.2 t) ∧ x.2.j.backupValid = false) Disciplined t := by
  unfold intent
  cases had : has r.j.intents .unseal with
  | true => exact ⟨h, fun _ => unopened.not_saved, nofun, unbacked⟩
  | false =>
    intro ok t' ht'
    have good := h.claim mode .unseal ok
    rw [ht']
    refine ⟨good.disciplined, good, ?_, ?_, unbacked⟩
    · rintro rfl ⟨m, j, hmem, hj⟩
      cases List.mem_cons.mp hmem with
      | inl new => cases new
      | inr old => exact unopened.not_saved ⟨m, j, old, hj⟩
    · rintro rfl
      exact h.fresh mode had

theorem run_ended (mode : Mode) : (run mode).wp recorded Ended Disciplined [] := by
  apply Prog.wp_bind qualify_unopened
  intro found t h
  cases found with
  | none =>
    exact ⟨h.disciplined, ⟨{}, by simp [Fixed, h.mutations]⟩,
      fun saved => absurd saved h.not_saved, fun _ => h.mutations⟩
  | some id =>
    have h0 : Good mode false _ t := h.good id.mac
    apply Prog.wp_bind (announces_unseal h0 h rfl)
    intro x t hx
    obtain ⟨ok, r⟩ := x
    cases ok with
    | false =>
      exact ⟨hx.1.disciplined, ⟨r.j.before, hx.1.fixed⟩,
        fun saved => absurd saved (hx.2.1 rfl), nofun⟩
    | true =>
      dsimp only at hx ⊢
      obtain ⟨good, _, fresh, unbacked⟩ := hx
      apply Prog.wp_bind (repair_gives (r := { r with accessed := true })
        { good with accessed := rfl } { fresh rfl with } unbacked)
      intro y t hy
      split
      · apply Prog.wp_mono (close_ends hy.1) _ fun _ h => h
        exact fun result t h => ⟨h.2.disciplined, h.2.fixed,
          fun _ => ⟨h.2.left.mpr rfl, h.2.closed.mpr rfl⟩,
          fun e => absurd e h.1⟩
      · apply Prog.wp_mono (fail_ends hy.1) _ fun _ h => h
        exact fun result t h => ⟨h.2.disciplined, h.2.fixed,
          fun _ => ⟨h.2.left.mpr rfl, h.2.closed.mpr rfl⟩,
          fun e => by simp [h.1] at e⟩

theorem Disciplined.lawful {newer older : Trace} {s : Step} {c : Command}
    (h : Disciplined (newer ++ s :: older)) (hs : s.mutation = some c) : Lawful older c := by
  induction newer with
  | nil => exact h.1 c hs
  | cons _ newer ih => exact ih h.2

theorem Disciplined.once (h : Disciplined t) : (mutations t).Nodup := by
  induction t with
  | nil => exact List.nodup_nil
  | cons s t ih =>
    rw [mutations_cons]
    cases hs : s.mutation with
    | none => exact ih h.2
    | some c => exact List.nodup_cons.mpr ⟨(h.1 c hs).once, ih h.2⟩

end Run

abbrev Oracle := (t : Trace) → (c : Call) → Answer c

def Oracle.machine (b : Oracle) : Machine Call Answer Trace :=
  fun c t => (some (b t c), ⟨c, b t c⟩ :: t)

def Oracle.run (b : Oracle) (mode : Mode) : Option Result × Trace :=
  (FccRepair.run mode).run b.machine []

theorem Oracle.realises (b : Oracle) : Prog.Realises b.machine recorded fun t => t where
  answered := by
    intro c t r t' h
    cases h
    rfl
  cut := nofun

/-- A machine that answers everything lets every program finish. -/
theorem Oracle.finishes {α : Type} (b : Oracle) (p : Backend α) (t : Trace) :
    ∃ value, (p.run b.machine t).1 = some value := by
  induction p generalizing t with
  | done value => exact ⟨value, rfl⟩
  | call c next ih => exact ih (b t c) _

/-- What a run did to the gauge. -/
structure Orderly (result : Result) (t : Trace) : Prop where
  once : (mutations t).Nodup
  fixed : ∃ original, Fixed original t
  lawful : ∀ newer s older c, t = newer ++ s :: older → s.mutation = some c → Lawful older c
  closed : UnsealSaved t →
    (mutations t).count .exitCfg = 1 ∧ (mutations t).count .reseal = 1
  rejected : result = .rejected → mutations t = []

/-- Whatever the backend answers, in either mode. -/
theorem run_orderly (b : Oracle) (mode : Mode) :
    ∃ result, (b.run mode).1 = some result ∧ Orderly result (b.run mode).2 := by
  obtain ⟨result, finished⟩ := b.finishes (FccRepair.run mode) []
  have ended := (Prog.wp_run b.realises (run_ended mode) trivial).2 result finished
  have once := ended.disciplined.once
  refine ⟨result, finished, once, ended.fixed, ?_, ?_, ended.rejected⟩
  · rintro newer s older c split hs
    have disciplined := ended.disciplined
    rw [show (FccRepair.run mode).run b.machine [] = b.run mode from rfl, split] at disciplined
    exact disciplined.lawful hs
  · intro saved
    have both := ended.closed saved
    exact ⟨List.count_eq_one_of_mem once both.1, List.count_eq_one_of_mem once both.2⟩

end Mosaico.Gauge.FccRepair
