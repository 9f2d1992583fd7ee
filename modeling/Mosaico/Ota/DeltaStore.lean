import Mosaico.Library.Sha256
import Mosaico.Ota.DeltaStoreModel

/-! The delta store under every interleaving of its callers: what a plan describes,
what is served for a digest, and how long it is kept. -/
namespace Mosaico.Ota.DeltaStore

open Interaction Interleaving

variable {T Sha : Type} [DecidableEq T] {hash : List UInt8 → Sha}

def Event.thread : Event T Sha → T
  | .refused t => t
  | .began t => t
  | .archived t _ _ => t
  | .generated t _ _ _ => t
  | .ended t => t
  | .planned t _ _ => t
  | .imaged t _ _ => t

def holder : List (Event T Sha) → Option T
  | [] => none
  | .began t :: _ => some t
  | .ended _ :: _ => none
  | _ :: h => holder h

def entries : List (Event T Sha) → List Sha
  | [] => []
  | .generated _ metadata _ true :: h => metadata.sha :: entries h
  | _ :: h => entries h

def lastOf (t : T) (h : List (Event T Sha)) : Option (Event T Sha) := h.find? (·.thread = t)

section Promises

variable (d : DeltaStore Sha hash)

/-- The plan's numbers and digests are those of this base, this patch and the target. -/
structure Describes (metadata : Metadata Sha) (base : Sha) (content patch : List UInt8) : Prop where
  numbers : metadata = d.describe base content patch
  target : metadata.targetSha = hash d.target
  base : hash content = base
  size : 0 < content.length ∧ content.length ≤ d.capacity
  replays : replay d.apply content patch d.target.length = some d.target
  small : 0 < patch.length ∧ patch.length ≤ maxPatchSize
  beneficial : patch.length * 100 < d.target.length * d.maxPercent

def Justified (h : List (Event T Sha)) (base : Sha) (metadata : Metadata Sha) : Prop :=
  ∃ t u content patch fresh, .archived t base content ∈ h ∧ .generated u metadata patch fresh ∈ h ∧
    d.Describes metadata base content patch

/-- The plan is justified and its patch entered the cache. -/
def Offered (h : List (Event T Sha)) (base : Sha) (metadata : Metadata Sha) : Prop :=
  d.Justified h base metadata ∧ metadata.sha ∈ entries h

/-- What each event promises, after the events before it. -/
def Allowed (h : List (Event T Sha)) : Event T Sha → Prop
  | .refused _ => (holder h).isSome = true
  | .began _ => holder h = none
  | .archived t _ _ => holder h = some t
  | .generated t metadata _ fresh => holder h = some t ∧ (fresh = true ↔ metadata.sha ∉ (entries h).take 2)
  | .ended t => holder h = some t
  | .planned t base plan =>
    (lastOf t h = some (.refused t) ↔ plan = d.full .busy) ∧
      ∀ metadata, plan = .delta metadata → d.Offered h base metadata
  | .imaged _ sha patch =>
    (∀ bytes, patch = some bytes → hash bytes = sha) ∧ (patch.isSome = true ↔ sha ∈ (entries h).take 2)

def Lawful : List (Event T Sha) → Prop
  | [] => True
  | e :: h => d.Allowed h e ∧ Lawful h

structure Inv (s : Shared T Sha) : Prop where
  lawful : d.Lawful s.history
  generating : s.generating = holder s.history
  follows : FifoCache.Follows 2 s.cache (entries s.history)
  held : ∀ e ∈ s.cache, hash e.2.2 = e.1 ∧ e.1 = e.2.1.sha ∧ d.Justified s.history e.2.1.baseSha e.2.1

structure Promise (t : T) (s s' : Shared T Sha) : Prop where
  inv : d.Inv s → d.Inv s'
  others : ∀ u, u ≠ t → (s'.generating = some u ↔ s.generating = some u)
  history : s'.history = s.history ∨ ∃ e, e.thread = t ∧ s'.history = e :: s.history

structure Relied (t : T) (s s' : Shared T Sha) : Prop where
  inv : d.Inv s → d.Inv s'
  mine : s'.generating = some t ↔ s.generating = some t
  history : ∃ more, s'.history = more ++ s.history ∧ ∀ e ∈ more, e.thread ≠ t

/-- Where a thread stands: whether it generates, and whether it was just refused. -/
structure Stands (t : T) (mine turned : Bool) (s : Shared T Sha) : Prop where
  inv : d.Inv s
  mine : s.generating = some t ↔ mine = true
  turned : lastOf t s.history = some (.refused t) ↔ turned = true

theorem Relied.refl (t : T) (s : Shared T Sha) : d.Relied t s s :=
  ⟨id, Iff.rfl, [], rfl, nofun⟩

variable {d}

theorem Relied.trans {t : T} {s₁ s₂ s₃ : Shared T Sha} (h : d.Relied t s₁ s₂) (h' : d.Relied t s₂ s₃) :
    d.Relied t s₁ s₃ := by
  obtain ⟨more, grown, foreign⟩ := h.history
  obtain ⟨later, grown', foreign'⟩ := h'.history
  refine ⟨fun inv => h'.inv (h.inv inv), h'.mine.trans h.mine, later ++ more, ?_, ?_⟩
  · rw [grown', grown, List.append_assoc]
  · intro e he
    rcases List.mem_append.mp he with old | new
    · exact foreign' e old
    · exact foreign e new

theorem Promise.relied {t u : T} {s s' : Shared T Sha} (apart : u ≠ t) (h : d.Promise t s s') :
    d.Relied u s s' := by
  refine ⟨h.inv, h.others u apart, ?_⟩
  rcases h.history with same | ⟨e, mine, grown⟩
  · exact ⟨[], same, nofun⟩
  · refine ⟨[e], grown, fun e' he => ?_⟩
    rw [List.mem_singleton.mp he, mine]
    exact apart.symm

variable (d) in
def contract (T : Type) [DecidableEq T] : Contract T (Shared T Sha) where
  guar := d.Promise
  rely := d.Relied
  idle t := d.Stands t false false
  rely_refl := Relied.refl d
  rely_trans := Relied.trans
  others := Promise.relied

end Promises

variable {d : DeltaStore Sha hash} {t : T} {mine turned : Bool} {s s' : Shared T Sha} {base : Sha}
variable {metadata : Metadata Sha} {h h' : List (Event T Sha)}

section History

omit [DecidableEq T] in
theorem entries_append (more h : List (Event T Sha)) : entries (more ++ h) = entries more ++ entries h := by
  induction more with
  | nil => rfl
  | cons e rest ih =>
    cases e with
    | generated u metadata patch fresh =>
      cases fresh with
      | true => exact congrArg (metadata.sha :: ·) ih
      | false => exact ih
    | _ => exact ih

omit [DecidableEq T] in
theorem Justified.grow (proof : d.Justified h base metadata) (more : List (Event T Sha)) :
    d.Justified (more ++ h) base metadata := by
  obtain ⟨t, u, content, patch, fresh, read, made, describes⟩ := proof
  exact ⟨t, u, content, patch, fresh, List.mem_append_right more read,
    List.mem_append_right more made, describes⟩

omit [DecidableEq T] in
theorem Offered.grow (offered : d.Offered h base metadata) (more : List (Event T Sha)) :
    d.Offered (more ++ h) base metadata := by
  refine ⟨offered.1.grow more, ?_⟩
  rw [entries_append]
  exact List.mem_append_right _ offered.2

theorem lastOf_note (s : Shared T Sha) (e : Event T Sha) :
    lastOf e.thread (s.note e).history = some e := by
  have own : decide (e.thread = e.thread) = true := decide_eq_true rfl
  exact List.find?_cons_of_pos own

private theorem lastOf_foreign {more : List (Event T Sha)} (foreign : ∀ e ∈ more, e.thread ≠ t)
    (h : List (Event T Sha)) : lastOf t (more ++ h) = lastOf t h := by
  have skipped : more.find? (·.thread = t) = none := by
    rw [List.find?_eq_none]
    intro e he
    simpa using foreign e he
  rw [lastOf, List.find?_append, skipped]
  rfl

/-- An event that neither enters a patch nor moves the generation lock. -/
theorem Inv.note {e : Event T Sha} (inv : d.Inv s) (allowed : d.Allowed s.history e)
    (plain : holder (e :: s.history) = holder s.history)
    (same : entries (e :: s.history) = entries s.history) : d.Inv (s.note e) where
  lawful := ⟨allowed, inv.lawful⟩
  generating := inv.generating.trans plain.symm
  follows := by
    have follows := inv.follows
    rw [← same] at follows
    exact follows
  held := by
    intro c hc
    have held := inv.held c hc
    exact ⟨held.1, held.2.1, held.2.2.grow [e]⟩

end History

section Steps

/-- What a thread knows of the past stays known while others act. -/
theorem stands_stable {K : List (Event T Sha) → Prop} (grows : ∀ more h, K h → K (more ++ h)) :
    Stable (d.contract T) t (fun s => d.Stands t mine turned s ∧ K s.history) := by
  intro s s' known same
  obtain ⟨more, grown, foreign⟩ := same.history
  refine ⟨⟨same.inv known.1.inv, same.mine.trans known.1.mine, ?_⟩, ?_⟩
  · rw [grown, lastOf_foreign foreign]
    exact known.1.turned
  · rw [grown]
    exact grows more _ known.2

theorem Stands.stable : Stable (d.contract T) t (d.Stands t mine turned) := by
  intro s s' stands same
  have knowing := stands_stable (K := fun _ => True) (fun _ _ => id) s s' ⟨stands, trivial⟩ same
  exact knowing.1

theorem Promise.refl (t : T) (s : Shared T Sha) : d.Promise t s s :=
  ⟨id, fun _ _ => Iff.rfl, .inl rfl⟩

/-- A step that only notes an event of its thread. -/
theorem Stands.note {e : Event T Sha} (stands : d.Stands t mine turned s) (own : e.thread = t)
    (calm : e ≠ .refused t) (inv : d.Inv (s.note e)) :
    d.Promise t s (s.note e) ∧ d.Stands t mine false (s.note e) := by
  refine ⟨⟨fun _ => inv, fun _ _ => Iff.rfl, .inr ⟨e, own, rfl⟩⟩, inv, stands.mine, ?_⟩
  have last := lastOf_note s e
  rw [own] at last
  rw [last]
  simp [calm]

theorem Inv.entered (inv : d.Inv s) {sha : Sha} (held : sha ∈ FifoCache.keys s.cache) :
    sha ∈ (entries s.history).take 2 := by
  rw [inv.follows] at held
  exact List.mem_reverse.mp held

theorem Inv.cached (inv : d.Inv s) {e : Sha × Metadata Sha × List UInt8} (he : e ∈ s.cache) :
    d.Offered s.history e.2.1.baseSha e.2.1 := by
  have held := inv.held e he
  refine ⟨held.2.2, ?_⟩
  rw [← held.2.1]
  exact List.mem_of_mem_take (inv.entered (List.mem_map_of_mem he))

variable [DecidableEq Sha]

/-- A call that leaves the state alone. -/
theorem quiet_secure {op : Op Sha} {P : Shared T Sha → Prop} (stable : Stable (d.contract T) t P) (known : P s)
    (quiet : ∀ s r s', respond t op s r s' → s' = s) :
    Secure (d.contract T) (respond t) t (perform op) (fun _ => P) s := by
  refine secure_perform stable (fun _ => stable) known ?_
  intro s known r s' step
  rw [quiet s r s' step]
  exact ⟨Promise.refl t s, known⟩

theorem lookup_secure (stands : d.Stands t false false s) (base : Sha) :
    Secure (d.contract T) (respond t) t (perform (.lookup base))
      (fun r s => d.Stands t false false s ∧ ∀ metadata, r = some metadata → d.Offered s.history base metadata)
      s := by
  have answers (r : Option (Metadata Sha)) : Stable (d.contract T) t (fun s => d.Stands t false false s ∧
      ∀ metadata, r = some metadata → d.Offered s.history base metadata) :=
    stands_stable (K := fun h => ∀ metadata, r = some metadata → d.Offered h base metadata)
      fun more h known metadata hr => (known metadata hr).grow more
  refine secure_perform Stands.stable answers stands ?_
  intro s stands r s' step
  obtain ⟨found, same⟩ := step
  rw [same]
  refine ⟨Promise.refl t s, stands, fun metadata hr => ?_⟩
  rw [found] at hr
  obtain ⟨e, hit, rfl⟩ := Option.map_eq_some_iff.mp hr
  have named := List.find?_some hit
  rw [← of_decide_eq_true named]
  exact stands.inv.cached (List.mem_of_find?_eq_some hit)

theorem acquire_secure (stands : d.Stands t false false s) :
    Secure (d.contract T) (respond t) t (perform .acquire)
      (fun ok => d.Stands t ok !ok) s := by
  refine secure_perform Stands.stable (fun _ => Stands.stable) stands ?_
  intro s stands ok s' step
  rcases step with ⟨won, free, moved⟩ | ⟨lost, taken, moved⟩
  · subst won moved
    have inv : d.Inv ({ s with generating := some t }.note (.began t)) := by
      refine ⟨⟨?_, stands.inv.lawful⟩, rfl, stands.inv.follows, ?_⟩
      · exact stands.inv.generating.symm.trans free
      · intro c hc
        have held := stands.inv.held c hc
        exact ⟨held.1, held.2.1, held.2.2.grow [.began t]⟩
    refine ⟨⟨fun _ => inv, ?_, .inr ⟨_, rfl, rfl⟩⟩, inv, by simp [Shared.note], ?_⟩
    · intro u apart
      simp [Shared.note, free, Ne.symm apart]
    · have last : lastOf t (({ s with generating := some t } : Shared T Sha).note (.began t)).history =
          some (.began t) := lastOf_note _ (.began t)
      rw [last]
      simp
  · subst lost moved
    have busy : (holder s.history).isSome = true := by
      rw [← stands.inv.generating]
      exact Option.isSome_iff_ne_none.mpr taken
    have inv := stands.inv.note (e := .refused t) busy rfl rfl
    refine ⟨⟨fun _ => inv, fun _ _ => Iff.rfl, .inr ⟨_, rfl, rfl⟩⟩, inv, stands.mine, ?_⟩
    have last : lastOf t (s.note (.refused t)).history = some (.refused t) := lastOf_note s (.refused t)
    rw [last]
    simp

theorem read_secure (stands : d.Stands t true false s) (dir : String) (base : Sha) (limit : Nat) :
    Secure (d.contract T) (respond t) t (perform (.read dir base limit))
      (fun r s => d.Stands t true false s ∧ ∀ taken, r = some taken →
        ∃ content, taken = content.take limit ∧ .archived t base content ∈ s.history) s := by
  have answers (r : Option (List UInt8)) : Stable (d.contract T) t (fun s => d.Stands t true false s ∧
      ∀ taken, r = some taken → ∃ content, taken = content.take limit ∧
        .archived t base content ∈ s.history) := by
    refine stands_stable (K := fun h => ∀ taken, r = some taken →
      ∃ content, taken = content.take limit ∧ .archived t base content ∈ h) ?_
    intro more h known taken hr
    obtain ⟨content, cut, read⟩ := known taken hr
    exact ⟨content, cut, List.mem_append_right more read⟩
  refine secure_perform Stands.stable answers stands ?_
  intro s stands r s' step
  rcases step with ⟨failed, same⟩ | ⟨content, got, moved⟩
  · subst failed same
    exact ⟨Promise.refl t _, stands, nofun⟩
  · subst got moved
    have mine : holder s.history = some t := stands.inv.generating.symm.trans (stands.mine.mpr rfl)
    have inv := stands.inv.note (e := .archived t base content) mine rfl rfl
    have noted := stands.note (e := .archived t base content) rfl nofun inv
    refine ⟨noted.1, noted.2, ?_⟩
    intro taken hr
    cases hr
    exact ⟨content, rfl, List.mem_cons_self⟩

theorem keep_secure {content patch : List UInt8} (describes : d.Describes metadata base content patch)
    (known : d.Stands t true false s ∧ .archived t base content ∈ s.history) :
    Secure (d.contract T) (respond t) t (perform (.keep metadata patch))
      (fun _ s => d.Stands t true false s ∧ d.Offered s.history base metadata) s := by
  have stable : Stable (d.contract T) t
      (fun s => d.Stands t true false s ∧ .archived t base content ∈ s.history) :=
    stands_stable (K := fun h => .archived t base content ∈ h) fun more _ => List.mem_append_right more
  have answers : Stable (d.contract T) t
      (fun s => d.Stands t true false s ∧ d.Offered s.history base metadata) :=
    stands_stable (K := fun h => d.Offered h base metadata) fun more _ offered => offered.grow more
  refine secure_perform stable (fun _ => answers) known ?_
  intro s known _ s' step
  obtain ⟨stands, read⟩ := known
  have inv := stands.inv
  have mine : holder s.history = some t := inv.generating.symm.trans (stands.mine.mpr rfl)
  obtain ⟨fresh, hfresh⟩ : ∃ fresh, fresh = decide (metadata.sha ∉ FifoCache.keys s.cache) := ⟨_, rfl⟩
  have new : fresh = true ↔ metadata.sha ∉ (entries s.history).take 2 := by
    rw [hfresh, decide_eq_true_iff, inv.follows, List.mem_reverse]
  have entered : entries (.generated t metadata patch fresh :: s.history) =
      FifoCache.enter 2 metadata.sha (entries s.history) := by
    rw [FifoCache.enter]
    cases fresh with
    | true => rw [if_neg (new.mp rfl)]; rfl
    | false => rw [if_pos (by_contra fun out => Bool.false_ne_true (new.mpr out))]; rfl
  have justified : d.Justified (.generated t metadata patch fresh :: s.history) base metadata :=
    ⟨t, t, content, patch, fresh, List.mem_cons_of_mem _ read, List.mem_cons_self, describes⟩
  have moved : s' = ({ s with cache := FifoCache.insert 2 metadata.sha (metadata, patch) s.cache } :
      Shared T Sha).note (.generated t metadata patch fresh) := by
    rw [hfresh]
    exact step
  have inv' : d.Inv s' := by
    rw [moved]
    refine ⟨⟨⟨mine, new⟩, inv.lawful⟩, inv.generating, ?_, ?_⟩
    · have follows := inv.follows.insert metadata.sha (metadata, patch)
      rw [← entered] at follows
      exact follows
    · intro c hc
      rcases FifoCache.mem_insert hc with same | old
      · rw [same]
        have numbers := describes.numbers
        refine ⟨by rw [numbers]; rfl, rfl, ?_⟩
        rw [show metadata.baseSha = base by rw [numbers]; rfl]
        exact justified
      · have held := inv.held c old
        exact ⟨held.1, held.2.1, held.2.2.grow [_]⟩
  have last : lastOf t s'.history = some (.generated t metadata patch fresh) := by
    rw [moved]
    exact lastOf_note _ (.generated t metadata patch fresh)
  have grown : s'.history = .generated t metadata patch fresh :: s.history := by rw [moved]; rfl
  refine ⟨⟨fun _ => inv', ?_, .inr ⟨_, rfl, grown⟩⟩, ⟨inv', ?_, ?_⟩, ?_, ?_⟩
  · intro u _
    rw [moved]
    exact Iff.rfl
  · rw [moved]
    exact stands.mine
  · rw [last]
    simp
  · rw [grown]
    exact justified
  · rw [grown, entered, FifoCache.enter]
    split
    · rename_i held
      exact List.mem_of_mem_take held
    · exact List.mem_cons_self

theorem release_secure {K : List (Event T Sha) → Prop} (grows : ∀ more h, K h → K (more ++ h))
    (known : d.Stands t true false s ∧ K s.history) :
    Secure (d.contract T) (respond t) t (perform .release)
      (fun _ s => d.Stands t false false s ∧ K s.history) s := by
  refine secure_perform (stands_stable grows) (fun _ => stands_stable grows) known ?_
  intro s known _ s' step
  obtain ⟨stands, holds⟩ := known
  rw [show s' = ({ s with generating := none } : Shared T Sha).note (.ended t) from step]
  have mine := stands.inv.generating.symm.trans (stands.mine.mpr rfl)
  have inv : d.Inv (({ s with generating := none } : Shared T Sha).note (.ended t)) := by
    refine ⟨⟨mine, stands.inv.lawful⟩, rfl, stands.inv.follows, ?_⟩
    intro c hc
    have held := stands.inv.held c hc
    exact ⟨held.1, held.2.1, held.2.2.grow [.ended t]⟩
  have last : lastOf t (({ s with generating := none } : Shared T Sha).note (.ended t)).history =
      some (.ended t) := lastOf_note _ (.ended t)
  refine ⟨⟨fun _ => inv, ?_, .inr ⟨_, rfl, rfl⟩⟩, ⟨inv, by simp [Shared.note], ?_⟩, grows [.ended t] _ holds⟩
  · intro u apart
    simp [Shared.note, stands.mine.mpr rfl, Ne.symm apart]
  · rw [last]
    simp

theorem fetch_secure (stands : d.Stands t false false s) (sha : Sha) :
    Secure (d.contract T) (respond t) t (perform (.fetch sha)) (fun _ => d.Stands t false false) s := by
  refine secure_perform Stands.stable (fun _ => Stands.stable) stands ?_
  intro s stands r s' step
  obtain ⟨found, moved⟩ := step
  have allowed : d.Allowed s.history (.imaged t sha r) := by
    constructor
    · intro bytes hr
      rw [found] at hr
      obtain ⟨value, hit, rfl⟩ := Option.map_eq_some_iff.mp hr
      exact (stands.inv.held _ (FifoCache.get_mem hit)).1
    · rw [found, Option.isSome_map]
      exact stands.inv.follows.get_isSome sha
  rw [moved]
  exact stands.note rfl nofun (stands.inv.note allowed rfl rfl)

theorem answer_secure {plan : Plan Sha} (known : d.Stands t false (plan = d.full .busy) s ∧
      ∀ metadata, plan = .delta metadata → d.Offered s.history base metadata) :
    Secure (d.contract T) (respond t) t (perform (.answer base plan)) (fun _ => d.Stands t false false) s := by
  have stable : Stable (d.contract T) t (fun s => d.Stands t false (plan = d.full .busy) s ∧
      ∀ metadata, plan = .delta metadata → d.Offered s.history base metadata) :=
    stands_stable (K := fun h => ∀ metadata, plan = .delta metadata → d.Offered h base metadata)
      fun more _ known metadata hp => (known metadata hp).grow more
  refine secure_perform stable (fun _ => Stands.stable) known ?_
  intro s known _ s' moved
  obtain ⟨stands, offers⟩ := known
  have allowed : d.Allowed s.history (.planned t base plan) :=
    ⟨stands.turned.trans decide_eq_true_iff, offers⟩
  rw [show s' = s.note (.planned t base plan) from moved]
  exact stands.note rfl nofun (stands.inv.note allowed rfl rfl)

end Steps

section Programs

variable [DecidableEq Sha]

variable (d) in
/-- What a thread that was not refused may return. -/
def Outcome (base : Sha) (r : Option (Plan Sha)) (h : List (Event T Sha)) : Prop :=
  r ≠ some (d.full .busy) ∧ ∀ metadata, r = some (.delta metadata) → d.Offered h base metadata

omit [DecidableEq T] [DecidableEq Sha] in
theorem Outcome.grow {r : Option (Plan Sha)} (more h : List (Event T Sha)) (outcome : d.Outcome base r h) :
    d.Outcome base r (more ++ h) :=
  ⟨outcome.1, fun metadata hr => (outcome.2 metadata hr).grow more⟩

omit [DecidableEq T] [DecidableEq Sha] in
theorem outcome_full (reason : Reason) (other : reason ≠ .busy) (h : List (Event T Sha)) :
    d.Outcome base (some (d.full reason)) h := by
  refine ⟨fun same => ?_, nofun⟩
  injection same with same
  injection same with _ same
  exact other same

private theorem full_secure {reason : Reason} (other : reason ≠ .busy) (stands : d.Stands t mine false s) :
    Secure (d.contract T) (respond t) t (pure (d.full reason))
      (fun plan s => d.Stands t mine false s ∧ d.Outcome base (some plan) s.history) s :=
  secure_pure (stands_stable Outcome.grow) ⟨stands, outcome_full reason other s.history⟩

omit [DecidableEq T] [DecidableEq Sha] in
private theorem createVerifiedPatch_replays {apply : List UInt8 → List UInt8 → Option (List StreamCall)}
    {created : Option (List StreamCall)} {base target patch : List UInt8}
    (made : createVerifiedPatch apply created base target = some patch) :
    replay apply base patch target.length = some target := by
  obtain ⟨calls, _, made⟩ := Option.bind_eq_some_iff.mp made
  obtain ⟨bytes, _, made⟩ := Option.bind_eq_some_iff.mp made
  obtain ⟨replayed, same, made⟩ := Option.bind_eq_some_iff.mp made
  split at made
  · cases made
  · rename_i equal
    cases made
    rw [same, not_not.mp equal]

theorem makePatch_secure {content : List UInt8} (known : d.Stands t true false s ∧
      .archived t base content ∈ s.history) :
    Secure (d.contract T) (respond t) t (d.makePatch base (content.take (d.capacity + 1)))
      (fun plan s => d.Stands t true false s ∧ d.Outcome base (some plan) s.history) s := by
  have stable : Stable (d.contract T) t
      (fun s => d.Stands t true false s ∧ .archived t base content ∈ s.history) :=
    stands_stable (K := fun h => .archived t base content ∈ h) fun more _ => List.mem_append_right more
  rw [makePatch]
  split
  · exact full_secure nofun known.1
  · rename_i valid
    have size : 0 < content.length ∧ content.length ≤ d.capacity := by
      rw [List.length_take] at valid
      omega
    have whole : content.take (d.capacity + 1) = content := List.take_of_length_le (by omega)
    rw [whole] at valid ⊢
    have named : hash content = base := by_contra fun other => valid (Or.inr (Or.inr other))
    refine secure_bind (quiet_secure stable known fun _ _ _ step => step) ?_
    intro created s known
    cases made : createVerifiedPatch d.apply created content d.target with
    | none => exact full_secure nofun known.1
    | some patch =>
      dsimp only
      split
      · exact full_secure nofun known.1
      · rename_i useful
        have describes : d.Describes (d.describe base content patch) base content patch :=
          { numbers := rfl, target := d.sha_eq, base := named, size := size,
            replays := createVerifiedPatch_replays made, small := by omega, beneficial := by omega }
        refine secure_bind (keep_secure describes known) ?_
        intro _ s kept
        refine secure_pure (stands_stable Outcome.grow) ⟨kept.1, nofun, fun metadata same => ?_⟩
        injection same with same
        injection same with same
        rw [← same]
        exact kept.2

theorem generate_secure (stands : d.Stands t true false s) (base : Sha) :
    Secure (d.contract T) (respond t) t (d.generate base)
      (fun r s => d.Stands t true false s ∧ d.Outcome base r s.history) s := by
  have unknown {s : Shared T Sha} (stands : d.Stands t true false s) :
      Secure (d.contract T) (respond t) t (pure (some (d.full .unknownBase)))
        (fun r s => d.Stands t true false s ∧ d.Outcome base r s.history) s :=
    secure_pure (stands_stable Outcome.grow) ⟨stands, outcome_full .unknownBase nofun s.history⟩
  rw [generate]
  cases d.baseDir with
  | none => exact unknown stands
  | some dir =>
    refine secure_bind (quiet_secure Stands.stable stands fun _ _ _ step => step) ?_
    intro located s stands
    cases located with
    | none => exact secure_pure (stands_stable Outcome.grow) ⟨stands, nofun, nofun⟩
    | some direct =>
      cases direct with
      | false => exact unknown stands
      | true =>
        refine secure_bind (read_secure stands dir base (d.capacity + 1)) ?_
        intro r s known
        cases r with
        | none => exact unknown known.1
        | some taken =>
          obtain ⟨content, cut, read⟩ := known.2 taken rfl
          rw [cut]
          refine secure_bind (makePatch_secure ⟨known.1, read⟩) ?_
          intro plan s outcome
          exact secure_pure (stands_stable Outcome.grow) outcome

/-- A plan says busy exactly if the generation lock was refused, and else is an honest outcome. -/
theorem plan_secure (stands : d.Stands t false false s) (base : Sha) :
    Secure (d.contract T) (respond t) t (d.plan base)
      (fun r s => d.Stands t false (r = some (d.full .busy)) s ∧
        ∀ metadata, r = some (.delta metadata) → d.Offered s.history base metadata) s := by
  have stable (r : Option (Plan Sha)) : Stable (d.contract T) t
      (fun s => d.Stands t false (r = some (d.full .busy)) s ∧
        ∀ metadata, r = some (.delta metadata) → d.Offered s.history base metadata) :=
    stands_stable (K := fun h => ∀ metadata, r = some (.delta metadata) → d.Offered h base metadata)
      fun more _ known metadata hp => (known metadata hp).grow more
  have settled {r : Option (Plan Sha)} {s : Shared T Sha}
      (known : d.Stands t false false s ∧ d.Outcome base r s.history) :
      Secure (d.contract T) (respond t) t (pure r)
        (fun r s => d.Stands t false (r = some (d.full .busy)) s ∧
          ∀ metadata, r = some (.delta metadata) → d.Offered s.history base metadata) s := by
    refine secure_pure (stable r) ⟨?_, known.2.2⟩
    rw [decide_eq_false known.2.1]
    exact known.1
  rw [plan]
  split
  · exact settled ⟨stands, outcome_full .disabled nofun s.history⟩
  · split
    · exact settled ⟨stands, outcome_full .sameImage nofun s.history⟩
    · refine secure_bind (lookup_secure stands base) ?_
      intro found s known
      cases found with
      | some metadata =>
        refine settled ⟨known.1, nofun, fun other same => ?_⟩
        injection same with same
        injection same with same
        exact known.2 other (congrArg some same)
      | none =>
        refine secure_bind (acquire_secure known.1) ?_
        intro ok s stands
        cases ok with
        | false => exact secure_pure (stable _) ⟨by simpa using stands, nofun⟩
        | true =>
          refine secure_bind (generate_secure stands base) ?_
          intro r s outcome
          refine secure_bind (release_secure Outcome.grow outcome) ?_
          intro _ s known
          exact settled known

private theorem serve_secure (stands : d.Stands t false false s) (q : Request Sha) :
    Secure (d.contract T) (respond t) t (d.serve q) (fun _ => d.Stands t false false) s := by
  cases q with
  | plan base =>
    refine secure_bind (plan_secure stands base) ?_
    intro r s known
    cases r with
    | none => exact secure_pure Stands.stable (by simpa using known.1)
    | some plan =>
      refine answer_secure ⟨by simpa using known.1, fun metadata same => ?_⟩
      exact known.2 metadata (congrArg some same)
  | image sha =>
    refine secure_bind (fetch_secure stands sha) ?_
    intro _ s stands
    exact secure_pure Stands.stable stands

theorem respects (d : DeltaStore Sha hash) (T : Type) [DecidableEq T] :
    Respects (d.system T) (d.contract T) where
  stable _ := Stands.stable
  entry := by
    rintro t p s ⟨q, rfl⟩ stands
    exact serve_secure stands q

end Programs

section Runs

theorem Lawful.suffix {history : List (Event T Sha)} (lawful : d.Lawful history)
    (past : h <:+ history) : d.Lawful h := by
  induction history with
  | nil =>
    rw [List.suffix_nil.mp past]
    exact lawful
  | cons first rest ih =>
    rcases List.suffix_cons_iff.mp past with same | older
    · rw [same]
      exact lawful
    · exact ih lawful.2 older

/-- What was offered in a plan has entered before. -/
theorem Lawful.offered {history : List (Event T Sha)} (lawful : d.Lawful history) {u : T}
    (planned : .planned u base (.delta metadata) ∈ history) : metadata.sha ∈ entries history := by
  obtain ⟨after, before, split⟩ := List.append_of_mem planned
  have allowed := (lawful.suffix ⟨after, split.symm⟩).1
  rw [split, entries_append]
  exact List.mem_append_right (entries after) (allowed.2 metadata rfl).2

variable [DecidableEq Sha] {c : Config (Op Sha) Result (Shared T Sha) T}

/-- Files and a codec that answer the same at every time. -/
def environment (archive : Sha → Option (List UInt8)) (create : List UInt8 → List UInt8 → Option (List StreamCall))
    (t : T) : Machine (Op Sha) Result (Shared T Sha)
  | .lookup base, s => (some ((s.cache.find? (·.2.1.baseSha = base)).map (·.2.1)), s)
  | .acquire, s =>
    match s.generating with
    | none => (some true, ({ s with generating := some t } : Shared T Sha).note (.began t))
    | some _ => (some false, s.note (.refused t))
  | .resolve .., s => (some (some true), s)
  | .read _ base limit, s =>
    match archive base with
    | none => (some none, s)
    | some content => (some (some (content.take limit)), s.note (.archived t base content))
  | .createPatch base target, s => (some (create base target), s)
  | .keep metadata patch, s =>
    (some (), ({ s with cache := FifoCache.insert 2 metadata.sha (metadata, patch) s.cache } : Shared T Sha).note
      (.generated t metadata patch (metadata.sha ∉ FifoCache.keys s.cache)))
  | .release, s => (some (), ({ s with generating := none } : Shared T Sha).note (.ended t))
  | .fetch sha, s =>
    (some ((FifoCache.get sha s.cache).map Prod.snd),
      s.note (.imaged t sha ((FifoCache.get sha s.cache).map Prod.snd)))
  | .answer base plan, s => (some (), s.note (.planned t base plan))

end Runs

section Renewed

/-- A release of ten bytes, three archived bases and patches that repeat their base. -/
def release : DeltaStore Sha256.Digest Sha256.sha256 where
  target := List.replicate 10 0
  sha := Sha256.sha256 (List.replicate 10 0)
  sha_eq := rfl
  capacity := 16
  enabled := true
  baseDir := some "ota-bases"
  maxPercent := 60
  percent := by decide
  apply base patch := if patch = base then some [.write (List.replicate 10 0)] else none

def archive (sha : Sha256.Digest) : Option (List UInt8) :=
  [[1], [2], [3]].find? fun content => Sha256.sha256 content = sha

def plans (t : Bool) (base : UInt8) : List (Turn Bool (Request Sha256.Digest)) :=
  .ask t (.plan (Sha256.sha256 [base])) :: List.replicate 9 (.go t)

/-- One thread misses the cache for the first base and is overtaken by plans for the first and
the second; its own plan renews the first patch, and a plan for the third evicts it. -/
def overtaken : List (Turn Bool (Request Sha256.Digest)) :=
  .ask false (.plan (Sha256.sha256 [1])) :: .go false :: plans true 1 ++ plans true 2 ++
    List.replicate 8 (.go false) ++ plans true 3 ++ [.ask true (.image (Sha256.sha256 [1])), .go true]

def last : Config (Op Sha256.Digest) Result (Shared Bool Sha256.Digest) Bool :=
  overtaken.foldl (Config.turn (environment archive fun base _ => some [.write base]) release.serve)
    ⟨{}, fun _ => none⟩

def made (base : UInt8) : Metadata Sha256.Digest :=
  release.describe (Sha256.sha256 [base]) [base] [base]

def generation (t : Bool) (base : UInt8) (fresh : Bool) : List (Event Bool Sha256.Digest) :=
  [.planned t (Sha256.sha256 [base]) (.delta (made base)), .ended t, .generated t (made base) [base] fresh,
    .archived t (Sha256.sha256 [base]) [base], .began t]

end Renewed

end Mosaico.Ota.DeltaStore
