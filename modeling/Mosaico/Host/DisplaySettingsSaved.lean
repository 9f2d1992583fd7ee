import Mosaico.Host.DisplaySettings

/-! A lent setting stays in RAM, and a setting that counts as saved is there after a reboot, unless a write saw
so many edits that their count came round. -/
namespace Mosaico.Host.DisplaySettings

namespace Model

variable (m : Model)

def plain : Model := { state := m.state, requestedAt := m.requestedAt, attemptedRevision := m.attemptedRevision }

@[simp] theorem plain_restore : m.restore.plain = m.plain := by
  unfold restore
  split <;> rfl

@[simp] theorem plain_expire (now : Int) (isUnsafe : Bool) : (m.expire now isUnsafe).plain = m.plain := by
  unfold expire
  split
  · exact m.plain_restore
  · rfl

theorem plain_setTemporary (field : Option String) (value : Int) (seconds : UInt32) (now : Int) :
    (m.setTemporary field value seconds now).1.plain = m.plain := by
  unfold setTemporary
  split
  · rfl
  · split
    · rfl
    · exact m.plain_expire now false

theorem plain_request (c : Config) (now : Int) : (m.request c now).plain = (m.plain.request c now).plain := by
  have lent : m.restore.state = m.plain.restore.state := by rw [restore_state, restore_state]; rfl
  unfold request
  dsimp only
  rw [lent]
  by_cases same : sanitize c = m.plain.restore.state.config ∧ m.plain.restore.state.error = 0
  · rw [if_pos same, if_pos same, plain_restore, plain_restore]
    rfl
  · rw [if_neg same, if_neg same]
    have attempted : m.restore.attemptedRevision = m.attemptedRevision := by
      unfold restore
      split <;> rfl
    unfold plain
    simp only [attempted]
    rfl

theorem plain_requestPersistentField (field : Option String) (value now : Int) :
    (m.requestPersistentField field value now).1.plain =
      (m.plain.requestPersistentField field value now).1.plain := by
  have config : m.plain.state.config = m.state.config := rfl
  unfold requestPersistentField
  rw [config]
  cases patch m.state.config field value with
  | none => rfl
  | some next => exact m.plain_request next now

theorem plain_completed (r : UInt32) (error : Int) :
    (m.completed r error).plain = (m.plain.completed r error).plain := by
  unfold completed
  by_cases success : error = 0
  · by_cases current : r = m.state.revision
    · simp [success, current, plain]
    · simp [success, current, plain]
  · by_cases current : r = m.state.revision
    · simp [success, current, plain]
    · simp [success, current, plain]

end Model

namespace System

variable (s : System)

def plain : System := { s with model := s.model.plain }

private theorem plain_with (m : Model) : (s.with m).plain = s.plain.with m.plain := rfl

theorem with_same : s.with s.model = s := by
  unfold System.with
  rw [if_pos rfl]

/-- A call that leaves all but what is lent leaves the settings. -/
theorem plain_with_lent {m : Model} (lent : m.plain = s.model.plain) : (s.with m).plain = s.plain := by
  rw [plain_with, lent]
  exact s.plain.with_same

theorem plain_attempt (allowed : Bool) (now : Int) :
    (s.attempt allowed now).plain = (s.plain.attempt allowed now).plain := by
  unfold attempt
  have due : s.plain.model.due now = s.model.due now := rfl
  have writing : s.plain.writing = s.writing := rfl
  rw [due, writing]
  split <;> rfl

theorem plain_written (error : Int) (effect : Bool) :
    (s.written error effect).plain = (s.plain.written error effect).plain := by
  have writing : s.plain.writing = s.writing := rfl
  unfold written
  rw [writing]
  cases s.writing with
  | none => rfl
  | some write =>
    have completed := s.model.plain_completed write.2 error
    unfold plain
    dsimp only
    rw [completed]

end System

def Input.temporary : Input → Bool
  | .setTemporary _ _ _ _ _ => true
  | .restoreTemporary => true
  | .saveTemporary _ _ _ => true
  | .expire _ _ => true
  | _ => false

def Input.saves : Input → Bool
  | .saveTemporary confirmed _ isUnsafe => confirmed && !isUnsafe
  | _ => false

theorem plain_step_temporary (s : System) {i : Input} (temporary : i.temporary = true) (unsaved : i.saves = false) :
    (s.step i).plain = s.plain := by
  cases i with
  | setTemporary field value seconds now isUnsafe =>
    unfold System.step System.setTemporary
    dsimp only
    split
    · exact s.plain_with_lent (s.model.plain_expire now isUnsafe)
    · apply s.plain_with_lent
      rw [Model.plain_setTemporary, Model.plain_expire]
  | restoreTemporary => exact s.plain_with_lent s.model.plain_restore
  | saveTemporary confirmed now isUnsafe =>
    unfold System.step System.saveTemporary
    dsimp only
    split
    · rfl
    · split
      · exact s.plain_with_lent (s.model.plain_expire now isUnsafe)
      · rename_i confirmed safe
        simp [Input.saves, confirmed, safe] at unsaved
  | expire now isUnsafe => exact s.plain_with_lent (s.model.plain_expire now isUnsafe)
  | _ => cases temporary

theorem plain_step (s : System) {i : Input} (persistent : i.temporary = false) :
    (s.step i).plain = (s.plain.step i).plain := by
  cases i with
  | request c now =>
    unfold System.step
    dsimp only
    rw [System.plain_with, System.plain_with, Model.plain_request]
    rfl
  | requestPersistentField field value now =>
    unfold System.step
    dsimp only
    rw [System.plain_with, System.plain_with, Model.plain_requestPersistentField]
    rfl
  | attempt allowed now => exact s.plain_attempt allowed now
  | written error effect => exact s.plain_written error effect
  | ownerFailed => rfl
  | _ => cases persistent

/-- What is lent, without a save, leaves no trace in the settings or in flash. -/
theorem plain_run (s t : System) (same : s.plain = t.plain) (inputs : List Input)
    (unsaved : ∀ i ∈ inputs, i.saves = false) :
    (s.run inputs).plain = (t.run (inputs.filter fun i => !i.temporary)).plain := by
  induction inputs generalizing s t with
  | nil => exact same
  | cons i inputs ih =>
    have later : ∀ j ∈ inputs, j.saves = false := fun j mem => unsaved j (List.mem_cons_of_mem i mem)
    by_cases temporary : i.temporary = true
    · rw [List.filter_cons_of_neg (by simp [temporary])]
      apply ih (s.step i) t _ later
      rw [plain_step_temporary s temporary (unsaved i List.mem_cons_self)]
      exact same
    · have persistent : i.temporary = false := by simpa using temporary
      rw [List.filter_cons_of_pos (by simp [persistent])]
      apply ih (s.step i) (t.step i) _ later
      rw [plain_step s persistent, plain_step t persistent, same]

section Late

/-- Two edits after which the settings are those of the second, with a revision that is two further. -/
def pair (b c : Config) : List Input := [.request b 0, .request c 0]

variable {b c : Config}

theorem request_eq {m : Model} (lent : m.leaseUntil = 0) (differs : sanitize c ≠ m.state.config) :
    m.request c 0 = { m with
      state := { m.state with config := sanitize c, revision := m.state.revision + 1, pending := true, error := 0 }
      runtimeRevision := m.runtimeRevision + 1
      requestedAt := 0 } := by
  have restored : m.restore = m := by
    unfold Model.restore
    rw [if_pos lent]
  unfold Model.request
  dsimp only
  rw [restored, if_neg (by simp [differs])]

/-- What edits alone leave: nothing lent, and the write in flight. -/
structure Editing (a : Config) (r : UInt32) (nvs : Nvs) (c : Config) (s : System) : Prop where
  lent : s.model.leaseUntil = 0
  config : s.model.state.config = c
  revision : s.model.state.revision = r
  writing : s.writing = some (a, 2)
  nvs : s.nvs = nvs

theorem editing_request {a d : Config} {r : UInt32} {nvs : Nvs} {s : System} (h : Editing a r nvs d s)
    (fixed : sanitize c = c) (differs : c ≠ d) : Editing a (r + 1) nvs c (s.step (.request c 0)) := by
  have stepped := request_eq h.lent (c := c) (by rw [fixed, h.config]; exact differs)
  change Editing a (r + 1) nvs c (s.with (s.model.request c 0))
  rw [stepped]
  constructor
  · exact h.lent
  · exact fixed
  · change s.model.state.revision + 1 = r + 1
    rw [h.revision]
  · exact h.writing
  · exact h.nvs

theorem editing_pairs {a : Config} {nvs : Nvs} (fixedB : sanitize b = b) (fixedC : sanitize c = c) (differs : b ≠ c)
    (n : Nat) {r : UInt32} {s : System} (h : Editing a r nvs c s) :
    Editing a (r + UInt32.ofNat (2 * n)) nvs c (s.run (List.replicate n (pair b c)).flatten) := by
  induction n generalizing r s with
  | zero =>
    have unmoved : r + UInt32.ofNat (2 * 0) = r := UInt32.add_zero r
    rw [unmoved]
    exact h
  | succ n ih =>
    have edited := editing_request (editing_request h fixedB differs) fixedC differs.symm
    have rest := ih edited
    have count : r + 1 + 1 + UInt32.ofNat (2 * n) = r + UInt32.ofNat (2 * (n + 1)) := by
      have two : (1 : UInt32) + 1 = UInt32.ofNat 2 := by decide
      rw [Nat.mul_succ, UInt32.ofNat_add, UInt32.add_assoc r, two, UInt32.add_assoc, UInt32.add_comm (UInt32.ofNat 2)]
    rw [count] at rest
    rw [List.replicate_succ, List.flatten_cons]
    exact rest

/-- The write ends as the revision it took along has come round. -/
theorem editing_written {a : Config} {nvs : Nvs} {s : System} (h : Editing a 2 nvs c s) (fixed : sanitize a = a)
    (other : a ≠ c) (now : Int) : rebootSaveReady ((s.written 0 true).model.snapshot now) = true ∧
      ¬Loads (s.written 0 true).nvs 80 (s.written 0 true).model.state.config := by
  have ended : s.written 0 true = { s with
      model := s.model.completed 2 0
      nvs := { nvs with config3 := some (encode a) }
      writing := none } := by
    unfold System.written
    rw [h.writing, h.nvs]
    simp only [true_or, if_true]
  have completed : s.model.completed 2 0 = { s.model with
      state := { s.model.state with savedRevision := 2, pending := false, error := 0 } } := by
    unfold Model.completed
    dsimp only
    rw [if_pos rfl]
    dsimp only
    rw [if_pos h.revision.symm]
  rw [ended, completed]
  constructor
  · simp [rebootSaveReady, Model.snapshot, h.revision]
  · obtain ⟨written, -⟩ := loads_written nvs 80 fixed
    intro loads
    obtain ⟨held, -⟩ := loads
    dsimp only at held written
    rw [written, h.config] at held
    exact other held

end Late

/-- `n` pairs of edits come while a write is in flight, after a first one. -/
def lateEdits (a b c : Config) (n : Nat) : List Input :=
  [.request a 0, .attempt true 1000000] ++ pair b c ++ (List.replicate n (pair b c)).flatten ++ [.written 0 true]

theorem lateEdits_unsaved {a b c : Config} (fixedA : sanitize a = a) (fixedB : sanitize b = b)
    (fixedC : sanitize c = c) (first : a ≠ defaults 80) (second : b ≠ a) (third : b ≠ c) (other : a ≠ c)
    {n : Nat} (round : (4 : UInt32) + UInt32.ofNat (2 * n) = 2)
    (now : Int) : rebootSaveReady (((boot {} 80 0).run (lateEdits a b c n)).model.snapshot now) = true ∧
      ¬Loads ((boot {} 80 0).run (lateEdits a b c n)).nvs 80
        ((boot {} 80 0).run (lateEdits a b c n)).model.state.config := by
  have requested : (boot {} 80 0).step (.request a 0) = { model := {
      state := { config := a, revision := 2, pending := true }, runtimeRevision := 2 }, edits := 1 } := by
    have stepped := @request_eq a (init {} 80 0) rfl (by rw [fixedA]; exact first)
    rw [fixedA] at stepped
    change (boot {} 80 0).with ((init {} 80 0).request a 0) = _
    rw [stepped]
    rfl
  have taken : Editing a 2 {} a (((boot {} 80 0).step (.request a 0)).step (.attempt true 1000000)) := by
    rw [requested]
    constructor <;> rfl
  have edited := editing_request (editing_request taken fixedB second) fixedC third.symm
  have rest := editing_pairs fixedB fixedC third n edited
  have revision : (2 : UInt32) + 1 + 1 + UInt32.ofNat (2 * n) = 2 := by
    rw [show (2 : UInt32) + 1 + 1 = 4 by decide]
    exact round
  rw [revision] at rest
  unfold lateEdits System.run
  rw [List.foldl_append, List.foldl_append, List.foldl_append]
  exact editing_written rest fixedA other now

def lentSystem : System := (boot {} 80 0).run [.setTemporary (some "lock_brightness") 30 30 0 false]

/-- `2 ^ 32` edits during one write end in a setting that counts as saved, while flash holds another; and a
rejected request drops what was lent, where the lease is over. -/
theorem late_edits_unsaved :
    (rebootSaveReady (((boot {} 80 0).run
        (lateEdits { lockBrightness := 20 } { lockBrightness := 30 }
          { lockBrightness := 40 } 2147483647)).model.snapshot 0) =
        true ∧
      ¬Loads ((boot {} 80 0).run
        (lateEdits { lockBrightness := 20 } { lockBrightness := 30 } { lockBrightness := 40 } 2147483647)).nvs 80
        ((boot {} 80 0).run
          (lateEdits { lockBrightness := 20 } { lockBrightness := 30 }
            { lockBrightness := 40 } 2147483647)).model.state.config) ∧
    ((lentSystem.setTemporary none 0 30 30000000 false).2 = false ∧
      (lentSystem.setTemporary none 0 30 30000000 false).1.model ≠ lentSystem.model) := by
  refine ⟨?_, by decide, by decide⟩
  exact lateEdits_unsaved (by decide) (by decide) (by decide) (by decide) (by decide) (by decide) (by decide)
    (by decide) 0

/-- A setting that counts as saved is there after a reboot, where no write saw `2 ^ 32` edits; what is lent
reaches the settings and flash only by a save. -/
theorem saved_survives (nvs : Nvs) (brightness readError : Int) (inputs : List Input) :
    let s := (boot nvs brightness readError).run inputs
    (∀ now, fewEdits (boot nvs brightness readError) inputs = true → rebootSaveReady (s.model.snapshot now) = true →
        Loads s.nvs brightness s.model.state.config) ∧
      (∀ later : List Input, (∀ i ∈ later, i.saves = false) →
        (s.run later).plain = (s.run (later.filter fun i => !i.temporary)).plain) ∧
      sanitize s.model.effective = s.model.effective ∧
      (∀ field value now, (s.model.requestPersistentField field value now).2 = false →
        s.step (.requestPersistentField field value now) = s) ∧
      (∀ field value seconds now isUnsafe, (s.setTemporary field value seconds now isUnsafe).2 = false →
        (s.setTemporary field value seconds now isUnsafe).1 = s.step (.expire now isUnsafe)) ∧
      ∀ c, sanitize c = c → decode (encode c) = some c := by
  intro s
  have inv : Inv brightness (fewEdits (boot nvs brightness readError) inputs = true) s :=
    inv_run (inv_boot nvs brightness readError _) inputs id
  refine ⟨?_, fun later => plain_run s s rfl later, ?_, ?_, ?_, fun c => decode_encode⟩
  · intro now few ready
    simp only [rebootSaveReady, Model.snapshot, Bool.and_eq_true, Bool.not_eq_true', beq_iff_eq] at ready
    exact inv.saved few ready.1.1 ready.1.2
  · unfold Model.effective
    split
    · exact inv.overlay
    · exact inv.config
  · intro field value now rejected
    change s.with (s.model.requestPersistentField field value now).1 = s
    rw [s.model.requestPersistentField_rejected rejected]
    exact s.with_same
  · intro field value seconds now isUnsafe rejected
    change (s.setTemporary field value seconds now isUnsafe).1 = s.with (s.model.expire now isUnsafe)
    unfold System.setTemporary at rejected ⊢
    dsimp only at rejected ⊢
    split
    · rfl
    · rename_i safe
      rw [if_neg safe] at rejected
      rw [Model.setTemporary_rejected _ rejected]

def twoEdits : List Input :=
  [.request { lockBrightness := 20 } 0, .attempt true 1000000, .request { lockBrightness := 30 } 1000000,
    .written 0 true, .attempt true 3000000, .written 0 true]

/-- A setting is changed while the one before it is written, and both are written; what is lent then reaches
neither. -/
theorem saved_survives_written : Loads ((boot {} 80 0).run twoEdits).nvs 80 { lockBrightness := 30 } ∧
    (((boot {} 80 0).run twoEdits).run
        [.setTemporary (some "lock_brightness") 40 30 4000000 false, .restoreTemporary]).plain =
      ((boot {} 80 0).run twoEdits).plain := by
  have kept := saved_survives {} 80 0 twoEdits
  refine ⟨kept.1 0 (by decide) (by decide), kept.2.1 _ fun i mem => ?_⟩
  simp only [List.mem_cons, List.not_mem_nil, or_false] at mem
  obtain rfl | rfl := mem <;> rfl

end Mosaico.Host.DisplaySettings
