import Mosaico.Host.DisplaySettingsModel
import Mosaico.Library.RecordLayout

/-! A configuration and its blob, and what a display setting that counts as saved is after a reboot. -/
namespace Mosaico.Host.DisplaySettings

open ByteFields RecordLayout

variable {c : Config}

private theorem clampBrightness_idem (b : UInt8) : clampBrightness (clampBrightness b) = clampBrightness b := by
  unfold clampBrightness
  by_cases low : b < 10
  · rw [if_pos low]
    decide
  · by_cases high : 100 < b
    · rw [if_neg low, if_pos high]
      decide
    · simp only [if_neg low, if_neg high]

theorem sanitize_sanitize (c : Config) : sanitize (sanitize c) = sanitize c := by
  have wifi : validLockMinutes (if validLockMinutes c.lockWifiMinutes then c.lockWifiMinutes else 5) = true := by
    split
    · assumption
    · decide
  have ble : validLockMinutes (if validLockMinutes c.lockBleMinutes then c.lockBleMinutes else 1) = true := by
    split
    · assumption
    · decide
  have charge : validChargeTimeout (if validChargeTimeout c.chargeTimeoutSeconds
      then c.chargeTimeoutSeconds else 60) = true := by
    split
    · assumption
    · decide
  have battery :
      validBatteryTimeout (if validBatteryTimeout c.batteryTimeoutSeconds then c.batteryTimeoutSeconds
        else 60) = true := by
    split
    · assumption
    · decide
  have lock : ¬100 < (if 100 < c.lockBrightness then 100 else c.lockBrightness) := by
    split
    · decide
    · assumption
  unfold sanitize
  dsimp only
  rw [if_pos wifi, if_pos ble, if_pos charge, if_pos battery, if_neg lock, clampBrightness_idem, clampBrightness_idem]

theorem sanitize_defaults (brightness : Int) : sanitize (defaults brightness) = defaults brightness := by
  unfold defaults
  split
  · rename_i range
    have value : (UInt8.ofNat brightness.toNat).toNat = brightness.toNat :=
      UInt8.toNat_ofNat_of_lt (show brightness.toNat < 256 by omega)
    have low : ¬UInt8.ofNat brightness.toNat < 10 := by
      rw [UInt8.lt_iff_toNat_lt, value]
      change ¬brightness.toNat < 10
      omega
    have high : ¬100 < UInt8.ofNat brightness.toNat := by
      rw [UInt8.lt_iff_toNat_lt, value]
      change ¬100 < brightness.toNat
      omega
    simp only [sanitize, clampBrightness, if_neg low, if_neg high]
    rfl
  · decide

theorem sanitize_patch {next : Config} {field : Option String} {value : Int} (h : patch c field value = some next) :
    sanitize next = next := by
  unfold patch at h
  split at h
  · cases h
  · split at h
    · cases h
    · split at h
      · cases h
      · split at h
        · rename_i fixed
          rw [← Option.some.inj h]
          exact fixed
        · cases h

def layout (c : Config) : Layout :=
  [(4, magic), (1, 3), (1, Config.bit c.burnIn), (1, c.chargeBrightness.toNat), (1, c.batteryBrightness.toNat),
    (1, c.lockBrightness.toNat), (1, c.lockWifiMinutes.toNat), (1, c.lockBleMinutes.toNat),
    (1, Config.bit c.smartKeepalive), (4, c.chargeTimeoutSeconds.toNat), (4, c.batteryTimeoutSeconds.toNat)]

theorem encode_eq (c : Config) : encode c = closeCrc (record 24 (layout c)) 20 := by
  unfold encode
  dsimp only
  rw [record_nil, put_next magic 4 (by simp), put_next 3 1 (by simp), put_next _ 1 (by simp), put_next _ 1 (by simp),
    put_next _ 1 (by simp), put_next _ 1 (by simp), put_next _ 1 (by simp), put_next _ 1 (by simp),
    put_next _ 1 (by simp), put_next _ 4 (by simp), put_next _ 4 (by simp)]
  rfl

private theorem bit_lt (b : Bool) : Config.bit b < 256 ^ 1 := by cases b <;> decide

theorem layout_fits (c : Config) : Fits (layout c) := by
  simp only [layout, fits_cons, fits_nil, and_true]
  exact ⟨by decide, by decide, bit_lt _, c.chargeBrightness.toNat_lt, c.batteryBrightness.toNat_lt,
    c.lockBrightness.toNat_lt, c.lockWifiMinutes.toNat_lt, c.lockBleMinutes.toNat_lt, bit_lt _,
    c.chargeTimeoutSeconds.toNat_lt, c.batteryTimeoutSeconds.toNat_lt⟩

private theorem byte_bit {v : UInt8} {b : Bool} (h : v.toNat = Config.bit b) : v = if b then 1 else 0 := by
  apply UInt8.toNat_inj.mp
  rw [h]
  cases b <;> rfl

/-- The bytes of an encoded configuration, as `decode` reads them. -/
theorem encode_fields (c : Config) : get (encode c) 0 4 = magic ∧ byteAt (encode c) 4 = 3 ∧
    byteAt (encode c) 5 = (if c.burnIn then 1 else 0) ∧ byteAt (encode c) 6 = c.chargeBrightness ∧
    byteAt (encode c) 7 = c.batteryBrightness ∧ byteAt (encode c) 8 = c.lockBrightness ∧
    byteAt (encode c) 9 = c.lockWifiMinutes ∧ byteAt (encode c) 10 = c.lockBleMinutes ∧
    byteAt (encode c) 11 = (if c.smartKeepalive then 1 else 0) ∧ get (encode c) 12 4 = c.chargeTimeoutSeconds.toNat ∧
    get (encode c) 16 4 = c.batteryTimeoutSeconds.toNat ∧ crcMatches (encode c) 20 = true := by
  have values := getAll_closeCrc (n := 24) (c := 20) (layout_fits c) (by simp [layout]) (by omega)
  rw [← encode_eq] at values
  have checksum : crcMatches (encode c) 20 = true := by
    rw [encode_eq]
    exact crcMatches_closeCrc _ _ (by omega)
  generalize encode c = b at values checksum
  have three : (3 : Nat) = (3 : UInt8).toNat := rfl
  simp only [layout, widths, List.map_cons, List.map_nil, getAll, Nat.zero_add, Nat.reduceAdd,
    List.cons.injEq, and_true, get_one, three, UInt8.toNat_inj] at values
  obtain ⟨magic, version, burnIn, charge, battery, lock, wifi, ble, keepalive, chargeTime, batteryTime⟩ := values
  exact ⟨magic, version, byte_bit burnIn, charge, battery, lock, wifi, ble, byte_bit keepalive,
    chargeTime, batteryTime, checksum⟩

theorem decode_encode (fixed : sanitize c = c) : decode (encode c) = some c := by
  obtain ⟨magic, version, burnIn, charge, battery, lock, wifi, ble, keepalive, chargeTime, batteryTime, checksum⟩ :=
    encode_fields c
  unfold decode
  rw [magic, version, burnIn, charge, battery, lock, wifi, ble, keepalive, chargeTime, batteryTime, checksum,
    UInt32.ofNat_toNat, UInt32.ofNat_toNat, if_neg]
  · have burn : ((if c.burnIn = true then (1 : UInt8) else 0) != 0) = c.burnIn := by cases c.burnIn <;> rfl
    have keep : ((if c.smartKeepalive = true then (1 : UInt8) else 0) != 0) = c.smartKeepalive := by
      cases c.smartKeepalive <;> rfl
    dsimp only
    rw [burn, keep, if_pos (show (2 : UInt8) ≤ 3 by decide), if_pos rfl, if_pos fixed]
  · have burn : ¬1 < (if c.burnIn = true then (1 : UInt8) else 0) := by cases c.burnIn <;> decide
    have keep : ¬1 < (if c.smartKeepalive = true then (1 : UInt8) else 0) := by cases c.smartKeepalive <;> decide
    simp [burn, keep]


/-- What a call on the settings does to their state: nothing, or one edit. -/
def Edited (a b : Snapshot) : Prop :=
  b = a ∨ ∃ c, sanitize c = c ∧ b = { a with config := c, revision := a.revision + 1, pending := true, error := 0 }

namespace Model

variable (m : Model)

@[simp] theorem restore_state : m.restore.state = m.state := by
  unfold restore
  split <;> rfl

@[simp] theorem restore_overlay : m.restore.overlay = m.overlay := by
  unfold restore
  split <;> rfl

@[simp] theorem expire_state (now : Int) (isUnsafe : Bool) : (m.expire now isUnsafe).state = m.state := by
  unfold expire
  split
  · exact m.restore_state
  · rfl

@[simp] theorem expire_overlay (now : Int) (isUnsafe : Bool) : (m.expire now isUnsafe).overlay = m.overlay := by
  unfold expire
  split
  · exact m.restore_overlay
  · rfl

theorem request_state (c : Config) (now : Int) : Edited m.state (m.request c now).state := by
  unfold request
  dsimp only
  rw [restore_state]
  split
  · exact Or.inl m.restore_state
  · exact Or.inr ⟨sanitize c, sanitize_sanitize c, rfl⟩

@[simp] theorem request_overlay (c : Config) (now : Int) : (m.request c now).overlay = m.overlay := by
  unfold request
  dsimp only
  split <;> exact m.restore_overlay

theorem requestPersistentField_state (field : Option String) (value now : Int) :
    Edited m.state (m.requestPersistentField field value now).1.state := by
  unfold requestPersistentField
  split
  · exact Or.inl rfl
  · exact m.request_state _ now

@[simp] theorem requestPersistentField_overlay (field : Option String) (value now : Int) :
    (m.requestPersistentField field value now).1.overlay = m.overlay := by
  unfold requestPersistentField
  split
  · rfl
  · exact m.request_overlay _ now

theorem requestPersistentField_rejected {field : Option String} {value now : Int}
    (h : (m.requestPersistentField field value now).2 = false) :
    (m.requestPersistentField field value now).1 = m := by
  unfold requestPersistentField at h ⊢
  split at h
  · rfl
  · cases h

@[simp] theorem setTemporary_state (field : Option String) (value : Int) (seconds : UInt32) (now : Int) :
    (m.setTemporary field value seconds now).1.state = m.state := by
  unfold setTemporary
  split
  · rfl
  · split
    · rfl
    · exact m.expire_state now false

theorem setTemporary_overlay (fixed : sanitize m.overlay = m.overlay) (field : Option String) (value : Int)
    (seconds : UInt32) (now : Int) : sanitize (m.setTemporary field value seconds now).1.overlay =
      (m.setTemporary field value seconds now).1.overlay := by
  unfold setTemporary
  split
  · exact fixed
  · split
    · exact fixed
    · rename_i patched
      exact sanitize_patch patched

theorem setTemporary_rejected {field : Option String} {value : Int} {seconds : UInt32} {now : Int}
    (h : (m.setTemporary field value seconds now).2 = false) : (m.setTemporary field value seconds now).1 = m := by
  unfold setTemporary at h ⊢
  split at h
  · rw [if_pos (by assumption)]
  · rw [if_neg (by assumption)]
    split at h
    · rfl
    · cases h

theorem saveTemporary_state (confirmed : Bool) (now : Int) :
    Edited m.state (m.saveTemporary confirmed now).1.state := by
  unfold saveTemporary
  split
  · exact Or.inl rfl
  · have edited := (m.expire now false).request_state (m.expire now false).effective now
    rw [expire_state] at edited
    exact edited

@[simp] theorem saveTemporary_overlay (confirmed : Bool) (now : Int) :
    (m.saveTemporary confirmed now).1.overlay = m.overlay := by
  unfold saveTemporary
  split
  · rfl
  · exact ((m.expire now false).request_overlay _ now).trans (m.expire_overlay now false)

end Model

/-- The write of revision `r` comes to an end: where `r` is the current one, its error is the state's. -/
theorem Model.completed_spec (m : Model) (r : UInt32) (error : Int) :
    (m.completed r error).state.config = m.state.config ∧ (m.completed r error).overlay = m.overlay ∧
      (m.completed r error).state.pending = (if r = m.state.revision then false else m.state.pending) ∧
      (m.completed r error).state.error = (if r = m.state.revision then error else m.state.error) := by
  unfold completed
  by_cases success : error = 0
  · by_cases current : r = m.state.revision
    · simp [success, current]
    · simp [success, current]
  · by_cases current : r = m.state.revision
    · simp [success, current]
    · simp [success, current]

/-- A reboot that reads its flash loads `c`, and finds no error. -/
def Loads (nvs : Nvs) (brightness : Int) (c : Config) : Prop :=
  (init nvs brightness 0).state.config = c ∧ (init nvs brightness 0).state.error = 0

theorem init_found {nvs : Nvs} {blob : Blob} (found : nvs.config3.or nvs.config = some blob) (brightness : Int) :
    init nvs brightness 0 = loaded brightness (decode blob) := by
  unfold init
  rw [if_neg (by decide), found]

theorem loads_written (nvs : Nvs) (brightness : Int) (fixed : sanitize c = c) :
    Loads { nvs with config3 := some (encode c) } brightness c := by
  have found : init { nvs with config3 := some (encode c) } brightness 0 = loaded brightness (some c) := by
    rw [@init_found _ (encode c) rfl, decode_encode fixed]
  unfold Loads
  rw [found]
  exact ⟨rfl, rfl⟩

/-- What holds at every point of a run. What counts as saved is only known where `few` says that no write
of the run sees `2 ^ 32` edits. -/
structure Inv (brightness : Int) (few : Prop) (s : System) : Prop where
  config : sanitize s.model.state.config = s.model.state.config
  overlay : sanitize s.model.overlay = s.model.overlay
  saved : few → s.model.state.pending = false → s.model.state.error = 0 → Loads s.nvs brightness s.model.state.config
  writing : ∀ c r, s.writing = some (c, r) → s.model.state.pending = true ∧ sanitize c = c ∧
    s.model.state.revision = r + UInt32.ofNat s.edits ∧ (s.edits = 0 → s.model.state.config = c)

private theorem decode_fixed {b : Blob} (h : decode b = some c) : sanitize c = c := by
  unfold decode at h
  dsimp only at h
  rw [Option.ite_none_left_eq_some] at h
  obtain ⟨-, checked⟩ := h
  rw [Option.ite_none_right_eq_some] at checked
  obtain ⟨fixed, accepted⟩ := checked
  rw [← Option.some.inj accepted]
  exact fixed

/-- What a boot loads: the defaults, or what the blob in flash decodes to. -/
theorem init_cases (nvs : Nvs) (brightness readError : Int) :
    (∃ error, init nvs brightness readError = { state := { config := defaults brightness, error := error } }) ∨
      ∃ blob config, decode blob = some config ∧
        init nvs brightness readError = { state := { config := config, savedRevision := 1 } } := by
  by_cases read : readError = 0
  · subst read
    cases found : nvs.config3.or nvs.config with
    | none =>
      left
      use 0
      unfold init
      rw [if_neg (by decide), found]
    | some blob =>
      rw [init_found found]
      cases decoded : decode blob with
      | none => exact Or.inl (Exists.intro espErrInvalidArg rfl)
      | some config => exact Or.inr ⟨blob, config, decoded, rfl⟩
  · left
    use readError
    rw [init, if_pos read]

theorem init_fixed (nvs : Nvs) (brightness readError : Int) :
    sanitize (init nvs brightness readError).state.config = (init nvs brightness readError).state.config := by
  obtain ⟨error, eq⟩ | ⟨blob, config, decoded, eq⟩ := init_cases nvs brightness readError
  · rw [eq]
    exact sanitize_defaults brightness
  · rw [eq]
    exact decode_fixed decoded

private theorem init_overlay (nvs : Nvs) (brightness readError : Int) :
    (init nvs brightness readError).overlay = {} := by
  obtain ⟨error, eq⟩ | ⟨blob, config, decoded, eq⟩ := init_cases nvs brightness readError
  · rw [eq]
  · rw [eq]

private theorem init_loads (nvs : Nvs) (brightness readError : Int)
    (clean : (init nvs brightness readError).state.error = 0) :
    Loads nvs brightness (init nvs brightness readError).state.config := by
  by_cases read : readError = 0
  · subst read
    exact And.intro rfl clean
  · have failed : (init nvs brightness readError).state.error = readError := by rw [init, if_pos read]
    rw [failed] at clean
    exact absurd clean read

private theorem boot_overlay (nvs : Nvs) (brightness readError : Int) :
    sanitize (boot nvs brightness readError).model.overlay = (boot nvs brightness readError).model.overlay := by
  change sanitize (init nvs brightness readError).overlay = (init nvs brightness readError).overlay
  rw [init_overlay]
  decide

theorem inv_boot (nvs : Nvs) (brightness readError : Int) (few : Prop) :
    Inv brightness few (boot nvs brightness readError) where
  config := init_fixed nvs brightness readError
  overlay := boot_overlay nvs brightness readError
  saved _ _ clean := init_loads nvs brightness readError clean
  writing _ _ write := absurd write (by simp [boot])

theorem inv_with {brightness : Int} {few : Prop} {s : System} {m : Model} (inv : Inv brightness few s)
    (edited : Edited s.model.state m.state) (overlay : sanitize m.overlay = m.overlay) :
    Inv brightness few (s.with m) := by
  unfold System.with
  obtain same | ⟨c, fixed, changed⟩ := edited
  · rw [if_pos (by rw [same])]
    constructor
    · change sanitize m.state.config = m.state.config
      rw [same]
      exact inv.config
    · exact overlay
    · change few → m.state.pending = false → m.state.error = 0 → Loads s.nvs brightness m.state.config
      rw [same]
      exact inv.saved
    · intro c r write
      change m.state.pending = true ∧ _
      rw [same]
      exact inv.writing c r write
  · have revision : m.state.revision = s.model.state.revision + 1 := by rw [changed]
    have config : m.state.config = c := by rw [changed]
    have pending : m.state.pending = true := by rw [changed]
    have different : ¬s.model.state.revision + 1 = s.model.state.revision := by grind
    rw [revision, if_neg different]
    constructor
    · change sanitize m.state.config = m.state.config
      rw [config]
      exact fixed
    · exact overlay
    · intro _ idle
      change m.state.pending = false at idle
      rw [pending] at idle
      cases idle
    · intro d r write
      obtain ⟨-, fixed, taken, -⟩ := inv.writing d r write
      refine ⟨pending, fixed, ?_, fun none => absurd none (by simp)⟩
      change m.state.revision = r + UInt32.ofNat (s.edits + 1)
      rw [revision, taken, UInt32.ofNat_add, UInt32.add_assoc]
      rfl

theorem inv_attempt {brightness : Int} {few : Prop} {s : System} (inv : Inv brightness few s) (allowed : Bool)
    (now : Int) : Inv brightness few (s.attempt allowed now) := by
  unfold System.attempt
  split
  · exact inv
  · rename_i free
    have due : s.model.due now = true := by
      by_contra late
      exact free (Or.inr (Or.inr (by simpa using late)))
    have pending : s.model.state.pending = true := by
      unfold Model.due at due
      simp only [Bool.and_eq_true] at due
      exact due.1.1
    constructor
    · exact inv.config
    · exact inv.overlay
    · exact inv.saved
    · intro c r write
      change some (s.model.state.config, s.model.state.revision) = some (c, r) at write
      obtain ⟨rfl, rfl⟩ := Prod.mk.inj (Option.some.inj write)
      exact ⟨pending, inv.config, by simp, fun _ => rfl⟩

/-- A write that ends as the current revision has written the current configuration: an edit would have
taken the revision away, and it has not come round. -/
theorem inv_written {brightness : Int} {few : Prop} {s : System} (inv : Inv brightness few s) (error : Int)
    (effect : Bool) (small : few → s.edits < 2 ^ 32) : Inv brightness few (s.written error effect) := by
  unfold System.written
  split
  · exact inv
  · rename_i c r write
    obtain ⟨pending, fixed, taken, unedited⟩ := inv.writing c r write
    obtain ⟨config, overlay, idle, clean⟩ := s.model.completed_spec r error
    constructor
    · change sanitize (s.model.completed r error).state.config = (s.model.completed r error).state.config
      rw [config]
      exact inv.config
    · change sanitize (s.model.completed r error).overlay = (s.model.completed r error).overlay
      rw [overlay]
      exact inv.overlay
    · change few → (s.model.completed r error).state.pending = false → (s.model.completed r error).state.error = 0 →
        Loads _ brightness (s.model.completed r error).state.config
      rw [config, idle, clean]
      by_cases current : r = s.model.state.revision
      · rw [if_pos current, if_pos current]
        intro assumed _ success
        have none : s.edits = 0 := by
          rw [current] at taken
          have zero : UInt32.ofNat s.edits = 0 := by grind
          have value := congrArg UInt32.toNat zero
          rw [UInt32.toNat_ofNat_of_lt' (small assumed)] at value
          exact value
        rw [unedited none, if_pos (Or.inl success)]
        exact loads_written s.nvs brightness fixed
      · rw [if_neg current, pending]
        intro _ idle
        cases idle
    · intro c r write
      cases write


theorem System.setTemporary_fst (s : System) (field : Option String) (value : Int) (seconds : UInt32) (now : Int)
    (isUnsafe : Bool) : ∃ m : Model, (s.setTemporary field value seconds now isUnsafe).1 = s.with m ∧
      m.state = s.model.state ∧ (sanitize s.model.overlay = s.model.overlay → sanitize m.overlay = m.overlay) := by
  unfold System.setTemporary
  dsimp only
  split
  · refine ⟨_, rfl, by simp, ?_⟩
    intro fixed
    rw [Model.expire_overlay]
    exact fixed
  · refine ⟨_, rfl, by simp, ?_⟩
    intro fixed
    apply Model.setTemporary_overlay
    rw [Model.expire_overlay]
    exact fixed

theorem inv_saveTemporary {brightness : Int} {few : Prop} {s : System} (inv : Inv brightness few s)
    (confirmed : Bool) (now : Int) (isUnsafe : Bool) :
    Inv brightness few (s.saveTemporary confirmed now isUnsafe).1 := by
  unfold System.saveTemporary
  split
  · exact inv
  · dsimp only
    split
    · apply inv_with inv
      · exact Or.inl (Model.expire_state _ _ _)
      · rw [Model.expire_overlay]
        exact inv.overlay
    · apply inv_with inv
      · have edited := (s.model.expire now isUnsafe).saveTemporary_state true now
        rw [Model.expire_state] at edited
        exact edited
      · rw [Model.saveTemporary_overlay, Model.expire_overlay]
        exact inv.overlay

/-- A failed owner leaves an error, so nothing counts as saved. -/
theorem inv_ownerFailed {brightness : Int} {few : Prop} {s : System} (inv : Inv brightness few s) :
    Inv brightness few (s.step .ownerFailed) := by
  constructor
  · exact inv.config
  · exact inv.overlay
  · intro _ _ clean
    change espErrNoMem = 0 at clean
    exact absurd clean (by decide)
  · exact inv.writing

def Input.ends : Input → Bool
  | .written _ _ => true
  | _ => false

theorem inv_step {brightness : Int} {few : Prop} {s : System} (inv : Inv brightness few s) (i : Input)
    (small : few → i.ends = true → s.edits < 2 ^ 32) : Inv brightness few (s.step i) := by
  cases i with
  | request c now =>
    apply inv_with inv (s.model.request_state c now)
    rw [Model.request_overlay]
    exact inv.overlay
  | requestPersistentField field value now =>
    apply inv_with inv (s.model.requestPersistentField_state field value now)
    rw [Model.requestPersistentField_overlay]
    exact inv.overlay
  | setTemporary field value seconds now isUnsafe =>
    obtain ⟨m, eq, state, overlay⟩ := s.setTemporary_fst field value seconds now isUnsafe
    change Inv brightness few (s.setTemporary field value seconds now isUnsafe).1
    rw [eq]
    exact inv_with inv (Or.inl state) (overlay inv.overlay)
  | restoreTemporary =>
    apply inv_with inv (Or.inl s.model.restore_state)
    rw [Model.restore_overlay]
    exact inv.overlay
  | saveTemporary confirmed now isUnsafe => exact inv_saveTemporary inv confirmed now isUnsafe
  | expire now isUnsafe =>
    apply inv_with inv (Or.inl (s.model.expire_state now isUnsafe))
    rw [Model.expire_overlay]
    exact inv.overlay
  | attempt allowed now => exact inv_attempt inv allowed now
  | written error effect => exact inv_written inv error effect fun assumed => small assumed rfl
  | ownerFailed => exact inv_ownerFailed inv

/-- In the run, no write sees `2 ^ 32` edits before it ends. -/
def fewEdits : System → List Input → Bool
  | _, [] => true
  | s, i :: inputs => (!i.ends || s.edits < 2 ^ 32) && fewEdits (s.step i) inputs

theorem inv_run {brightness : Int} {few : Prop} {s : System} (inv : Inv brightness few s) (inputs : List Input)
    (small : few → fewEdits s inputs = true) : Inv brightness few (s.run inputs) := by
  induction inputs generalizing s with
  | nil => exact inv
  | cons i inputs ih =>
    simp only [fewEdits, Bool.and_eq_true, Bool.or_eq_true, Bool.not_eq_true', decide_eq_true_eq] at small
    apply ih _ fun assumed => (small assumed).2
    apply inv_step inv i
    intro assumed ends
    obtain other | few := (small assumed).1
    · rw [ends] at other
      cases other
    · exact few

end Mosaico.Host.DisplaySettings
