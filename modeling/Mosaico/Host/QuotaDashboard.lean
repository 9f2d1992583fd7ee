import Mosaico.Host.JsonText
import Mosaico.Host.QuotaDashboardModel
import Mosaico.Host.QuotaMonitorModel
import Mathlib.Data.List.Nodup

/-! The firmware reads a dashboard as the host made it, as long as its count of buckets fits. -/
namespace Mosaico.Host.QuotaDashboard

open TokenHistory BinaryRounding

section Texts

variable {control : Nat → Bool} {limit : Nat} {s s' : Text}

/-- A text in the characters of the device's fonts. -/
def Ascii (s : Text) : Prop := ∀ c ∈ s, 32 ≤ c ∧ c ≤ 126

theorem fit_sublist (limit : Nat) (s : Text) : (fit limit s).Sublist s := by
  induction s generalizing limit with
  | nil => exact List.Sublist.slnil
  | cons c rest ih =>
    rw [fit]
    split_ifs
    · exact (ih _).cons_cons c
    · exact List.nil_sublist _

private theorem utf8Width_pos (c : Nat) : 1 ≤ utf8Width c := by
  unfold utf8Width
  split_ifs <;> decide

private theorem fit_length (limit : Nat) (s : Text) : (fit limit s).length ≤ limit := by
  induction s generalizing limit with
  | nil => exact Nat.zero_le _
  | cons c rest ih =>
    have width := utf8Width_pos c
    have others := ih (limit - utf8Width c)
    rw [fit]
    split_ifs with room
    · rw [List.length_cons]
      omega
    · exact Nat.zero_le _

theorem text_ascii (value : Value) : Ascii (text control value limit true) := by
  intro c mem
  unfold text at mem
  split at mem
  · have kept := (fit_sublist _ _).subset mem
    have both := (List.mem_filter.mp kept).2
    simp only [Bool.not_true, Bool.false_or, Bool.and_eq_true, decide_eq_true_eq] at both
    exact both.2
  · cases mem

theorem text_length (value : Value) : (text control value limit true).length ≤ limit := by
  unfold text
  split
  · exact fit_length _ _
  · exact Nat.zero_le _

theorem toNat_ofNat {c : Nat} (h : c ≤ 126) : (Char.ofNat c).toNat = c := by
  have valid : c.isValidChar := .inl (by omega)
  rw [Char.ofNat, dif_pos valid]
  rfl

theorem word_toList (s : Text) : (word s).toList = s.map Char.ofNat := String.toList_ofList

private theorem codes_word (h : Ascii s) : codes (word s) = s := by
  rw [codes, word_toList, List.map_map]
  conv_rhs => rw [← List.map_id s]
  apply List.map_congr_left
  intro c mem
  exact toNat_ofNat (h c mem).2

theorem word_injective (h : Ascii s) (h' : Ascii s') (same : word s = word s') : s = s' := by
  rw [← codes_word h, same, codes_word h']

theorem word_printable (h : Ascii s) : printable (word s) = true := by
  rw [printable, word_toList, List.all_eq_true]
  intro c mem
  obtain ⟨v, mem', rfl⟩ := List.mem_map.mp mem
  rw [toNat_ofNat (h v mem').2]
  exact decide_eq_true (h v mem')

theorem word_size (h : Ascii s) : (word s).utf8ByteSize = s.length := by
  have sum (l : List Char) (ascii : ∀ c ∈ l, c.toNat ≤ 126) :
      (String.ofList l).utf8ByteSize = l.length := by
    induction l with
    | nil => rfl
    | cons c l ih =>
      have one : c.utf8Size = 1 := by
        have small : c.val ≤ 0x7f := UInt32.le_iff_toNat_le.mpr
          (Nat.le_trans (ascii c List.mem_cons_self) (by decide))
        unfold Char.utf8Size
        exact if_pos small
      have rest := ih fun c mem => ascii c (List.mem_cons_of_mem _ mem)
      rw [String.ofList_cons, String.utf8ByteSize_append, String.utf8ByteSize_singleton, one, rest,
        List.length_cons, Nat.add_comm]
  rw [word, sum, List.length_map]
  intro c mem
  obtain ⟨v, mem', rfl⟩ := List.mem_map.mp mem
  rw [toNat_ofNat (h v mem').2]
  exact (h v mem').2

private theorem word_isEmpty (some' : s ≠ []) : (word s).isEmpty = false := by
  have other : word s ≠ "" := by
    intro same
    have list := congrArg String.toList same
    rw [word_toList] at list
    exact some' (List.map_eq_nil_iff.mp list)
  simpa using other

/-- The firmware takes a text that fits. -/
theorem field_word {root : Option Json} {name : String} {size : Nat} {empty : Bool} (ascii : Ascii s)
    (there : TokenHistory.text root name = some (word s)) (room : s.length < size)
    (filled : empty = true ∨ s ≠ []) : QuotaMonitor.field root name size empty = some (word s) := by
  have short : ¬ (word s).utf8ByteSize ≥ size := by
    rw [word_size ascii]
    omega
  have allowed : (!empty && (word s).isEmpty) = false := by
    obtain rfl | some' := filled
    · rfl
    · rw [word_isEmpty some', Bool.and_false]
  rw [QuotaMonitor.field, there]
  simp only [Option.bind_eq_bind, Option.bind_some, decide_eq_false short, allowed,
    word_printable ascii]
  rfl

end Texts

section Numbers

variable {value : Value} {maximum z : Int}

theorem integer_range (h : integer value maximum = some z) : 0 ≤ z ∧ z ≤ maximum := by
  unfold integer at h
  split at h
  · split_ifs at h with range
    cases h
    exact range
  · rename_i q
    split_ifs at h with range
    cases h
    have whole : (q.num : ℚ) = q := Rat.coe_int_num_of_den_eq_one range.2.2
    constructor
    · exact Rat.num_nonneg.mpr range.1
    · have cast : (q.num : ℚ) ≤ maximum := by
        rw [whole]
        exact range.2.1
      exact_mod_cast cast
  · cases h

theorem known_range (h : known value = some z) : 0 ≤ z ∧ z ≤ uint32Max := by
  unfold known at h
  split at h
  · cases h
    decide
  · exact integer_range h

/-- What remains of a percentage is one, however it is rounded. -/
theorem remaining_range (h : remaining value = some z) : 0 ≤ z ∧ z ≤ 10000 := by
  unfold remaining at h
  split at h
  · split_ifs at h with range
    cases h
    omega
  · rename_i q
    split_ifs at h with range
    cases h
    have left : (0 : ℚ) ≤ 100 - q := by linarith [range.2]
    have left' : double (100 - q) ≤ (100 : ℕ) := by
      apply double_le _ left (by decide)
      push_cast
      linarith [range.1]
    have product : 0 ≤ double (100 - q) * 100 := mul_nonneg (double_nonneg left) (by norm_num)
    have product' : double (double (100 - q) * 100) ≤ (10000 : ℕ) := by
      apply double_le _ product (by decide)
      push_cast at left' ⊢
      linarith
    constructor
    · exact roundEven_nonneg (double_nonneg product)
    · apply roundEven_le
      push_cast at product' ⊢
      exact product'
  · cases h

end Numbers

section Buckets

variable {control : Nat → Bool} {value : Value}

def Window.stored (w : Option Window) : QuotaMonitor.Window :=
  match w with
  | none => {}
  | some w => {
      available := true
      remainingBasisPoints := w.remainingBp.toNat
      durationMinutes := w.durationMinutes.toNat
      resetEpoch := w.resetEpoch.toNat }

def Bucket.stored (b : Bucket) : QuotaMonitor.Bucket where
  id := word b.id
  name := word b.name
  plan := word b.plan
  reached := word b.reached
  creditBalance := ((b.credits.bind (·.balance)).map word).getD ""
  creditsKnown := b.credits.isSome
  creditsUnlimited := (b.credits.map (·.unlimited)).getD false
  windows := b.windows.map Window.stored

def Dashboard.stored (d : Dashboard) : QuotaMonitor.Snapshot where
  buckets := d.buckets.map Bucket.stored
  totalBuckets := d.totalBuckets
  truncated := d.truncated
  resetCreditsKnown := d.resetCredits.isSome
  resetCredits := (d.resetCredits.getD 0).toNat
  available := true
  capturedEpoch := d.capturedEpoch.toNat
  ageSecondsAtReceipt := d.ageSeconds.toNat

/-- A window in its ranges. -/
structure Window.Valid (w : Window) : Prop where
  remaining : 0 ≤ w.remainingBp ∧ w.remainingBp ≤ 10000
  duration : 0 ≤ w.durationMinutes ∧ w.durationMinutes ≤ uint32Max
  reset : 0 ≤ w.resetEpoch ∧ w.resetEpoch ≤ uint32Max

theorem window_valid {w : Window} (h : window value = some w) : w.Valid := by
  unfold window at h
  split at h
  · obtain ⟨duration, hduration, h⟩ := Option.bind_eq_some_iff.mp h
    obtain ⟨reset, hreset, h⟩ := Option.bind_eq_some_iff.mp h
    obtain ⟨bp, hbp, h⟩ := Option.bind_eq_some_iff.mp h
    cases h
    exact ⟨remaining_range hbp, known_range hduration, known_range hreset⟩
  · cases h

theorem window_stored {w : Option Window} (valid : ∀ v, w = some v → v.Valid) :
    QuotaMonitor.window (w.elim .null Window.document) = some (Window.stored w) := by
  cases w with
  | none => rfl
  | some v =>
    have range := valid v rfl
    have bp : TokenHistory.integer (some v.document) "remaining_bp" 0 10000 = some v.remainingBp :=
      if_pos range.remaining
    have duration : TokenHistory.integer (some v.document) "duration_minutes" 0
        QuotaMonitor.uint32Max = some v.durationMinutes := if_pos range.duration
    have reset : TokenHistory.integer (some v.document) "reset_epoch" 0
        QuotaMonitor.uint32Max = some v.resetEpoch := if_pos range.reset
    show QuotaMonitor.window v.document = _
    rw [QuotaMonitor.window]
    · simp only [bp, duration, reset, Option.bind_eq_bind, Option.bind_some]
      rfl
    · exact nofun

/-- A balance with its digits, short enough and not empty. -/
structure Balance (s : Text) : Prop where
  short : s.length ≤ 31
  digits : decimalText s = true

theorem span_all (p : Nat → Bool) (s : Text) :
    (∀ c ∈ (s.span p).1, p c = true) ∧ s = (s.span p).1 ++ (s.span p).2 := by
  rw [List.span_eq_takeWhile_dropWhile]
  exact ⟨List.all_eq_true.mp List.all_takeWhile, List.takeWhile_append_dropWhile.symm⟩

private theorem digit_char {c : Nat} (h : isDigit c = true) : '0' ≤ Char.ofNat c ∧ Char.ofNat c ≤ '9' ∧
    Char.ofNat c ≠ '.' := by
  have range : 48 ≤ c ∧ c ≤ 57 := of_decide_eq_true h
  have all : ∀ d : Fin 10, '0' ≤ Char.ofNat (48 + d.val) ∧ Char.ofNat (48 + d.val) ≤ '9' ∧
      Char.ofNat (48 + d.val) ≠ '.' := by decide
  have this := all ⟨c - 48, by omega⟩
  rwa [Nat.add_sub_cancel' range.1] at this

/-- Digits are read over, and then there was one. -/
private theorem balanceDigits_append {digits : Text} (all : ∀ c ∈ digits, isDigit c = true) (dot : Bool)
    (digit : Bool) (rest : List Char) :
    QuotaMonitor.balanceDigits dot digit (digits.map Char.ofNat ++ rest) =
      QuotaMonitor.balanceDigits dot (digit || !digits.isEmpty) rest := by
  induction digits generalizing digit with
  | nil => simp
  | cons c digits ih =>
    obtain ⟨low, high, other⟩ := digit_char (all c List.mem_cons_self)
    rw [List.map_cons, List.cons_append, QuotaMonitor.balanceDigits,
      if_neg fun both => other both.1, if_pos ⟨low, high⟩,
      ih fun c mem => all c (List.mem_cons_of_mem _ mem)]
    simp

theorem balance_accepted {s : Text} (h : Balance s) :
    Ascii s ∧ s ≠ [] ∧ QuotaMonitor.balanceDigits false false (word s).toList = true := by
  have digits := h.digits
  obtain ⟨all, parts⟩ := span_all isDigit s
  have ascii {c : Nat} (digit : isDigit c = true) : 32 ≤ c ∧ c ≤ 126 := by
    have range : 48 ≤ c ∧ c ≤ 57 := of_decide_eq_true digit
    omega
  rw [word_toList]
  unfold decimalText at digits
  revert digits parts all
  generalize s.span isDigit = pair
  obtain ⟨whole, rest⟩ := pair
  intro digits all parts
  simp only [Bool.and_eq_true, Bool.not_eq_true'] at digits parts all
  obtain ⟨some', tail⟩ := digits
  subst parts
  have filled : whole ≠ [] := by
    intro empty
    rw [empty] at some'
    cases some'
  rw [List.map_append, balanceDigits_append all, some']
  cases rest with
  | nil =>
    refine ⟨?_, by simpa using filled, rfl⟩
    intro c mem
    rw [List.append_nil] at mem
    exact ascii (all c mem)
  | cons dot fraction =>
    simp only [Bool.and_eq_true, beq_iff_eq, Bool.not_eq_true', List.all_eq_true] at tail
    obtain ⟨⟨rfl, _⟩, fractionDigits⟩ := tail
    refine ⟨?_, by simp, ?_⟩
    · intro c mem
      obtain left | right := List.mem_append.mp mem
      · exact ascii (all c left)
      · obtain rfl | later := List.mem_cons.mp right
        · decide
        · exact ascii (fractionDigits c later)
    · have point : Char.ofNat 46 = '.' := rfl
      rw [List.map_cons, QuotaMonitor.balanceDigits, if_pos ⟨point, rfl⟩,
        ← List.append_nil (fraction.map Char.ofNat), balanceDigits_append fractionDigits]
      rfl

theorem credits_balance {c : Credits} {s : Text} (h : credits value = some c)
    (some' : c.balance = some s) : Balance s := by
  unfold credits at h
  split at h
  · cases h
    simp only [balance] at some'
    split at some'
    · split_ifs at some' with refused
      cases some'
      simp only [Bool.or_eq_true, decide_eq_true_eq, not_or, Bool.not_eq_true', Bool.not_eq_false]
        at refused
      exact ⟨by omega, refused.2⟩
    · cases some'
  · cases h

/-- A bucket that the firmware can take. -/
structure Bucket.Valid (b : Bucket) : Prop where
  id : Ascii b.id ∧ b.id ≠ [] ∧ b.id.length < 64
  name : Ascii b.name ∧ b.name ≠ [] ∧ b.name.length < 64
  plan : Ascii b.plan ∧ b.plan.length < 24
  reached : Ascii b.reached ∧ b.reached.length < 48
  credits : ∀ c s, b.credits = some c → c.balance = some s → Balance s
  windows : ∃ first second, b.windows = [first, second] ∧ (∀ w, first = some w → w.Valid) ∧
    ∀ w, second = some w → w.Valid

theorem normalizeBucket_valid {key : Text} {b : Bucket}
    (h : normalizeBucket control key value = some b) : b.Valid := by
  unfold normalizeBucket at h
  obtain ⟨id, hid, h⟩ := Option.bind_eq_some_iff.mp h
  cases h
  unfold ident at hid
  dsimp only at hid
  have ids : Ascii id ∧ id ≠ [] ∧ id.length < 64 := by
    split_ifs at hid with refused
    rw [← Option.some.inj hid]
    simp only [Bool.or_eq_true, decide_eq_true_eq, not_or, List.isEmpty_iff] at refused
    exact ⟨text_ascii _, refused.1, by omega⟩
  refine ⟨ids, ?_, ⟨text_ascii _, ?_⟩, ⟨text_ascii _, ?_⟩, ?_, ?_⟩
  · dsimp only
    split_ifs with unnamed
    · exact ids
    · rw [List.isEmpty_iff] at unnamed
      exact ⟨text_ascii _, unnamed, Nat.lt_succ_of_le (text_length _)⟩
  · exact Nat.lt_succ_of_le (text_length _)
  · exact Nat.lt_succ_of_le (text_length _)
  · exact fun c s known some' => credits_balance known some'
  · exact ⟨_, _, rfl, fun w h => window_valid h, fun w h => window_valid h⟩

theorem credits_stored {b : Bucket}
    (h : ∀ c s, b.credits = some c → c.balance = some s → Balance s) :
    QuotaMonitor.credits b.document = some (b.credits.isSome,
      (b.credits.map (·.unlimited)).getD false, ((b.credits.bind (·.balance)).map word).getD "") := by
  have there : item (some b.document) "credits" = some (b.credits.elim .null Credits.document) := rfl
  cases known : b.credits with
  | none =>
    rw [QuotaMonitor.credits, there, known]
    rfl
  | some c =>
    rw [known] at there
    have unlimited : boolean (some c.document) "unlimited" = some c.unlimited := rfl
    have amount : item (some c.document) "balance" =
      some (c.balance.elim .null fun s => .string (word s)) := rfl
    have object : c.document ≠ .null := by simp [Credits.document]
    simp only [QuotaMonitor.credits, there, Option.elim_some]
    split
    · rename_i same
      exact absurd (Option.some.inj same) object
    cases some' : c.balance with
    | none =>
      rw [some'] at amount
      simp [unlimited, amount, some']
    | some s =>
      rw [some'] at amount
      have valid := h c s known some'
      obtain ⟨ascii, filled, digits⟩ := balance_accepted valid
      have text : TokenHistory.text (some c.document) "balance" = some (word s) := by
        rw [TokenHistory.text, amount]
        rfl
      have short := valid.short
      have field := @field_word s _ _ 32 false ascii text (by omega) (.inr filled)
      simp [unlimited, amount, field, digits, some']

private theorem windows_stored {b : Bucket} (valid : b.Valid) :
    QuotaMonitor.windows b.document = some (b.windows.map Window.stored) := by
  obtain ⟨first, second, both, validFirst, validSecond⟩ := valid.windows
  have there : item (some b.document) "windows" =
    some (.array (b.windows.map fun w => w.elim .null Window.document)) := rfl
  rw [QuotaMonitor.windows, there, both]
  simp only [List.map_cons, List.map_nil, window_stored validFirst, window_stored validSecond,
    Option.bind_eq_bind, Option.bind_some]
  rfl

/-- A valid bucket that is new is taken. -/
theorem bucket_stored {b : Bucket} {seen : List String} (valid : b.Valid)
    (new : word b.id ∉ seen) : QuotaMonitor.bucket seen b.document = some b.stored := by
  have id := @field_word b.id (some b.document) "id" 64 false valid.id.1 rfl valid.id.2.2
    (.inr valid.id.2.1)
  have name := @field_word b.name (some b.document) "name" 64 false valid.name.1 rfl
    valid.name.2.2 (.inr valid.name.2.1)
  have plan := @field_word b.plan (some b.document) "plan" 24 true valid.plan.1 rfl valid.plan.2
    (.inl rfl)
  have reached := @field_word b.reached (some b.document) "reached" 48 true valid.reached.1 rfl
    valid.reached.2 (.inl rfl)
  have unseen : seen.contains (word b.id) = false := by
    simpa using new
  rw [QuotaMonitor.bucket, id, name, plan, reached]
  simp only [Option.bind_eq_bind, Option.bind_some, unseen, windows_stored valid,
    credits_stored valid.credits]
  rfl

theorem buckets_stored {buckets : List Bucket} {seen : List String}
    (valid : ∀ b ∈ buckets, b.Valid) (apart : (buckets.map (·.id)).Nodup)
    (new : ∀ b ∈ buckets, word b.id ∉ seen) :
    QuotaMonitor.buckets seen (buckets.map Bucket.document) = some (buckets.map Bucket.stored) := by
  induction buckets generalizing seen with
  | nil => rfl
  | cons b buckets ih =>
    rw [List.map_cons, List.nodup_cons] at apart
    have validFirst := valid b List.mem_cons_self
    have first := bucket_stored validFirst (new b List.mem_cons_self)
    have newOthers : ∀ b' ∈ buckets, word b'.id ∉ seen ++ [b.stored.id] := by
      intro b' mem listed
      obtain before | same := List.mem_append.mp listed
      · exact new b' (List.mem_cons_of_mem _ mem) before
      · have equal := word_injective (valid b' (List.mem_cons_of_mem _ mem)).id.1 validFirst.id.1
          (List.mem_singleton.mp same)
        exact apart.1 (equal ▸ List.mem_map_of_mem mem)
    have others := ih (fun b' mem => valid b' (List.mem_cons_of_mem _ mem)) apart.2 newOthers
    rw [List.map_cons, QuotaMonitor.buckets, first]
    simp only [Option.bind_eq_bind, Option.bind_some, others]
    rfl

end Buckets

section Dashboards

variable {control : Nat → Bool} {raw captured : Value} {d : Dashboard}

theorem unambiguous_ids (buckets : List Bucket) :
    ((unambiguous buckets).map (·.id)).Nodup := by
  have once {b : Bucket} (mem : b ∈ unambiguous buckets) :
      (unambiguous buckets).countP (fun b' => b'.id == b.id) ≤ 1 := by
    have all := (List.mem_filter.mp mem).2
    have part := List.Sublist.countP_le (p := fun b' => b'.id == b.id)
      (List.filter_sublist (p := fun b => buckets.countP (fun b' => b'.id == b.id) == 1) (l := buckets))
    rw [beq_iff_eq] at all
    rw [all] at part
    exact part
  rw [List.nodup_iff_count_le_one]
  intro id
  by_cases listed : id ∈ (unambiguous buckets).map (·.id)
  · obtain ⟨b, mem, rfl⟩ := List.mem_map.mp listed
    rw [List.count, List.countP_map]
    exact once mem
  · rw [List.count_eq_zero_of_not_mem listed]
    exact Nat.zero_le _

theorem normalizedBuckets_valid {b : Bucket} (mem : b ∈ normalizedBuckets control raw) :
    b.Valid := by
  have sorted := (List.mergeSort_perm _ _).mem_iff.mp mem
  have listed := (List.mem_filter.mp sorted).1
  obtain ⟨entry, _, made⟩ := List.mem_filterMap.mp listed
  exact normalizeBucket_valid made

theorem normalizedBuckets_ids : ((normalizedBuckets control raw).map (·.id)).Nodup :=
  ((List.mergeSort_perm _ _).map _).nodup_iff.mpr (unambiguous_ids _)

/-- What a dashboard is once it is made. -/
structure Dashboard.Made (control : Nat → Bool) (raw : Value) (d : Dashboard) : Prop where
  captured : 1 ≤ d.capturedEpoch ∧ d.capturedEpoch ≤ uint32Max
  available : d.available = !(normalizedBuckets control raw).isEmpty
  buckets : d.buckets = (normalizedBuckets control raw).take maxBuckets
  total : d.totalBuckets = (normalizedBuckets control raw).length
  truncated : d.truncated = decide ((normalizedBuckets control raw).length > maxBuckets)
  resets : ∀ v, d.resetCredits = some v → 0 ≤ v ∧ v ≤ 65535

private theorem resetCount_range {resets : Value} {v : Int} (h : resetCount resets = some v) :
    0 ≤ v ∧ v ≤ 65535 := by
  unfold resetCount at h
  split_ifs at h
  exact integer_range h

theorem made (h : normalizeQuotaDashboard control raw captured = .ok d) : d.Made control raw := by
  unfold normalizeQuotaDashboard at h
  split at h
  · rename_i epoch found
    have range := integer_range found
    split_ifs at h with zero
    cases h
    have pos : 1 ≤ epoch := by omega
    exact ⟨⟨pos, range.2⟩, rfl, rfl, rfl, rfl, fun v h => resetCount_range h⟩
  · cases h

theorem Dashboard.Made.buckets_taken (h : d.Made control raw) :
    QuotaMonitor.buckets [] (d.buckets.map Bucket.document) = some (d.buckets.map Bucket.stored) ∧
      ((d.buckets.map Bucket.stored).map (·.id)).Nodup := by
  have valid : ∀ b ∈ d.buckets, b.Valid := by
    intro b mem
    rw [h.buckets] at mem
    exact normalizedBuckets_valid (List.mem_of_mem_take mem)
  have apart : (d.buckets.map (·.id)).Nodup := by
    rw [h.buckets]
    exact ((List.take_sublist _ _).map _).nodup normalizedBuckets_ids
  refine ⟨buckets_stored valid apart fun _ _ => List.not_mem_nil, ?_⟩
  rw [List.map_map]
  apply (List.nodup_map_iff_inj_on (List.Nodup.of_map _ apart)).mpr
  intro b mem b' mem' same
  have ids := word_injective (valid b mem).id.1 (valid b' mem').id.1 same
  exact List.inj_on_of_nodup_map apart mem mem' ids

/-- A dashboard that the firmware can count is taken over as it is. -/
theorem Dashboard.Made.parsed (h : d.Made control raw) {age : Int} (fresh : 0 ≤ age)
    (available : (d.aged age).available = true) (countable : d.totalBuckets ≤ uint32Max) :
    QuotaMonitor.parsed (d.aged age).document = some (d.aged age).stored := by
  obtain ⟨isAvailable, ageLe⟩ : d.available = true ∧ age ≤ maxAgeSeconds := by
    simpa [Dashboard.aged] using available
  have some' : normalizedBuckets control raw ≠ [] := by
    rw [h.available] at isAvailable
    intro none'
    rw [none'] at isAvailable
    cases isAvailable
  have pos := List.length_pos_iff.mpr some'
  have size : d.buckets.length = min maxBuckets (normalizedBuckets control raw).length := by
    rw [h.buckets, List.length_take]
  have total := h.total
  have root : Option Json := some (d.aged age).document
  have flag : boolean (some (d.aged age).document) "available" = some true := by
    rw [← available]
    rfl
  have version : TokenHistory.integer (some (d.aged age).document) "version" 2 2 = some 2 := rfl
  have epoch : TokenHistory.integer (some (d.aged age).document) "captured_epoch" 1
      QuotaMonitor.uint32Max = some d.capturedEpoch := if_pos h.captured
  have seconds : TokenHistory.integer (some (d.aged age).document) "age_seconds" 0 120 =
      some age := if_pos ⟨fresh, ageLe⟩
  have sources : QuotaMonitor.array (some (d.aged age).document) "buckets" =
      some (d.buckets.map Bucket.document) := rfl
  have cut : boolean (some (d.aged age).document) "truncated" = some d.truncated := rfl
  have count : TokenHistory.integer (some (d.aged age).document) "total_buckets"
      ((d.buckets.map Bucket.document).length : Nat) QuotaMonitor.uint32Max =
        some (d.totalBuckets : Int) := by
    have fewer : d.buckets.length ≤ d.totalBuckets := by
      rw [size, total]
      exact Nat.min_le_right _ _
    apply if_pos
    rw [List.length_map]
    exact ⟨Int.ofNat_le.mpr fewer, countable⟩
  have resets : QuotaMonitor.resetCredits (some (d.aged age).document) = some d.resetCredits := by
    have there : item (some (d.aged age).document) "reset_credits" =
      some (d.resetCredits.elim .null fun v => .number v) := rfl
    rw [QuotaMonitor.resetCredits, there]
    cases known : d.resetCredits with
    | none => rfl
    | some v =>
      have value : TokenHistory.integer (some (d.aged age).document) "reset_credits" 0
          QuotaMonitor.uint16Max = some v := by
        rw [TokenHistory.integer, there, known]
        exact if_pos (h.resets v known)
      simp [value]
  have lengths : ¬ (d.buckets.map Bucket.document).length < 1 ∧
      ¬ (d.buckets.map Bucket.document).length > QuotaMonitor.maxBuckets := by
    rw [List.length_map, size]
    simp only [maxBuckets, QuotaMonitor.maxBuckets]
    omega
  have truncation : d.truncated =
      decide ((d.totalBuckets : Int) > (d.buckets.map Bucket.document).length) := by
    rw [h.truncated, List.length_map, size, total]
    apply decide_eq_decide.mpr
    simp only [maxBuckets]
    omega
  rw [QuotaMonitor.parsed]
  simp only [flag, version, epoch, seconds, sources, cut, count, resets, h.buckets_taken.1,
    Option.bind_eq_bind, Option.bind_some, decide_eq_false lengths.1, decide_eq_false lengths.2,
    ← truncation]
  simp [Dashboard.stored, Dashboard.aged]

theorem depthItems_le {items : List Json} {k : Nat} (h : ∀ j ∈ items, depth j ≤ k) :
    depthItems items ≤ k := by
  induction items with
  | nil => exact Nat.zero_le k
  | cons j items ih =>
    rw [depthItems]
    exact Nat.max_le.mpr ⟨h j List.mem_cons_self, ih fun j mem => h j (List.mem_cons_of_mem _ mem)⟩

private theorem depth_windows (windows : List (Option Window)) :
    depthItems (windows.map fun w => w.elim .null Window.document) ≤ 1 := by
  apply depthItems_le
  intro j mem
  obtain ⟨w, _, rfl⟩ := List.mem_map.mp mem
  cases w with
  | none => exact Nat.zero_le 1
  | some w => exact Nat.le_refl 1

private theorem depth_bucket (b : Bucket) : depth b.document ≤ 3 := by
  have windows := depth_windows b.windows
  have credits : depth (b.credits.elim .null Credits.document) ≤ 1 := by
    cases b.credits with
    | none => exact Nat.zero_le 1
    | some c =>
      show depth (.object _) ≤ 1
      cases c.balance <;> simp [depth, depthMembers]
  simp only [Bucket.document, depth, depthMembers]
  omega

private theorem depth_document (d : Dashboard) : depth d.document ≤ 5 := by
  have buckets : depthItems (d.buckets.map Bucket.document) ≤ 3 := by
    apply depthItems_le
    intro j mem
    obtain ⟨b, _, rfl⟩ := List.mem_map.mp mem
    exact depth_bucket b
  have resets : depth (d.resetCredits.elim Json.null fun v => .number v) = 0 := by
    cases d.resetCredits <;> rfl
  simp only [Dashboard.document, depth, depthMembers, resets]
  omega

private theorem dumps_document {payload : List UInt8} (h : dumps d.document = some payload) :
    payload ≠ [] := by
  rw [Dashboard.document, dumps] at h
  obtain ⟨first, _, h⟩ := Option.bind_eq_some_iff.mp h
  obtain ⟨rest, _, h⟩ := Option.bind_eq_some_iff.mp h
  cases h
  exact List.cons_ne_nil _ _

/-- A body that the host serves is taken over by the firmware as the dashboard it was made of.
`parseText` is the JSON parser, and the body is a text of the document. -/
theorem dashboard_parsed (h : normalizeQuotaDashboard control raw captured = .ok d) {age : Int}
    (fresh : 0 ≤ age) (available : (d.aged age).available = true)
    (countable : d.totalBuckets ≤ uint32Max) {payload : List UInt8}
    (rendered : dumps (d.aged age).document = some payload) (fits : payload.length ≤ 8192)
    {parseText : List UInt8 → Option Json}
    (read : parseText payload = some (d.aged age).document) :
    QuotaMonitor.parse parseText payload = some (d.aged age).stored ∧
      ((d.aged age).stored.buckets.map (·.id)).Nodup := by
  have deep := depth_document (d.aged age)
  have nested := nesting_dumps rendered (by omega)
  have pos := List.length_pos_iff.mpr (dumps_document rendered)
  have taken : ¬ (payload.length = 0 ∨ payload.length > 8192 ∨ jsonNestingValid payload = false) := by
    rw [nested]
    simp only [reduceCtorEq, or_false]
    omega
  refine ⟨?_, (made h).buckets_taken.2⟩
  rw [QuotaMonitor.parse, if_neg taken, read]
  exact (made h).parsed fresh available countable

/-- An answer with two buckets, the one that is named later before the other. -/
def codexAnswer : Value :=
  .dict [(codes "rateLimitsByLimitId", .dict [
    (codes "spark", .dict [(codes "primary",
      .dict [(codes "usedPercent", .int 10), (codes "resetsAt", .int 5000)])]),
    (codes "codex", .dict [(codes "primary",
      .dict [(codes "usedPercent", .int 25), (codes "resetsAt", .int 4000)])])])]

def codexBucket (name : String) (remaining reset : Nat) : Bucket where
  id := codes name
  name := codes name
  plan := []
  reached := []
  credits := none
  windows := [some { remainingBp := remaining, durationMinutes := 0, resetEpoch := reset }, none]

def codexDashboard : Dashboard where
  available := true
  capturedEpoch := 2000
  ageSeconds := 0
  buckets := [codexBucket "codex" 7500 4000, codexBucket "spark" 9000 5000]
  totalBuckets := 2
  truncated := false
  resetCredits := none

private theorem codexAnswer_normalized :
    normalizeQuotaDashboard (fun _ => false) codexAnswer (.int 2000) = .ok codexDashboard := by
  have buckets : normalizedBuckets (fun _ => false) codexAnswer = codexDashboard.buckets := by
    have raw :
        unambiguous
        ((entries codexAnswer).filterMap fun entry => normalizeBucket (fun _ => false) entry.1 entry.2) =
        [codexBucket "spark" 9000 5000, codexBucket "codex" 7500 4000] := by decide +kernel
    have order : bucketBelow (codexBucket "spark" 9000 5000) (codexBucket "codex" 7500 4000) =
        false := by decide +kernel
    rw [normalizedBuckets, raw]
    simp [List.mergeSort, order, codexDashboard]
  simp only [normalizeQuotaDashboard, buckets]
  rfl

theorem dashboard_parsed_codex : ∃ payload,
    dumps (codexDashboard.aged 7).document = some payload ∧
      QuotaMonitor.parse (fun text => if text = payload then some (codexDashboard.aged 7).document
        else none) payload = some (codexDashboard.aged 7).stored ∧
      ((codexDashboard.aged 7).stored.buckets.map (·.id)).Nodup := by
  have size : ((dumps (codexDashboard.aged 7).document).map List.length).all (· ≤ 8192) = true ∧
      (dumps (codexDashboard.aged 7).document).isSome = true := by
    decide +kernel
  obtain ⟨payload, rendered⟩ := Option.isSome_iff_exists.mp size.2
  have short : payload.length ≤ 8192 := by
    have bound := size.1
    rw [rendered] at bound
    simpa using bound
  exact ⟨payload, rendered, dashboard_parsed codexAnswer_normalized (by decide) rfl (by decide)
    rendered short (if_pos rfl)⟩

end Dashboards

end Mosaico.Host.QuotaDashboard
