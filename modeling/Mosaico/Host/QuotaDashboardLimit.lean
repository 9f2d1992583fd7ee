import Mosaico.Host.QuotaDashboard

/-! An answer with more buckets than `total_buckets` can count. -/
namespace Mosaico.Host.QuotaDashboard

open TokenHistory

def key (i : Nat) : Text := (List.range 32).map fun k => if i.testBit k then 49 else 48

def plain (id : Text) : Bucket where
  id := id
  name := id
  plan := []
  reached := []
  credits := none
  windows := [none, none]

def manyEntries (n : Nat) : List (Text × Value) := (List.range n).map fun i => (key i, .dict [])

/-- An answer with `n` buckets. -/
def manyAnswer (n : Nat) : Value := .dict [(codes "rateLimitsByLimitId", .dict (manyEntries n))]

theorem key_digit {i c : Nat} (mem : c ∈ key i) : c = 48 ∨ c = 49 := by
  obtain ⟨k, _, rfl⟩ := List.mem_map.mp mem
  split_ifs
  · exact Or.inr rfl
  · exact Or.inl rfl

theorem key_length (i : Nat) : (key i).length = 32 := by
  rw [key, List.length_map, List.length_range]

theorem key_injective {i j : Nat} (hi : i < 2 ^ 32) (hj : j < 2 ^ 32) (same : key i = key j) :
    i = j := by
  have bits := List.map_inj_left.mp same
  apply Nat.eq_of_testBit_eq
  intro k
  by_cases low : k < 32
  · have bit := bits k (List.mem_range.mpr low)
    cases hbit : i.testBit k <;> cases hbit' : j.testBit k <;> simp_all
  · have wide : 2 ^ 32 ≤ 2 ^ k := Nat.pow_le_pow_right (by decide) (by omega)
    rw [Nat.testBit_lt_two_pow (by omega), Nat.testBit_lt_two_pow (by omega)]

private theorem fit_short {limit : Nat} {s : Text} (ascii : Ascii s) (short : s.length ≤ limit) :
    fit limit s = s := by
  induction s generalizing limit with
  | nil => rfl
  | cons c s ih =>
    have one : utf8Width c = 1 := if_pos (by have := ascii c List.mem_cons_self; omega)
    rw [List.length_cons] at short
    rw [fit, one, if_pos (by omega), ih (fun c mem => ascii c (List.mem_cons_of_mem _ mem)) (by omega)]

private theorem key_ascii (i : Nat) : Ascii (key i) := by
  intro c mem
  obtain rfl | rfl := key_digit mem <;> decide

theorem normalizeBucket_key (i : Nat) :
    normalizeBucket (fun _ => false) (key i) (.dict []) = some (plain (key i)) := by
  have clean : text (fun _ => false) (.str (key i)) 64 true = key i := by
    have all : (key i).filter (fun c => !false && (!true || decide (32 ≤ c ∧ c ≤ 126))) = key i :=
      List.filter_eq_self.mpr fun c mem => by
        have := key_ascii i c mem
        simpa using this
    rw [text, all]
    exact fit_short (key_ascii i) (by rw [key_length]; omega)
  have some' : (key i).isEmpty = false := by
    rw [List.isEmpty_eq_false_iff, ← List.length_pos_iff, key_length]
    omega
  have named : ident (fun _ => false) (key i) (.dict []) = some (key i) := by
    have short : ¬ (key i).length > 63 := by
      rw [key_length]
      omega
    show (if (text (fun _ => false) (.str (key i)) 64 true).isEmpty ||
        decide ((text (fun _ => false) (.str (key i)) 64 true).length > 63) then none
      else some (text (fun _ => false) (.str (key i)) 64 true)) = some (key i)
    rw [clean, some', decide_eq_false short]
    rfl
  rw [normalizeBucket, named]
  rfl

private theorem manyEntries_buckets (n : Nat) :
    (manyEntries n).filterMap (fun entry => normalizeBucket (fun _ => false) entry.1 entry.2) =
      (List.range n).map fun i => plain (key i) := by
  have each : ((fun entry : Text × Value => normalizeBucket (fun _ => false) entry.1 entry.2) ∘
      fun i => (key i, Value.dict [])) = fun i => some (plain (key i)) := by
    funext i
    exact normalizeBucket_key i
  rw [manyEntries, List.filterMap_map, each]
  exact congrFun (List.filterMap_eq_map (f := fun i => plain (key i))) _

private theorem manyEntries_entries {n : Nat} (some' : n ≠ 0) : entries (manyAnswer n) = manyEntries n := by
  have all : (manyEntries n).filter (fun entry => isDict entry.2) = manyEntries n := by
    apply List.filter_eq_self.mpr
    intro entry mem
    obtain ⟨i, _, rfl⟩ := List.mem_map.mp mem
    rfl
  have there : (manyAnswer n).get "rateLimitsByLimitId" = .dict (manyEntries n) := rfl
  obtain ⟨first, rest, split⟩ : ∃ first rest, manyEntries n = first :: rest := by
    apply List.exists_cons_of_length_pos
    rw [manyEntries, List.length_map, List.length_range]
    exact Nat.pos_of_ne_zero some'
  rw [entries, there]
  rw [split] at all ⊢
  exact all

theorem manyBuckets_perm {n : Nat} (some' : n ≠ 0) (few : n ≤ 2 ^ 32) :
    (normalizedBuckets (fun _ => false) (manyAnswer n)).Perm
      ((List.range n).map fun i => plain (key i)) := by
  have apart : (((List.range n).map fun i => plain (key i)).map (·.id)).Nodup := by
    rw [List.map_map]
    apply (List.nodup_map_iff_inj_on List.nodup_range).mpr
    intro i hi j hj same
    rw [List.mem_range] at hi hj
    exact key_injective (by omega) (by omega) same
  have alone : unambiguous ((List.range n).map fun i => plain (key i)) =
      (List.range n).map fun i => plain (key i) := by
    apply List.filter_eq_self.mpr
    intro b mem
    have once := List.count_eq_one_of_mem apart (List.mem_map_of_mem mem)
    rw [List.count, List.countP_map] at once
    exact beq_iff_eq.mpr once
  rw [normalizedBuckets, manyEntries_entries some', manyEntries_buckets, alone]
  exact List.mergeSort_perm _ _

theorem dumpsItems_length {items : List Json} {k : Nat}
    (h : ∀ j ∈ items, ∃ text, dumps j = some text ∧ text.length ≤ k) :
    ∃ text, dumpsItems items = some text ∧ text.length ≤ items.length * (k + 1) := by
  induction items with
  | nil => exact ⟨[], rfl, Nat.zero_le _⟩
  | cons j items ih =>
    obtain ⟨first, hfirst, short⟩ := h j List.mem_cons_self
    obtain ⟨rest, hrest, short'⟩ := ih fun j mem => h j (List.mem_cons_of_mem _ mem)
    refine ⟨0x2c :: (first ++ rest), by rw [dumpsItems, hfirst, hrest]; rfl, ?_⟩
    rw [List.length_cons, List.length_append, List.length_cons, Nat.succ_mul]
    omega

private theorem quoted_key (i : Nat) : (quoted (QuotaDashboard.word (key i))).length = 34 := by
  have one : ∀ c ∈ (QuotaDashboard.word (key i)).toList, (escape c).length = 1 := by
    intro c mem
    rw [word_toList] at mem
    obtain ⟨d, digit, rfl⟩ := List.mem_map.mp mem
    obtain rfl | rfl := key_digit digit <;> decide
  have size := List.sum_eq_card_nsmul ((QuotaDashboard.word (key i)).toList.map fun c =>
    (escape c).length) 1 (by simpa using one)
  rw [quoted, List.length_cons, List.length_append, List.length_flatMap, size, List.length_map,
    word_toList, List.length_map, key_length]
  rfl

theorem plain_length (i : Nat) :
    ∃ text, dumps (plain (key i)).document = some text ∧ text.length ≤ 200 := by
  have size := quoted_key i
  refine ⟨_, rfl, ?_⟩
  simp only [plain, List.length_cons, List.length_append, size]
  decide

def manyDashboard (n : Nat) : Dashboard where
  available := true
  capturedEpoch := 2000
  ageSeconds := 0
  buckets := (normalizedBuckets (fun _ => false) (manyAnswer n)).take maxBuckets
  totalBuckets := n
  truncated := decide (n > maxBuckets)
  resetCredits := none

theorem manyAnswer_normalized {n : Nat} (some' : n ≠ 0) (few : n ≤ 2 ^ 32) :
    normalizeQuotaDashboard (fun _ => false) (manyAnswer n) (.int 2000) = .ok (manyDashboard n) := by
  have perm := manyBuckets_perm some' few
  have size : (normalizedBuckets (fun _ => false) (manyAnswer n)).length = n := by
    rw [perm.length_eq, List.length_map, List.length_range]
  have listed : (normalizedBuckets (fun _ => false) (manyAnswer n)).isEmpty = false := by
    rw [List.isEmpty_eq_false_iff, ← List.length_pos_iff, size]
    exact Nat.pos_of_ne_zero some'
  have epoch : integer (.int 2000) uint32Max = some 2000 := rfl
  have resets : resetCount ((manyAnswer n).get "rateLimitResetCredits") = none := rfl
  simp only [normalizeQuotaDashboard, epoch, listed, size, resets]
  rfl

private theorem dumps_array_length {items : List Json} {k : Nat}
    (h : ∀ j ∈ items, ∃ text, dumps j = some text ∧ text.length ≤ k) :
    ∃ text, dumps (.array items) = some text ∧ text.length ≤ items.length * (k + 1) + 2 := by
  obtain ⟨text, rendered, short⟩ := dumpsItems_length h
  cases items with
  | nil => exact ⟨[0x5b, 0x5d], rfl, Nat.le_add_left 2 _⟩
  | cons j items =>
    rw [dumpsItems] at rendered
    obtain ⟨first, hfirst, rendered⟩ := Option.bind_eq_some_iff.mp rendered
    obtain ⟨rest, hrest, rendered⟩ := Option.bind_eq_some_iff.mp rendered
    cases rendered
    refine ⟨0x5b :: (first ++ (rest ++ [0x5d])), by rw [dumps, hfirst, hrest]; rfl, ?_⟩
    simp only [List.length_cons, List.length_append, List.length_nil] at short ⊢
    omega

theorem manyDashboard_length {n : Nat} (size : n = 2 ^ 32) :
    ∃ payload, dumps ((manyDashboard n).aged 0).document = some payload ∧ payload.length ≤ 8192 := by
  have each : ∀ j ∈ (manyDashboard n).buckets.map Bucket.document,
      ∃ text, dumps j = some text ∧ text.length ≤ 200 := by
    intro j mem
    obtain ⟨b, taken, rfl⟩ := List.mem_map.mp mem
    have listed := (manyBuckets_perm (n := n) (by omega) (by omega)).mem_iff.mp
      (List.mem_of_mem_take taken)
    obtain ⟨i, _, rfl⟩ := List.mem_map.mp listed
    exact plain_length i
  obtain ⟨buckets, rendered, short⟩ := dumps_array_length each
  have few : ((manyDashboard n).buckets.map Bucket.document).length ≤ 8 := by
    rw [List.length_map]
    exact List.length_take_le _ _
  have cut : (manyDashboard n).truncated = true := by
    apply decide_eq_true
    show n > 8
    omega
  have total : (number (n : Int)).length = 10 := by
    subst size
    norm_num [number, decimal]
  have document : ((manyDashboard n).aged 0).document = .object [("version", .number (some 2)),
      ("available", .bool true), ("captured_epoch", .number (some 2000)),
      ("age_seconds", .number (some 0)),
      ("buckets", .array ((manyDashboard n).buckets.map Bucket.document)),
      ("total_buckets", .number (some (n : Int))), ("truncated", .bool (manyDashboard n).truncated),
      ("reset_credits", .null)] := rfl
  rw [document, cut]
  simp only [dumps, dumpsMembers, rendered, Option.bind_eq_bind, Option.bind_some, Option.map_some]
  refine ⟨_, rfl, ?_⟩
  have fixed : (number 2).length = 1 ∧ (number 2000).length = 4 ∧ (number 0).length = 1 := by
    norm_num [number, decimal]
  have names : (quoted "version").length = 9 ∧ (quoted "available").length = 11 ∧
      (quoted "captured_epoch").length = 16 ∧ (quoted "age_seconds").length = 13 ∧
      (quoted "buckets").length = 9 ∧ (quoted "total_buckets").length = 15 ∧
      (quoted "truncated").length = 11 ∧ (quoted "reset_credits").length = 15 ∧
      (TokenHistory.word "true").length = 4 ∧ (TokenHistory.word "null").length = 4 := by
    decide
  simp only [List.length_cons, List.length_append, List.length_nil, total, fixed, names]
  omega

private theorem many_unread {n : Nat} (excess : uint32Max < n) :
    QuotaMonitor.parsed ((manyDashboard n).aged 0).document = none := by
  have count (least : Int) : TokenHistory.integer (some ((manyDashboard n).aged 0).document)
      "total_buckets" least QuotaMonitor.uint32Max = none := by
    apply if_neg
    show ¬ (least ≤ (n : Int) ∧ (n : Int) ≤ uint32Max)
    omega
  rw [QuotaMonitor.parsed]
  simp [count]

/-- `total_buckets` must be a word for the firmware. -/
theorem dashboard_unparsed : ¬ ∀ (control : Nat → Bool) (raw captured : Value) (d : Dashboard)
    (age : Int) (payload : List UInt8) (parseText : List UInt8 → Option Json),
    normalizeQuotaDashboard control raw captured = .ok d → 0 ≤ age →
      (d.aged age).available = true → dumps (d.aged age).document = some payload →
      payload.length ≤ 8192 → parseText payload = some (d.aged age).document →
      QuotaMonitor.parse parseText payload = some (d.aged age).stored ∧
        ((d.aged age).stored.buckets.map (·.id)).Nodup := by
  intro all
  obtain ⟨n, size⟩ : ∃ n, n = 2 ^ 32 := ⟨_, rfl⟩
  obtain ⟨payload, rendered, fits⟩ := manyDashboard_length size
  have normalized := manyAnswer_normalized (n := n) (by omega) (by omega)
  obtain ⟨taken, _⟩ := all _ _ _ _ 0 payload
    (fun text => if text = payload then some ((manyDashboard n).aged 0).document else none)
    normalized (by decide) rfl rendered fits (if_pos rfl)
  have unread := many_unread (n := n) (by rw [size]; decide)
  simp only [QuotaMonitor.parse, if_true, Option.bind_eq_bind, Option.bind_some, unread] at taken
  split_ifs at taken

end Mosaico.Host.QuotaDashboard
