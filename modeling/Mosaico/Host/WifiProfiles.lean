import Mathlib.Data.List.Induction
import Mosaico.Host.WifiProfilesModel
import Mosaico.Library.RecordLayout

/-! What holds of the remembered networks after any sequence of changes, that they and their blob determine
each other, and the order in which visible ones are tried. -/
namespace Mosaico.Host.WifiProfiles

open ByteFields CText RecordLayout

section Names

variable {s e : List UInt8} {maximum n : Nat}

theorem bounded_nul (s : List UInt8) : bounded maximum (0 :: s) = [] := rfl

private theorem bounded_last {c : UInt8} (h : c ≠ 0) (s : List UInt8) : bounded 0 (c :: s) = [c] := by
  simp [bounded, untilNul, h]

private theorem bounded_cons {c : UInt8} (h : c ≠ 0) (s : List UInt8) :
    bounded (maximum + 1) (c :: s) = c :: bounded maximum s := by
  simp [bounded, untilNul, h]

/-- The characters of the name, and the NUL behind it where it is not too long. -/
theorem bounded_facts (maximum : Nat) (s : List UInt8) :
    (bounded maximum s).length ≤ maximum + 1 ∧
      (∀ i, i < (bounded maximum s).length → s.getD i 0 ≠ 0 ∧ (bounded maximum s).getD i 0 = s.getD i 0) ∧
      ((bounded maximum s).length ≤ maximum → s.getD (bounded maximum s).length 0 = 0) := by
  induction s generalizing maximum with
  | nil => exact ⟨Nat.zero_le _, fun i h => absurd h (Nat.not_lt_zero i), fun _ => rfl⟩
  | cons c s ih =>
    by_cases nul : c = 0
    · rw [nul, bounded_nul]
      exact ⟨Nat.zero_le _, fun i h => absurd h (Nat.not_lt_zero i), fun _ => rfl⟩
    · cases maximum with
      | zero =>
        rw [bounded_last nul]
        refine ⟨Nat.le_refl 1, fun i h => ?_, fun h => absurd h (Nat.not_succ_le_zero 0)⟩
        obtain rfl : i = 0 := Nat.lt_one_iff.mp h
        exact ⟨nul, rfl⟩
      | succ maximum =>
        obtain ⟨few, chars, stop⟩ := ih maximum
        rw [bounded_cons nul]
        refine ⟨Nat.succ_le_succ few, fun i h => ?_, fun h => stop (Nat.le_of_succ_le_succ h)⟩
        cases i with
        | zero => exact ⟨nul, rfl⟩
        | succ i => exact chars i (Nat.lt_of_succ_lt_succ h)

/-- A name is known from its characters and the first NUL. -/
theorem bounded_of (few : n ≤ maximum) (chars : ∀ i, i < n → s.getD i 0 ≠ 0) (stop : s.getD n 0 = 0) :
    (bounded maximum s).length = n ∧ ∀ i, i < n → (bounded maximum s).getD i 0 = s.getD i 0 := by
  obtain ⟨-, all, end_⟩ := bounded_facts maximum s
  have length : (bounded maximum s).length = n := by
    rcases Nat.lt_trichotomy (bounded maximum s).length n with short | same | long
    · exact absurd (end_ (by omega)) (chars _ short)
    · exact same
    · exact absurd stop (all n long).1
  exact ⟨length, fun i hi => (all i (by omega)).2⟩

theorem bounded_congr {m : Nat} (few : (bounded maximum s).length ≤ maximum) (large : (bounded maximum s).length ≤ m)
    (agree : ∀ i, i ≤ (bounded maximum s).length → e.getD i 0 = s.getD i 0) : bounded m e = bounded maximum s := by
  obtain ⟨-, chars, stop⟩ := bounded_facts maximum s
  obtain ⟨length, values⟩ := bounded_of (s := e) large
    (fun i hi => by rw [agree i (Nat.le_of_lt hi)]; exact (chars i hi).1)
    (by rw [agree _ (Nat.le_refl _)]; exact stop few)
  apply List.ext_getElem length
  intro i h h'
  have left := values i h'
  rw [agree i (Nat.le_of_lt h'), ← (chars i h').2] at left
  simpa only [List.getD_eq_getElem?_getD, List.getElem?_eq_getElem h, List.getElem?_eq_getElem h', Option.getD_some]
    using left

theorem sameFrom_iff (fuel j : Nat) : sameFrom e s fuel j = true ↔
    ∃ k, j ≤ k ∧ k < j + fuel ∧ s.getD k 0 = 0 ∧ ∀ i, j ≤ i → i ≤ k → e.getD i 0 = s.getD i 0 := by
  induction fuel generalizing j with
  | zero => exact ⟨nofun, fun ⟨k, low, high, _⟩ => absurd high (by omega)⟩
  | succ fuel ih =>
    rw [sameFrom]
    by_cases agree : e.getD j 0 = s.getD j 0
    · rw [if_pos agree]
      by_cases nul : s.getD j 0 = 0
      · rw [if_pos nul]
        refine ⟨fun _ => ⟨j, Nat.le_refl j, by omega, nul, fun i low high => ?_⟩, fun _ => rfl⟩
        obtain rfl : i = j := by omega
        exact agree
      · rw [if_neg nul, ih]
        constructor
        · rintro ⟨k, low, high, stop, all⟩
          refine ⟨k, by omega, by omega, stop, fun i hi hk => ?_⟩
          rcases Nat.eq_or_lt_of_le hi with rfl | later
          · exact agree
          · exact all i later hk
        · rintro ⟨k, low, high, stop, all⟩
          have apart : j ≠ k := fun h => nul (h ▸ stop)
          exact ⟨k, by omega, by omega, stop, fun i hi hk => all i (by omega) hk⟩
    · rw [if_neg agree]
      refine ⟨nofun, fun ⟨k, low, _, _, all⟩ => absurd (all j (Nat.le_refl j) low) agree⟩

/-- `find` compares names, and takes none that is too long. -/
theorem same_iff : same e s = true ↔ bounded 32 e = bounded 32 s ∧ (bounded 32 s).length ≤ 32 := by
  rw [same, sameFrom_iff]
  obtain ⟨-, chars, stop⟩ := bounded_facts 32 s
  constructor
  · rintro ⟨k, -, high, nul, all⟩
    have few : (bounded 32 s).length ≤ k := by
      by_contra long
      exact (chars k (by omega)).1 nul
    exact ⟨bounded_congr (by omega) (by omega) fun i hi => all i (Nat.zero_le i) (by omega), by omega⟩
  · rintro ⟨equal, few⟩
    obtain ⟨-, chars', stop'⟩ := bounded_facts 32 e
    rw [equal] at chars' stop'
    refine ⟨(bounded 32 s).length, Nat.zero_le _, by omega, stop few, fun i _ hi => ?_⟩
    rcases Nat.eq_or_lt_of_le hi with rfl | inside
    · rw [stop few, stop' few]
    · rw [← (chars i inside).2, ← (chars' i inside).2]

end Names

def name (m : Model) (i : Nat) : List UInt8 := bounded 32 (m.entry i).ssid.toList

def secret (m : Model) (i : Nat) : List UInt8 := bounded 64 (m.entry i).password.toList

structure Good (p : Profile) : Prop where
  ssid : validSsid (bounded 32 p.ssid.toList) = true
  password : validPassword (bounded 64 p.password.toList) = true
  ssidEnd : byteAt p.ssid 32 = 0
  passwordEnd : byteAt p.password 64 = 0

/-- What every change keeps and every accepted blob has. -/
structure Valid (m : Model) : Prop where
  few : m.count ≤ 6
  good : ∀ i, i < m.count → Good (m.entry i)
  clear : ∀ i, m.count ≤ i → m.entry i = {}
  apart : ∀ i j, i < j → j < m.count → name m i ≠ name m j
  last : m.lastSuccess = 255 ∨ m.lastSuccess < m.count

section Entries

variable {m : Model} {i j : Nat} {s p : List UInt8}

theorem toList_getD {n : Nat} (b : Bytes n) (i : Nat) : b.toList.getD i 0 = byteAt b i := by
  unfold byteAt
  by_cases h : i < n
  · rw [dif_pos h, List.getD_eq_getElem?_getD, List.getElem?_eq_getElem (by simpa using h), Option.getD_some]
    simp
  · rw [dif_neg h, List.getD_eq_getElem?_getD, List.getElem?_eq_none (by simpa using h), Option.getD_none]

theorem entry_eq (m : Model) (h : i < 6) : m.entry i = m.entries[i] := dif_pos h

theorem entry_of_le (h : 6 ≤ i) : m.entry i = {} := dif_neg (Nat.not_lt.mpr h)

theorem ext_entry {a b : Model} (count : a.count = b.count) (last : a.lastSuccess = b.lastSuccess)
    (entries : ∀ i, i < 6 → a.entry i = b.entry i) : a = b := by
  cases a with
  | mk entries₁ count₁ last₁ =>
    cases b with
    | mk entries₂ count₂ last₂ =>
      have same : entries₁ = entries₂ := by
        apply Vector.ext
        intro i hi
        have here := entries i hi
        unfold Model.entry at here
        rwa [dif_pos hi, dif_pos hi] at here
      cases count
      cases last
      rw [same]

theorem find_some (h : m.find s = some i) : i < m.count ∧ name m i = bounded 32 s ∧ (bounded 32 s).length ≤ 32 := by
  rw [Model.find, List.find?_range_eq_some] at h
  exact ⟨List.mem_range.mp h.2.1, same_iff.mp h.1⟩

theorem find_none (h : m.find s = none) (inside : i < m.count) (few : (bounded 32 s).length ≤ 32) :
    name m i ≠ bounded 32 s := by
  rw [Model.find, List.find?_eq_none] at h
  exact fun equal => h i (List.mem_range.mpr inside) (same_iff.mpr ⟨equal, few⟩)

theorem validSsid_length {name : List UInt8} (h : validSsid name = true) : name ≠ [] ∧ name.length ≤ 32 := by
  simp only [validSsid, Bool.and_eq_true, decide_eq_true_eq] at h
  exact h.1

theorem validPassword_length {password : List UInt8} (h : validPassword password = true) : password.length ≤ 64 := by
  simp only [validPassword, Bool.and_eq_true, decide_eq_true_eq] at h
  exact h.1.1

/-- In a valid model a name is found where it is. -/
theorem find_iff (h : Valid m) : m.find s = some i ↔ i < m.count ∧ name m i = bounded 32 s := by
  constructor
  · intro found
    exact ⟨(find_some found).1, (find_some found).2.1⟩
  · rintro ⟨inside, equal⟩
    have few := (validSsid_length (h.good i inside).ssid).2
    rw [Model.find, List.find?_range_eq_some]
    refine ⟨same_iff.mpr ⟨equal, ?_⟩, List.mem_range.mpr inside, fun j earlier => ?_⟩
    · rw [← equal]
      exact few
    · rw [Bool.not_eq_true', Bool.eq_false_iff]
      intro here
      exact h.apart j i earlier inside ((same_iff.mp here).1.trans equal.symm)

theorem entry_store (hi : i < 6) : (m.store i s p).entry j = if j = i then {
    ssid := Model.copySsid (m.entry i).ssid s
    password := if p.getD 0 0 = 0 ∧ byteAt (m.entry i).password 0 ≠ 0 then (m.entry i).password
      else Model.copyPassword p } else m.entry j := by
  unfold Model.store
  dsimp only
  conv_lhs => unfold Model.entry
  by_cases hj : j < 6
  · rw [dif_pos hj]
    simp only [Vector.getElem_setIfInBounds]
    by_cases here : j = i
    · rw [if_pos here.symm, if_pos here]
      rfl
    · rw [if_neg (Ne.symm here), if_neg here, Model.entry, dif_pos hj]
  · rw [dif_neg hj, if_neg (by omega), entry_of_le (by omega)]

theorem copySsid_text (few : (bounded 32 s).length ≤ 32) (old : Bytes 33) :
    bounded 32 (Model.copySsid old s).toList = bounded 32 s := by
  apply bounded_congr few few
  intro i hi
  rw [toList_getD, Model.copySsid, byteAt_ofFn, if_pos (by omega), if_pos hi]

theorem copySsid_end (few : (bounded 32 s).length ≤ 32) {old : Bytes 33} (end_ : byteAt old 32 = 0) :
    byteAt (Model.copySsid old s) 32 = 0 := by
  rw [Model.copySsid, byteAt_ofFn, if_pos (by decide)]
  split
  case isFalse => exact end_
  case isTrue whole =>
    obtain ⟨-, -, stop⟩ := bounded_facts 32 s
    have length : (bounded 32 s).length = 32 := Nat.le_antisymm few whole
    rw [← length]
    exact stop few

theorem copyPassword_text (few : (bounded 64 p).length ≤ 64) :
    bounded 64 (Model.copyPassword p).toList = bounded 64 p := by
  apply bounded_congr few few
  intro i hi
  rw [toList_getD, Model.copyPassword, byteAt_ofFn, if_pos (by omega)]
  obtain ⟨-, chars, stop⟩ := bounded_facts 64 p
  obtain ⟨short, chars', stop'⟩ := bounded_facts 63 p
  -- The 64 characters that are copied are all there are before the NUL.
  have length : (bounded 63 p).length = (bounded 64 p).length := by
    rcases Nat.lt_trichotomy (bounded 63 p).length (bounded 64 p).length with less | same | more
    · exact absurd (stop' (by omega)) (chars _ less).1
    · exact same
    · exact absurd (stop few) (chars' _ more).1
  rcases Nat.eq_or_lt_of_le hi with rfl | inside
  · rw [stop few]
    split
    · rw [List.getD_eq_getElem?_getD, List.getElem?_eq_none (Nat.le_of_eq length)]
      rfl
    · rfl
  · rw [if_pos (by omega), (chars' i (by omega)).2]

theorem copyPassword_end (p : List UInt8) : byteAt (Model.copyPassword p) 64 = 0 := by
  rw [Model.copyPassword, byteAt_ofFn, if_pos (by decide), if_neg (by decide)]

theorem entry_forget {k : Nat} (found : m.find s = some i) (more : ¬m.count ≤ 1) (h : Valid m) (hk : k < 6) :
    (m.forget s).1.entry k = if k < i then m.entry k else m.entry (k + 1) := by
  have inside := (find_some found).1
  have few := h.few
  rw [entry_eq _ hk]
  simp only [Model.forget, found, if_neg more, Vector.getElem_ofFn]
  split
  · rfl
  split
  · rfl
  split
  · exact (h.clear _ (by omega)).symm
  · rw [h.clear k (by omega), h.clear (k + 1) (by omega)]

end Entries

section Changes

variable {m : Model} {s p : List UInt8}

theorem valid_empty : Valid {} :=
  ⟨by decide, fun i h => absurd h (Nat.not_lt_zero i), fun i _ => by
    unfold Model.entry
    split
    · exact Vector.getElem_replicate _
    · rfl,
    fun _ _ _ h => absurd h (Nat.not_lt_zero _), Or.inl rfl⟩

/-- What is stored under a name that no other entry has. -/
theorem good_store {i : Nat} (ssid : validSsid (bounded 32 s) = true) (password : validPassword (bounded 64 p) = true)
    (hi : i < 6) (old : Good (m.entry i) ∨ m.entry i = {}) : Good ((m.store i s p).entry i) := by
  have few := (validSsid_length ssid).2
  have short := validPassword_length password
  have ends : byteAt (m.entry i).ssid 32 = 0 ∧ byteAt (m.entry i).password 64 = 0 := by
    rcases old with good | empty
    · exact ⟨good.ssidEnd, good.passwordEnd⟩
    · rw [empty]
      exact ⟨byteAt_zero 32, byteAt_zero 64⟩
  rw [entry_store hi, if_pos rfl]
  by_cases keep : p.getD 0 0 = 0 ∧ byteAt (m.entry i).password 0 ≠ 0
  · rcases old with good | empty
    · refine ⟨?_, ?_, copySsid_end few ends.1, ?_⟩
      · rw [copySsid_text few]
        exact ssid
      · simp only [if_pos keep]
        exact good.password
      · simp only [if_pos keep]
        exact ends.2
    · rw [empty] at keep
      exact absurd (byteAt_zero 0) keep.2
  · refine ⟨?_, ?_, copySsid_end few ends.1, ?_⟩
    · rw [copySsid_text few]
      exact ssid
    · simp only [if_neg keep]
      rw [copyPassword_text short]
      exact password
    · simp only [if_neg keep]
      exact copyPassword_end p

theorem name_store {i j : Nat} (few : (bounded 32 s).length ≤ 32) (hi : i < 6) :
    name (m.store i s p) j = if j = i then bounded 32 s else name m j := by
  unfold name
  rw [entry_store hi]
  split
  · exact copySsid_text few _
  · rfl

theorem valid_upsert (h : Valid m) (s p : Option (List UInt8)) : Valid (m.upsert s p).1 := by
  unfold Model.upsert
  split
  case h_2 => exact h
  rename_i s p
  split
  · exact h
  case isFalse accepted =>
  simp only [validCredentials, Bool.not_eq_true', Bool.not_eq_false, Bool.and_eq_true] at accepted
  obtain ⟨ssid, password⟩ := accepted
  have few := (validSsid_length ssid).2
  split
  case h_1 i found =>
    obtain ⟨inside, same_⟩ := (find_iff h).mp found
    have small := h.few
    have names : ∀ j, name (m.store i s p) j = name m j := by
      intro j
      rw [name_store few (by omega)]
      split
      case isTrue here => rw [here, same_]
      case isFalse => rfl
    refine ⟨h.few, fun j hj => ?_, fun j hj => ?_, fun j k hjk hk => ?_, h.last⟩
    · by_cases here : j = i
      · rw [here]
        exact good_store ssid password (by omega) (Or.inl (h.good i inside))
      · rw [entry_store (by omega), if_neg here]
        exact h.good j hj
    · have behind : m.count ≤ j := hj
      rw [entry_store (by omega), if_neg (by omega)]
      exact h.clear j behind
    · rw [names, names]
      exact h.apart j k hjk hk
  case h_2 absent =>
    split
    · exact h
    case isFalse room =>
    have small : m.count < 6 := Nat.lt_of_le_of_ne h.few room
    have grown : ∀ j, ({ m with count := m.count + 1 } : Model).entry j = m.entry j := fun j => rfl
    have counted : (({ m with count := m.count + 1 } : Model).store m.count s p).count = m.count + 1 := rfl
    refine ⟨?_, fun j hj => ?_, fun j hj => ?_, fun j k hjk hk => ?_, ?_⟩
    · rw [counted]
      omega
    · rw [counted] at hj
      by_cases here : j = m.count
      · rw [here]
        exact good_store ssid password small (Or.inr (h.clear m.count (Nat.le_refl _)))
      · rw [entry_store small, if_neg here]
        exact h.good j (by omega)
    · rw [counted] at hj
      rw [entry_store small, if_neg (by omega)]
      exact h.clear j (by omega)
    · rw [counted] at hk
      rw [name_store few small, name_store few small, if_neg (by omega)]
      by_cases here : k = m.count
      · rw [if_pos here]
        have earlier : j < m.count := by omega
        exact find_none (m := m) absent earlier few
      · rw [if_neg here]
        exact h.apart j k hjk (by omega)
    · rw [counted]
      rcases h.last with none_ | inside
      · exact Or.inl none_
      · exact Or.inr (Nat.lt_succ_of_lt inside)

theorem valid_forget (h : Valid m) (s : List UInt8) : Valid (m.forget s).1 := by
  have kept : (m.forget s).1 = m → Valid (m.forget s).1 := by
    intro same_
    rw [same_]
    exact h
  cases found : m.find s with
  | none => exact kept (by simp only [Model.forget, found])
  | some i =>
    by_cases more : m.count ≤ 1
    · exact kept (by simp only [Model.forget, found, if_pos more])
    have inside := (find_some found).1
    have few := h.few
    have counted : (m.forget s).1.count = m.count - 1 := by simp only [Model.forget, found, if_neg more]
    have names : ∀ k, k < 6 → name (m.forget s).1 k = if k < i then name m k else name m (k + 1) := by
      intro k hk
      unfold name
      rw [entry_forget found more h hk]
      split
      · rfl
      · rfl
    refine ⟨?_, fun k hk => ?_, fun k hk => ?_, fun j k hjk hk => ?_, ?_⟩
    · rw [counted]
      omega
    · rw [counted] at hk
      rw [entry_forget found more h (by omega)]
      split
      · exact h.good k (by omega)
      · exact h.good (k + 1) (by omega)
    · rw [counted] at hk
      by_cases out : 6 ≤ k
      · exact entry_of_le out
      · rw [entry_forget found more h (by omega), if_neg (by omega)]
        exact h.clear (k + 1) (by omega)
    · rw [counted] at hk
      rw [names j (by omega), names k (by omega)]
      split
      · split
        · exact h.apart j k hjk (by omega)
        · exact h.apart j (k + 1) (by omega) (by omega)
      · rw [if_neg (by omega)]
        exact h.apart (j + 1) (k + 1) (by omega) (by omega)
    · rw [counted]
      simp only [Model.forget, found, if_neg more]
      have last := h.last
      split
      · exact Or.inl rfl
      split
      · right
        omega
      · omega

theorem valid_succeeded (h : Valid m) (s : List UInt8) : Valid (m.succeeded s) := by
  unfold Model.succeeded
  split
  · exact h
  case h_2 i found => exact ⟨h.few, h.good, h.clear, h.apart, Or.inr (find_some found).1⟩

end Changes

section Codec

variable {m : Model} {b : Blob}

def entryByte (p : Profile) (j : Nat) : UInt8 := if j < 33 then byteAt p.ssid j else byteAt p.password (j - 33)

private theorem byteAt_putEntry {i k : Nat} (hk : k < 600) : byteAt (putEntry m b i) k =
    if 8 + i * 98 ≤ k ∧ k < 8 + i * 98 + 98 then entryByte (m.entry i) (k - (8 + i * 98)) else byteAt b k := by
  unfold putEntry
  rw [blit, byteAt_ofFn, if_pos hk, blit, byteAt_ofFn, if_pos hk]
  unfold entryByte
  by_cases ssid : 8 + i * 98 ≤ k ∧ k < 8 + i * 98 + 33
  · rw [if_neg (by omega), if_pos ssid, if_pos (by omega), if_pos (by omega)]
  · rw [if_neg ssid]
    by_cases password : 41 + i * 98 ≤ k ∧ k < 41 + i * 98 + 65
    · rw [if_pos password, if_pos (by omega), if_neg (by omega), Nat.sub_sub,
        show 8 + i * 98 + 33 = 41 + i * 98 by omega]
    · rw [if_neg password, if_neg (by omega)]

/-- The bytes before the checksum: the header, then the entries. -/
theorem byteAt_entries {n k : Nat} (few : n ≤ 6) (hk : k < 600) :
    byteAt ((List.range n).foldl (putEntry m) b) k =
      if 8 ≤ k ∧ (k - 8) / 98 < n then entryByte (m.entry ((k - 8) / 98)) ((k - 8) % 98) else byteAt b k := by
  induction n with
  | zero => exact (if_neg (by omega)).symm
  | succ n ih =>
    rw [List.range_succ, List.foldl_append, List.foldl_cons, List.foldl_nil, byteAt_putEntry hk, ih (by omega)]
    by_cases here : 8 + n * 98 ≤ k ∧ k < 8 + n * 98 + 98
    · have row : (k - 8) / 98 = n := by omega
      have column : k - (8 + n * 98) = (k - 8) % 98 := by omega
      rw [if_pos here, if_pos (by omega), row, column]
    · rw [if_neg here]
      by_cases earlier : 8 ≤ k ∧ (k - 8) / 98 < n
      · rw [if_pos earlier, if_pos (by omega)]
      · rw [if_neg earlier, if_neg (by omega)]

theorem byteAt_encode {k : Nat} (few : m.count ≤ 6) (hk : k < 596) : byteAt (encode m) k =
    if 8 ≤ k ∧ (k - 8) / 98 < m.count then entryByte (m.entry ((k - 8) / 98)) ((k - 8) % 98)
    else byteAt (header m) k := by
  rw [encode, byteAt_closeCrc _ _ _ hk, byteAt_entries few (by omega)]

theorem byteAt_header (k : Nat) (hk : k < 600) : byteAt (header m) k =
    if k < 4 then digit magic k else if k = 4 then digit m.count 0 else if k = 5
      then digit m.lastSuccess 0 else 0 := by
  unfold header
  rw [byteAt_put, if_pos hk]
  by_cases five : k = 5
  · rw [if_pos (by omega), if_neg (by omega), if_neg (by omega), if_pos five, five]
  · rw [if_neg (by omega), byteAt_put, if_pos hk]
    by_cases four : k = 4
    · rw [if_pos (by omega), if_neg (by omega), if_pos four, four]
    · rw [if_neg (by omega), byteAt_put, if_pos hk]
      by_cases low : k < 4
      · rw [if_pos (by omega), if_pos low, Nat.sub_zero]
      · rw [if_neg (by omega), if_neg low, if_neg four, if_neg five, byteAt_zero]

/-- What an accepted blob says of the model that is read from it. -/
structure Accepted (b : Blob) (m : Model) : Prop where
  magic : ∀ k, k < 4 → byteAt b k = digit magic k
  count : m.count = (byteAt b 4).toNat
  last : m.lastSuccess = (byteAt b 5).toNat
  gap : byteAt b 6 = 0 ∧ byteAt b 7 = 0
  checksum : crcMatches b 596 = true
  some_ : 0 < m.count
  entries : ∀ i j, i < 6 → j < 98 → byteAt b (8 + i * 98 + j) = if i < m.count then entryByte (m.entry i) j else 0

theorem accepted_encode (h : Accepted b m) (few : m.count ≤ 6) : encode m = b := by
  apply closeCrc_of_body _ h.checksum
  intro k hk
  rw [byteAt_entries few (by omega), byteAt_header k (by omega)]
  by_cases inside : 8 ≤ k
  · have place : 8 + (k - 8) / 98 * 98 + (k - 8) % 98 = k := by omega
    have byte := h.entries ((k - 8) / 98) ((k - 8) % 98) (by omega) (by omega)
    rw [place] at byte
    rw [byte]
    by_cases used : (k - 8) / 98 < m.count
    · rw [if_pos ⟨inside, used⟩, if_pos used]
    · rw [if_neg fun both => used both.2, if_neg used, if_neg (by omega), if_neg (by omega), if_neg (by omega)]
  · rw [if_neg fun both => inside both.1]
    have whole : ∀ v : UInt8, digit v.toNat 0 = v := by
      intro v
      simp [digit]
    by_cases low : k < 4
    · rw [if_pos low, h.magic k low]
    · rw [if_neg low]
      obtain rfl | rfl | rfl | rfl : k = 4 ∨ k = 5 ∨ k = 6 ∨ k = 7 := by omega
      · rw [if_pos rfl, h.count, whole]
      · rw [if_neg (by decide), if_pos rfl, h.last, whole]
      · exact h.gap.1.symm
      · exact h.gap.2.symm

theorem get_magic (h : ∀ k, k < 4 → byteAt b k = digit magic k) : get b 0 4 = magic := by
  have same : get b 0 4 = get (header {}) 0 4 := by
    apply get_congr
    intro k _ hk
    rw [byteAt_header k (by omega), if_pos (by omega)]
    exact h k (by omega)
  rw [same]
  unfold header
  rw [get_put_other _ _ _ _ _ _ (by omega), get_put_other _ _ _ _ _ _ (by omega),
    get_put _ _ _ _ (by omega) (by decide)]

theorem magic_get (h : get b 0 4 = magic) (k : Nat) (hk : k < 4) : byteAt b k = digit magic k := by
  rw [← h, digit_get b 0 4 k hk, Nat.zero_add]

theorem slice_eq {p len : Nat} {v : Bytes len} (h : ∀ i, i < len → byteAt b (p + i) = byteAt v i) :
    slice b p len len = v := by
  apply ext_byteAt
  intro i hi
  rw [slice, byteAt_ofFn, if_pos hi, if_pos hi]
  exact h i hi

/-- The model that is read is the one the blob speaks of. -/
theorem accepted_read (h : Accepted b m) (clear : ∀ i, m.count ≤ i → m.entry i = {}) : readModel b = m := by
  refine ext_entry h.count.symm h.last.symm fun i hi => ?_
  rw [entry_eq _ hi]
  simp only [readModel, Vector.getElem_ofFn]
  rw [← h.count]
  by_cases used : i < m.count
  · rw [if_pos used]
    have ssid : slice b (8 + i * 98) 33 33 = (m.entry i).ssid := by
      apply slice_eq
      intro j hj
      rw [h.entries i j hi (by omega), if_pos used, entryByte, if_pos hj]
    have password : slice b (41 + i * 98) 65 65 = (m.entry i).password := by
      apply slice_eq
      intro j hj
      have byte := h.entries i (33 + j) hi (by omega)
      rw [if_pos used, entryByte, if_neg (by omega), Nat.add_sub_cancel_left] at byte
      rw [← byte, show 41 + i * 98 + j = 8 + i * 98 + (33 + j) by omega]
    rw [ssid, password]
  · rw [if_neg used]
    exact (clear i (by omega)).symm

theorem accepted_of_encode (h : Valid m) (some_ : 0 < m.count) : Accepted (encode m) m := by
  have few := h.few
  have low : ∀ k, k < 8 → byteAt (encode m) k = byteAt (header m) k := by
    intro k hk
    rw [byteAt_encode few (by omega), if_neg (by omega)]
  have whole : ∀ v, v < 256 → (digit v 0).toNat = v := by
    intro v hv
    rw [digit_toNat]
    omega
  refine ⟨fun k hk => ?_, ?_, ?_, ⟨?_, ?_⟩, crcMatches_closeCrc _ _ (by omega), some_, fun i j hi hj => ?_⟩
  · rw [low k (by omega), byteAt_header k (by omega), if_pos hk]
  · rw [low 4 (by omega), byteAt_header 4 (by omega), if_neg (by decide), if_pos rfl, whole _ (by omega)]
  · have last := h.last
    rw [low 5 (by omega), byteAt_header 5 (by omega), if_neg (by decide), if_neg (by decide), if_pos rfl,
      whole _ (by omega)]
  · rw [low 6 (by omega), byteAt_header 6 (by omega)]
    rfl
  · rw [low 7 (by omega), byteAt_header 7 (by omega)]
    rfl
  · have row : (8 + i * 98 + j - 8) / 98 = i := by omega
    have column : (8 + i * 98 + j - 8) % 98 = j := by omega
    rw [byteAt_encode few (by omega), row, column]
    by_cases used : i < m.count
    · rw [if_pos ⟨by omega, used⟩, if_pos used]
    · rw [if_neg fun both => used both.2, if_neg used, byteAt_header _ (by omega), if_neg (by omega),
        if_neg (by omega), if_neg (by omega)]

theorem entryGood_of (h : Accepted b m) (valid : Valid m) {i : Nat} (hi : i < 6) : entryGood b m i = true := by
  unfold entryGood
  by_cases behind : m.count ≤ i
  · rw [if_pos behind, zeros_iff]
    intro k low high
    have byte := h.entries i (k - (8 + i * 98)) hi (by omega)
    rwa [if_neg (by omega), show 8 + i * 98 + (k - (8 + i * 98)) = k by omega] at byte
  · have used : i < m.count := Nat.lt_of_not_le behind
    have good := valid.good i used
    have ssidEnd := h.entries i 32 hi (by decide)
    have passwordEnd := h.entries i 97 hi (by decide)
    rw [if_pos used, entryByte, if_pos (by decide), good.ssidEnd] at ssidEnd
    rw [if_pos used, entryByte, if_neg (by decide), good.passwordEnd] at passwordEnd
    rw [if_neg behind, show 40 + i * 98 = 8 + i * 98 + 32 by omega, ssidEnd,
      show 105 + i * 98 = 8 + i * 98 + 97 by omega, passwordEnd]
    simp only [validCredentials, good.ssid, good.password, decide_true, Bool.and_self, Bool.true_and,
      List.all_eq_true]
    intro j hj
    rw [Bool.not_eq_true', Bool.eq_false_iff]
    intro alike
    exact valid.apart j i (List.mem_range.mp hj) used (same_iff.mp alike).1.symm

/-- A model with an entry is what its blob is decoded to. -/
theorem decodeModel_encode (h : Valid m) (some_ : 0 < m.count) : decodeModel (encode m) = some m := by
  have accepted := accepted_of_encode h some_
  have few := h.few
  have read := accepted_read accepted h.clear
  unfold decodeModel
  rw [read, if_neg, if_pos]
  · rw [List.all_eq_true]
    exact fun i hi => entryGood_of accepted h (List.mem_range.mp hi)
  · rw [get_magic accepted.magic, ← accepted.count, ← accepted.last, accepted.gap.1, accepted.gap.2,
      accepted.checksum]
    have count := accepted.count
    have last := h.last
    have lastByte := accepted.last
    have none_ : byteAt (encode m) 5 ≠ 255 → (byteAt (encode m) 5).toNat ≠ 255 := by
      intro apart same_
      exact apart (UInt8.toNat_inj.mp same_)
    have zero_ : byteAt (encode m) 4 = 0 → (byteAt (encode m) 4).toNat = 0 := by
      intro same_
      rw [same_]
      rfl
    unfold capacity
    rintro (wrong | zeroCount | many | wrong | wrong | wrong | ⟨apart, late⟩)
    · exact wrong rfl
    · have := zero_ zeroCount
      omega
    · omega
    · exact wrong rfl
    · exact wrong rfl
    · cases wrong
    · have := none_ apart
      omega

/-- An accepted blob is the one that is written for what it is decoded to. -/
theorem decodeModel_accepted (h : decodeModel b = some m) : Accepted b m ∧ Valid m := by
  unfold decodeModel at h
  split at h
  · cases h
  case isFalse head =>
  split at h
  case isFalse => cases h
  case isTrue good =>
  cases h
  simp only [not_or, not_not, not_and, Bool.not_eq_false] at head
  obtain ⟨magic_, count, few, gap, gap', checksum, last⟩ := head
  have small : (byteAt b 4).toNat ≤ 6 := Nat.le_of_not_lt few
  have used : ∀ i, i < (byteAt b 4).toNat → i < 6 →
      (readModel b).entry i = { ssid := slice b (8 + i * 98) 33 33, password := slice b (41 + i * 98) 65 65 } := by
    intro i hi room
    rw [entry_eq _ room]
    simp only [readModel, Vector.getElem_ofFn]
    rw [if_pos hi]
  have goods : ∀ i, i < 6 → entryGood b (readModel b) i = true :=
    fun i hi => List.all_eq_true.mp good i (List.mem_range.mpr hi)
  have active : ∀ i, i < (byteAt b 4).toNat → (byteAt b (40 + i * 98) = 0 ∧ byteAt b (105 + i * 98) = 0) ∧
      (validSsid (name (readModel b) i) = true ∧ validPassword (secret (readModel b) i) = true) ∧
      ∀ j, j < i → same ((readModel b).entry i).ssid.toList ((readModel b).entry j).ssid.toList = false := by
    intro i hi
    have here := goods i (by omega)
    unfold entryGood at here
    rw [if_neg (show ¬(readModel b).count ≤ i from Nat.not_le.mpr hi)] at here
    simp only [validCredentials, Bool.and_eq_true, decide_eq_true_eq, List.all_eq_true, Bool.not_eq_true',
      List.mem_range] at here
    exact ⟨here.1.1, here.1.2, here.2⟩
  have clear : ∀ i, (byteAt b 4).toNat ≤ i → (readModel b).entry i = {} := by
    intro i hi
    by_cases out : 6 ≤ i
    · exact entry_of_le out
    · rw [entry_eq _ (Nat.lt_of_not_le out)]
      simp only [readModel, Vector.getElem_ofFn]
      rw [if_neg (by omega)]
  have some_ : 0 < (byteAt b 4).toNat := Nat.pos_of_ne_zero fun zero_ => count (UInt8.toNat_inj.mp zero_)
  refine ⟨⟨magic_get magic_, rfl, rfl, ⟨gap, gap'⟩, checksum, some_, fun i j hi hj => ?_⟩,
    ⟨small, fun i hi => ?_, clear, fun i j hij hj => ?_, ?_⟩⟩
  · by_cases inside : i < (byteAt b 4).toNat
    · rw [if_pos (show i < (readModel b).count from inside), used i inside hi, entryByte]
      by_cases ssid : j < 33
      · rw [if_pos ssid, slice, byteAt_ofFn, if_pos ssid, if_pos ssid]
      · rw [if_neg ssid]
        dsimp only
        rw [slice, byteAt_ofFn, if_pos (by omega), if_pos (by omega),
          show 41 + i * 98 + (j - 33) = 8 + i * 98 + j by omega]
    · rw [if_neg (show ¬i < (readModel b).count from inside)]
      have here := goods i hi
      unfold entryGood at here
      rw [if_pos (show (readModel b).count ≤ i from Nat.le_of_not_lt inside), zeros_iff] at here
      exact here _ (by omega) (by omega)
  · obtain ⟨⟨ssidEnd, passwordEnd⟩, ⟨ssid, password⟩, -⟩ := active i hi
    refine ⟨ssid, password, ?_, ?_⟩
    · rw [used i hi (Nat.lt_of_lt_of_le hi small), slice, byteAt_ofFn, if_pos (by decide), if_pos (by decide),
        show 8 + i * 98 + 32 = 40 + i * 98 by omega]
      exact ssidEnd
    · rw [used i hi (Nat.lt_of_lt_of_le hi small)]
      dsimp only
      rw [slice, byteAt_ofFn, if_pos (by decide), if_pos (by decide), show 41 + i * 98 + 64 = 105 + i * 98 by omega]
      exact passwordEnd
  · obtain ⟨-, -, apart⟩ := active j hj
    obtain ⟨-, ⟨ssid, -⟩, -⟩ := active i (Nat.lt_trans hij hj)
    intro equal
    have alike := same_iff.mpr ⟨equal.symm, (validSsid_length ssid).2⟩
    rw [apart i hij] at alike
    cases alike
  · by_cases none_ : byteAt b 5 = 255
    · left
      show (byteAt b 5).toNat = 255
      rw [none_]
      rfl
    · exact Or.inr (Nat.lt_of_not_le (last none_))

theorem encode_decodeModel (h : decodeModel b = some m) : encode m = b ∧ Valid m :=
  have accepted := decodeModel_accepted h
  ⟨accepted_encode accepted.1 accepted.2.few, accepted.2⟩

end Codec

section Ranking

variable {m : Model} {aps : List Visible} {i : Nat}

def Shows (m : Model) (i : Nat) (ap : Visible) : Prop :=
  validCredentials (some ap.ssid.toList) (some [0]) = true ∧ m.find ap.ssid.toList = some i

private theorem best_append (aps : List Visible) (ap : Visible) : best m (aps ++ [ap]) i =
    if validCredentials (some ap.ssid.toList) (some [0]) ∧ m.find ap.ssid.toList = some i ∧ best m aps i < ap.rssi
    then ap.rssi else best m aps i := by
  rw [best, List.foldl_append]
  rfl

/-- The best signal is that of an access point of the entry, and no other one is better. -/
theorem best_spec (aps : List Visible) : -128 ≤ best m aps i ∧
    (∀ ap ∈ aps, Shows m i ap → ap.rssi ≤ best m aps i) ∧
    (best m aps i = -128 ∨ ∃ ap ∈ aps, Shows m i ap ∧ ap.rssi = best m aps i) := by
  induction aps using List.reverseRecOn with
  | nil => exact ⟨Int.le_refl _, nofun, Or.inl rfl⟩
  | append_singleton aps ap ih =>
    obtain ⟨low, above, from_⟩ := ih
    rw [best_append]
    split
    case isTrue better =>
      refine ⟨by omega, fun x hx shows_ => ?_, Or.inr ⟨ap, by simp, ⟨better.1, better.2.1⟩, rfl⟩⟩
      rcases List.mem_append.mp hx with earlier | last
      · exact Int.le_trans (above x earlier shows_) (Int.le_of_lt better.2.2)
      · rw [List.mem_singleton.mp last]
    case isFalse worse =>
      refine ⟨low, fun x hx shows_ => ?_, ?_⟩
      · rcases List.mem_append.mp hx with earlier | last
        · exact above x earlier shows_
        · rw [List.mem_singleton.mp last] at shows_ ⊢
          exact Int.not_lt.mp fun higher => worse ⟨shows_.1, shows_.2, higher⟩
      · rcases from_ with none_ | ⟨x, hx, found⟩
        · exact Or.inl none_
        · exact Or.inr ⟨x, List.mem_append_left _ hx, found⟩

theorem best_found : best m aps i ≠ -128 ↔ ∃ ap ∈ aps, Shows m i ap ∧ -128 < ap.rssi := by
  obtain ⟨low, above, from_⟩ := best_spec (m := m) (i := i) aps
  constructor
  · intro some_
    rcases from_ with none_ | ⟨ap, hap, shows_, equal⟩
    · exact absurd none_ some_
    · exact ⟨ap, hap, shows_, by omega⟩
  · rintro ⟨ap, hap, shows_, strong⟩ none_
    have bound := above ap hap shows_
    omega

/-- The order of the candidates: the last successful one first, then by signal, then as stored. -/
def Precedes (m : Model) (x y : Nat × Int) : Prop :=
  y.1 ≠ m.lastSuccess ∧ (x.1 = m.lastSuccess ∨ y.2 < x.2 ∨ x.2 = y.2 ∧ x.1 < y.1)

theorem precedes_trans {x y z : Nat × Int} (h : Precedes m x y) (h' : Precedes m y z) : Precedes m x z := by
  unfold Precedes at *
  omega

private theorem precedes_before {x y : Nat × Int} (later : y.1 < x.1) :
    (before m x y = true → Precedes m x y) ∧ (before m x y = false → Precedes m y x) := by
  unfold before Precedes
  simp only [Bool.or_eq_true, Bool.and_eq_true, decide_eq_true_eq, Bool.or_eq_false_iff, Bool.and_eq_false_iff,
    decide_eq_false_iff_not]
  omega

theorem mem_insertBack {x y : Nat × Int} {ranked : List (Nat × Int)} :
    y ∈ insertBack m x ranked ↔ y = x ∨ y ∈ ranked := by
  induction ranked with
  | nil => simp [insertBack]
  | cons z ranked ih =>
    rw [insertBack]
    split
    · rw [List.mem_cons, ih, List.mem_cons, or_left_comm]
    · rw [List.mem_cons]

/-- A new candidate goes to its place among those of smaller index. -/
theorem insertBack_ordered {x : Nat × Int} {ranked : List (Nat × Int)} (later : ∀ y ∈ ranked, y.1 < x.1)
    (ordered : ranked.Pairwise fun y z => Precedes m z y) :
    (insertBack m x ranked).Pairwise fun y z => Precedes m z y := by
  induction ranked with
  | nil => exact List.pairwise_singleton _ _
  | cons y ranked ih =>
    obtain ⟨above, rest⟩ := List.pairwise_cons.mp ordered
    have place := precedes_before (m := m) (later y List.mem_cons_self)
    rw [insertBack]
    split
    case isTrue passes =>
      refine List.pairwise_cons.mpr ⟨fun z hz => ?_, ih (fun z hz => later z (List.mem_cons_of_mem _ hz)) rest⟩
      rcases mem_insertBack.mp hz with rfl | old
      · exact place.1 passes
      · exact above z old
    case isFalse stops =>
      have behind : Precedes m y x := place.2 (Bool.eq_false_iff.mpr stops)
      refine List.pairwise_cons.mpr ⟨fun z hz => ?_, ordered⟩
      rcases List.mem_cons.mp hz with rfl | further
      · exact behind
      · exact precedes_trans (above z further) behind

theorem rankBack_spec (m : Model) (aps : List Visible) (n : Nat) :
    let ranked := (List.range n).foldl (fun ranked i =>
      if best m aps i = -128 then ranked else insertBack m (i, best m aps i) ranked) []
    (∀ y, y ∈ ranked ↔ y.1 < n ∧ y.2 = best m aps y.1 ∧ y.2 ≠ -128) ∧
      ranked.Pairwise fun y z => Precedes m z y := by
  induction n with
  | zero => exact ⟨fun y => ⟨nofun, fun h => absurd h.1 (Nat.not_lt_zero _)⟩, List.Pairwise.nil⟩
  | succ n ih =>
    obtain ⟨members, ordered⟩ := ih
    dsimp only at members ordered ⊢
    rw [List.range_succ, List.foldl_append, List.foldl_cons, List.foldl_nil]
    split
    case isTrue unseen =>
      refine ⟨fun y => ?_, ordered⟩
      rw [members]
      constructor
      · rintro ⟨inside, signal, some_⟩
        exact ⟨Nat.lt_succ_of_lt inside, signal, some_⟩
      · rintro ⟨inside, signal, some_⟩
        have apart : y.1 ≠ n := fun same_ => some_ (by rw [signal, same_, unseen])
        exact ⟨by omega, signal, some_⟩
    case isFalse seen =>
      refine ⟨fun y => ?_, insertBack_ordered (fun y hy => ((members y).mp hy).1) ordered⟩
      rw [mem_insertBack, members]
      constructor
      · rintro (rfl | ⟨inside, signal, some_⟩)
        · exact ⟨Nat.lt_succ_self n, rfl, seen⟩
        · exact ⟨Nat.lt_succ_of_lt inside, signal, some_⟩
      · rintro ⟨inside, signal, some_⟩
        by_cases here : y.1 = n
        · exact Or.inl (Prod.ext here (by rw [signal, here]))
        · exact Or.inr ⟨by omega, signal, some_⟩

def signals (m : Model) (aps : List Visible) (i : Nat) : Set Int :=
  {x | ∃ ap ∈ aps, validSsid (bounded 32 ap.ssid.toList) = true ∧
    bounded 32 ap.ssid.toList = name m i ∧ ap.rssi = x}

theorem shows_iff (h : Valid m) (inside : i < m.count) (ap : Visible) : Shows m i ap ↔
    validSsid (bounded 32 ap.ssid.toList) = true ∧ bounded 32 ap.ssid.toList = name m i := by
  unfold Shows
  rw [find_iff h]
  have blank : validPassword (bounded 64 [0]) = true := by decide
  simp only [validCredentials, blank, Bool.and_true, inside, true_and, eq_comm]

private theorem best_greatest (h : Valid m) (inside : i < m.count) (aps : List Visible)
    (some_ : best m aps i ≠ -128) : IsGreatest (signals m aps i) (best m aps i) := by
  obtain ⟨-, above, from_⟩ := best_spec (m := m) (i := i) aps
  constructor
  · obtain ⟨ap, hap, showing, same⟩ := from_.resolve_left some_
    obtain ⟨valid, equal⟩ := (shows_iff h inside ap).mp showing
    exact ⟨ap, hap, valid, equal, same⟩
  · rintro x ⟨ap, hap, valid, equal, rfl⟩
    exact above ap hap ((shows_iff h inside ap).mpr ⟨valid, equal⟩)

/-- The stored networks that a scan shows, each once, the last successful one first and the others by signal. -/
theorem rank_spec (h : Valid m) (aps : List Visible) :
    (∀ i, i ∈ rank m aps ↔ i < m.count ∧ ∃ x ∈ signals m aps i, -128 < x) ∧
    (rank m aps).Nodup ∧
    ∃ loudest : Nat → Int, (∀ i ∈ rank m aps, IsGreatest (signals m aps i) (loudest i)) ∧
      (rank m aps).Pairwise fun i j => j ≠ m.lastSuccess ∧
        (i = m.lastSuccess ∨ loudest j < loudest i ∨ loudest i = loudest j ∧ i < j) := by
  obtain ⟨members, ordered⟩ := rankBack_spec m aps m.count
  have forward : ((rankBack m aps).reverse).Pairwise (Precedes m) := List.pairwise_reverse.mpr ordered
  have signal : ∀ y ∈ (rankBack m aps).reverse, y.2 = best m aps y.1 :=
    fun y hy => ((members y).mp (List.mem_reverse.mp hy)).2.1
  have order : (rank m aps).Pairwise fun i j => j ≠ m.lastSuccess ∧
      (i = m.lastSuccess ∨ best m aps j < best m aps i ∨ best m aps i = best m aps j ∧ i < j) := by
    rw [rank, List.pairwise_map]
    refine List.Pairwise.imp_of_mem ?_ forward
    intro x y hx hy precedes
    rw [← signal x hx, ← signal y hy]
    exact precedes
  have found : ∀ i, i ∈ rank m aps ↔ i < m.count ∧ best m aps i ≠ -128 := by
    intro i
    rw [rank, List.mem_map]
    constructor
    · rintro ⟨y, hy, rfl⟩
      obtain ⟨inside, signal, some_⟩ := (members y).mp (List.mem_reverse.mp hy)
      exact ⟨inside, signal ▸ some_⟩
    · rintro ⟨inside, some_⟩
      exact ⟨(i, best m aps i), List.mem_reverse.mpr ((members _).mpr ⟨inside, rfl, some_⟩), rfl⟩
  refine ⟨fun i => ?_, ?_, best m aps, fun i mem => ?_, order⟩
  · rw [found, best_found]
    constructor
    · rintro ⟨inside, ap, hap, showing, strong⟩
      obtain ⟨valid, equal⟩ := (shows_iff h inside ap).mp showing
      exact ⟨inside, ap.rssi, ⟨ap, hap, valid, equal, rfl⟩, strong⟩
    · rintro ⟨inside, x, ⟨ap, hap, valid, equal, rfl⟩, strong⟩
      exact ⟨inside, ap, hap, (shows_iff h inside ap).mpr ⟨valid, equal⟩, strong⟩
  · apply List.Pairwise.imp _ order
    rintro i j ⟨notLast, first⟩ rfl
    omega
  · obtain ⟨inside, some_⟩ := (found i).mp mem
    exact best_greatest h inside aps some_

end Ranking

section Runs

/-- A change of the stored networks. -/
inductive Change where
  | upsert (s p : Option (List UInt8))
  | forget (s : List UInt8)
  | succeeded (s : List UInt8)

def Model.change (m : Model) : Change → Model
  | .upsert s p => (m.upsert s p).1
  | .forget s => (m.forget s).1
  | .succeeded s => m.succeeded s

def run (m : Model) (changes : List Change) : Model := changes.foldl Model.change m

/-- The model before anything is stored, or one that a blob was decoded to. -/
def Start (m : Model) : Prop := m = {} ∨ ∃ b, decodeModel b = some m

/-- The name that the last success was set for, from the one it stands for at the start. -/
def marked (m : Model) (current : Option (List UInt8)) : List Change → Option (List UInt8)
  | [] => current
  | change :: rest =>
    let current := match change with
      | .succeeded s => if (m.find s).isSome then some (bounded 32 s) else current
      | _ => current
    marked (m.change change) current rest

def lastName (m : Model) : Option (List UInt8) :=
  if m.lastSuccess < m.count then some (name m m.lastSuccess) else none

variable {m : Model}

theorem valid_start (h : Start m) : Valid m := by
  rcases h with rfl | ⟨b, accepted⟩
  · exact valid_empty
  · exact (encode_decodeModel accepted).2

theorem valid_change (h : Valid m) (change : Change) : Valid (m.change change) := by
  cases change with
  | upsert s p => exact valid_upsert h s p
  | forget s => exact valid_forget h s
  | succeeded s => exact valid_succeeded h s

theorem valid_run (h : Valid m) (changes : List Change) : Valid (run m changes) := by
  induction changes generalizing m with
  | nil => exact h
  | cons change rest ih => exact ih (valid_change h change)

/-- An insertion moves no entry and renames none. -/
theorem name_upsert (h : Valid m) (s p : Option (List UInt8)) {i : Nat} (hi : i < m.count) :
    name (m.upsert s p).1 i = name m i ∧ i < (m.upsert s p).1.count ∧
      (m.upsert s p).1.lastSuccess = m.lastSuccess := by
  unfold Model.upsert
  split
  case h_2 => exact ⟨rfl, hi, rfl⟩
  rename_i s p
  split
  · exact ⟨rfl, hi, rfl⟩
  case isFalse accepted =>
  simp only [validCredentials, Bool.not_eq_true', Bool.not_eq_false, Bool.and_eq_true] at accepted
  have few := (validSsid_length accepted.1).2
  have small := h.few
  split
  case h_1 j found =>
    obtain ⟨inside, same_⟩ := (find_iff h).mp found
    refine ⟨?_, hi, rfl⟩
    rw [name_store few (by omega)]
    split
    case isTrue here => rw [here, same_]
    case isFalse => rfl
  case h_2 absent =>
    split
    · exact ⟨rfl, hi, rfl⟩
    case isFalse room =>
    unfold capacity at room
    refine ⟨?_, Nat.lt_succ_of_lt hi, rfl⟩
    rw [name_store few (by omega), if_neg (by omega)]
    rfl

/-- The last success stands for the name it was set for, or for none. -/
structure Stands (m : Model) (current : Option (List UInt8)) : Prop where
  valid : Valid m
  stands : m.lastSuccess = 255 ∨ lastName m = current

theorem lastName_some (h : Valid m) (some_ : m.lastSuccess ≠ 255) :
    lastName m = some (name m m.lastSuccess) := by
  have last := h.last
  exact if_pos (by omega)

theorem stands_change {current : Option (List UInt8)} (h : Stands m current) (change : Change) :
    Stands (m.change change) (match change with
      | .succeeded s => if (m.find s).isSome then some (bounded 32 s) else current
      | _ => current) := by
  refine ⟨valid_change h.valid change, ?_⟩
  by_cases none_ : (m.change change).lastSuccess = 255
  · exact Or.inl none_
  right
  rw [lastName_some (valid_change h.valid change) none_]
  cases change with
  | upsert s p =>
    have last := h.valid.last
    have kept : (m.upsert s p).1.lastSuccess = m.lastSuccess := by
      unfold Model.upsert
      split
      · split
        · rfl
        split
        · rfl
        split
        · rfl
        · rfl
      · rfl
    change (m.upsert s p).1.lastSuccess ≠ 255 at none_
    rw [kept] at none_
    have standing := h.stands.resolve_left none_
    rw [lastName_some h.valid none_] at standing
    show some (name (m.upsert s p).1 (m.upsert s p).1.lastSuccess) = current
    rw [kept, (name_upsert h.valid s p (by omega)).1]
    exact standing
  | forget s =>
    show some (name (m.forget s).1 (m.forget s).1.lastSuccess) = current
    change (m.forget s).1.lastSuccess ≠ 255 at none_
    cases found : m.find s with
    | none =>
      simp only [Model.forget, found] at none_ ⊢
      rw [← h.stands.resolve_left none_, lastName_some h.valid none_]
    | some i =>
      by_cases more : m.count ≤ 1
      · simp only [Model.forget, found, if_pos more] at none_ ⊢
        rw [← h.stands.resolve_left none_, lastName_some h.valid none_]
      · have last : (m.forget s).1.lastSuccess = if m.lastSuccess = i then 255
            else if m.lastSuccess ≠ 255 ∧ i < m.lastSuccess then m.lastSuccess - 1 else m.lastSuccess := by
          simp only [Model.forget, found, if_neg more]
        have few := h.valid.few
        have bound := h.valid.last
        rw [last] at none_ ⊢
        have other : m.lastSuccess ≠ i := fun same_ => none_ (if_pos same_)
        have some_ : m.lastSuccess ≠ 255 := by
          intro same_
          rw [if_neg other, if_neg fun both => both.1 same_] at none_
          exact none_ same_
        rw [← h.stands.resolve_left some_, lastName_some h.valid some_, if_neg other]
        unfold name
        by_cases behind : i < m.lastSuccess
        · rw [if_pos ⟨some_, behind⟩, entry_forget found more h.valid (by omega), if_neg (by omega),
            Nat.sub_add_cancel (by omega)]
        · rw [if_neg fun both => behind both.2, entry_forget found more h.valid (by omega), if_pos (by omega)]
  | succeeded s =>
    show some (name (m.succeeded s) (m.succeeded s).lastSuccess) = _
    change (m.succeeded s).lastSuccess ≠ 255 at none_
    cases found : m.find s with
    | none =>
      simp only [Model.succeeded, found] at none_ ⊢
      rw [← h.stands.resolve_left none_, lastName_some h.valid none_]
      rfl
    | some i =>
      simp only [Model.succeeded, found, Option.isSome_some, if_true]
      rw [← (find_some found).2.1]
      rfl

theorem stands_run {current : Option (List UInt8)} (h : Stands m current) (changes : List Change) :
    Stands (run m changes) (marked m current changes) := by
  induction changes generalizing m current with
  | nil => exact h
  | cons change rest ih => exact ih (stands_change h change)

/-- A blank password on a remembered network keeps its secret. -/
theorem secret_upsert {s p : List UInt8} (h : Valid m) {i : Nat} (known : m.find s = some i)
    (blank : bounded 64 p = []) : secret (m.upsert (some s) (some p)).1 i = secret m i := by
  obtain ⟨inside, same_⟩ := (find_iff h).mp known
  have small := h.few
  have accepted : validCredentials (some s) (some p) = true := by
    have good : validSsid (name m i) = true := (h.good i inside).ssid
    rw [validCredentials, blank, ← same_, good]
    decide
  have first : p.getD 0 0 = 0 := by
    obtain ⟨-, -, stop⟩ := bounded_facts 64 p
    rw [blank] at stop
    exact stop (Nat.zero_le _)
  simp only [Model.upsert, accepted, Bool.not_true, if_neg Bool.false_ne_true, known]
  unfold secret
  rw [entry_store (by omega), if_pos rfl]
  dsimp only
  by_cases keep : byteAt (m.entry i).password 0 ≠ 0
  · rw [if_pos ⟨first, keep⟩]
  · have open_ : bounded 64 (m.entry i).password.toList = [] := by
      have stop : (m.entry i).password.toList.getD 0 0 = 0 := by
        rw [toList_getD]
        exact not_not.mp keep
      have length : (bounded 64 (m.entry i).password.toList).length = 0 :=
        (bounded_of (Nat.zero_le 64) (fun i hi => absurd hi (Nat.not_lt_zero i)) stop).1
      exact List.length_eq_zero_iff.mp length
    rw [if_neg fun both => keep both.2, copyPassword_text (by rw [blank]; exact Nat.zero_le _), blank, open_]

/-- After any changes the names differ, the last success stands for the name it was set for or for none, and
at most six networks are stored; a blank password keeps a secret, the stored networks and their blob
determine each other, and a scan is ranked by the last success and the signals. -/
theorem profiles_kept {start : Model} (h : Start start) (changes : List Change) :
    let m := run start changes
    (∀ i j, i < j → j < m.count → name m i ≠ name m j) ∧
    (m.lastSuccess = 255 ∨ m.lastSuccess < m.count ∧
      some (name m m.lastSuccess) = marked start (lastName start) changes) ∧
    m.count ≤ capacity ∧
    (∀ s p i, m.find s = some i → bounded 64 p = [] → secret (m.upsert (some s) (some p)).1 i = secret m i) ∧
    (0 < m.count → decodeModel (encode m) = some m) ∧
    (∀ b d, decodeModel b = some d → encode d = b) ∧
    ∀ aps, (∀ i, i ∈ rank m aps ↔ i < m.count ∧ ∃ x ∈ signals m aps i, -128 < x) ∧
      (rank m aps).Nodup ∧
      ∃ loudest : Nat → Int, (∀ i ∈ rank m aps, IsGreatest (signals m aps i) (loudest i)) ∧
        (rank m aps).Pairwise fun i j => j ≠ m.lastSuccess ∧
          (i = m.lastSuccess ∨ loudest j < loudest i ∨ loudest i = loudest j ∧ i < j) := by
  dsimp only
  have begun : Stands start (lastName start) := ⟨valid_start h, Or.inr rfl⟩
  have valid := valid_run begun.valid changes
  have stands := (stands_run begun changes).stands
  refine ⟨valid.apart, ?_, valid.few, fun s p i => secret_upsert valid, decodeModel_encode valid,
    fun b d accepted => (encode_decodeModel accepted).1, rank_spec valid⟩
  by_cases none_ : (run start changes).lastSuccess = 255
  · exact Or.inl none_
  · right
    rw [← lastName_some valid none_]
    exact ⟨valid.last.resolve_left none_, stands.resolve_left none_⟩

/-- Two networks, the first of them forgotten after the second succeeded. -/
theorem profiles_kept_shifted :
    let m := run {} [.upsert (some (ascii "home")) (some (ascii "password1")),
      .upsert (some (ascii "shed")) (some []), .succeeded (ascii "shed"), .forget (ascii "home")]
    0 < m.count ∧ decodeModel (encode m) = some m ∧ (m.lastSuccess = 255 ∨ m.lastSuccess < m.count ∧
      some (name m m.lastSuccess) = some (ascii "shed")) := by
  have kept := @profiles_kept {} (Or.inl rfl) [.upsert (some (ascii "home")) (some (ascii "password1")),
    .upsert (some (ascii "shed")) (some []), .succeeded (ascii "shed"), .forget (ascii "home")]
  have some_ : 0 < (run {} [.upsert (some (ascii "home")) (some (ascii "password1")),
    .upsert (some (ascii "shed")) (some []), .succeeded (ascii "shed"), .forget (ascii "home")]).count := by decide
  refine ⟨some_, kept.2.2.2.2.1 some_, ?_⟩
  have named : marked {} (lastName {}) [.upsert (some (ascii "home")) (some (ascii "password1")),
    .upsert (some (ascii "shed")) (some []), .succeeded (ascii "shed"), .forget (ascii "home")] =
      some (ascii "shed") := by decide
  rw [← named]
  exact kept.2.1

end Runs

end Mosaico.Host.WifiProfiles
