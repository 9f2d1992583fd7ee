import Mosaico.Host.TokenHistoryModel
import Mathlib.Data.Nat.Digits.Defs

/-! The text that `json.dumps` gives a document of whole numbers with the separators of the service,
and how `JsonNestingValid` reads it. -/
namespace Mosaico.Host.TokenHistory

section Text

def hexDigit (v : Nat) : UInt8 := if v < 10 then UInt8.ofNat (48 + v) else UInt8.ofNat (87 + v)

def unicode (v : Nat) : List UInt8 :=
  [0x5c, 0x75, hexDigit (v / 4096 % 16), hexDigit (v / 256 % 16), hexDigit (v / 16 % 16),
    hexDigit (v % 16)]

def escape (c : Char) : List UInt8 :=
  if c = '"' then [0x5c, 0x22]
  else if c = '\\' then [0x5c, 0x5c]
  else if c = '\n' then [0x5c, 0x6e]
  else if c = '\r' then [0x5c, 0x72]
  else if c = '\t' then [0x5c, 0x74]
  else if c.toNat = 8 then [0x5c, 0x62]
  else if c.toNat = 12 then [0x5c, 0x66]
  else if 32 ≤ c.toNat ∧ c.toNat ≤ 126 then [UInt8.ofNat c.toNat]
  else if c.toNat < 0x10000 then unicode c.toNat
  else
    let v := c.toNat - 0x10000
    unicode (0xd800 + v / 1024) ++ unicode (0xdc00 + v % 1024)

def quoted (s : String) : List UInt8 := 0x22 :: (s.toList.flatMap escape ++ [0x22])

def decimal (v : Nat) : List UInt8 :=
  if v = 0 then [48] else (Nat.digits 10 v).reverse.map fun d => UInt8.ofNat (48 + d)

def number (v : Int) : List UInt8 := if v < 0 then 0x2d :: decimal v.natAbs else decimal v.natAbs

def word (s : String) : List UInt8 := s.toList.map fun c => UInt8.ofNat c.toNat

mutual

/-- Only a number that is not whole has no text here. -/
def dumps : Json → Option (List UInt8)
  | .null => some (word "null")
  | .bool true => some (word "true")
  | .bool false => some (word "false")
  | .number v => v.map number
  | .string s => some (quoted s)
  | .array [] => some [0x5b, 0x5d]
  | .array (j :: items) => do
    let first ← dumps j
    let rest ← dumpsItems items
    return 0x5b :: (first ++ (rest ++ [0x5d]))
  | .object [] => some [0x7b, 0x7d]
  | .object ((name, j) :: members) => do
    let first ← dumps j
    let rest ← dumpsMembers members
    return 0x7b :: (quoted name ++ (0x3a :: (first ++ (rest ++ [0x7d]))))

def dumpsItems : List Json → Option (List UInt8)
  | [] => some []
  | j :: items => do
    let first ← dumps j
    let rest ← dumpsItems items
    return 0x2c :: (first ++ rest)

def dumpsMembers : List (String × Json) → Option (List UInt8)
  | [] => some []
  | (name, j) :: members => do
    let first ← dumps j
    let rest ← dumpsMembers members
    return 0x2c :: (quoted name ++ (0x3a :: (first ++ rest)))

end

mutual

def depth : Json → Nat
  | .array items => depthItems items + 1
  | .object members => depthMembers members + 1
  | _ => 0

def depthItems : List Json → Nat
  | [] => 0
  | j :: items => max (depth j) (depthItems items)

def depthMembers : List (String × Json) → Nat
  | [] => 0
  | (_, j) :: members => max (depth j) (depthMembers members)

end

end Text

section Nesting

/-- A scan that leaves no quotes open and is back at its depth. -/
def Balanced (k : Nat) (text : List UInt8) : Prop :=
  text.foldlM Nesting.step { depth := k } = some { depth := k }

theorem Balanced.append {k : Nat} {xs ys : List UInt8} (hx : Balanced k xs) (hy : Balanced k ys) :
    Balanced k (xs ++ ys) := by
  rw [Balanced] at hx hy
  rw [Balanced, List.foldlM_append, hx]
  exact hy

def Plain (ch : UInt8) : Prop := ch ≠ 0x22 ∧ ch ≠ 0x7b ∧ ch ≠ 0x5b ∧ ch ≠ 0x7d ∧ ch ≠ 0x5d

instance (ch : UInt8) : Decidable (Plain ch) := inferInstanceAs (Decidable (_ ∧ _))

theorem balanced_plain {k : Nat} {text : List UInt8} (h : ∀ ch ∈ text, Plain ch) :
    Balanced k text := by
  induction text with
  | nil => rfl
  | cons ch text ih =>
    obtain ⟨quote, brace, bracket, brace', bracket'⟩ := h ch List.mem_cons_self
    have rest := ih fun ch mem => h ch (List.mem_cons_of_mem _ mem)
    have step : Nesting.step { depth := k } ch = some { depth := k } := by
      simp [Nesting.step, quote, brace, bracket, brace', bracket']
    rw [Balanced, List.foldlM_cons, step]
    exact rest

theorem plain_of_all {text : List UInt8} (h : (text.all fun ch => decide (Plain ch)) = true) :
    ∀ ch ∈ text, Plain ch := fun ch mem => of_decide_eq_true (List.all_eq_true.mp h ch mem)

private theorem plain_digit {d : Nat} (h : d < 10) : Plain (UInt8.ofNat (48 + d)) := by
  have all : ∀ d : Fin 10, Plain (UInt8.ofNat (48 + d.val)) := by decide
  exact all ⟨d, h⟩

theorem balanced_number (k : Nat) (v : Int) : Balanced k (number v) := by
  have digits : ∀ ch ∈ decimal v.natAbs, Plain ch := by
    unfold decimal
    split_ifs with zero
    · exact plain_of_all (by decide)
    · intro ch mem
      obtain ⟨d, mem', rfl⟩ := List.mem_map.mp mem
      exact plain_digit (Nat.digits_lt_base (by decide) (List.mem_reverse.mp mem'))
  unfold number
  split_ifs
  · apply balanced_plain
    intro ch mem
    obtain rfl | rest := List.mem_cons.mp mem
    · decide
    · exact digits ch rest
  · exact balanced_plain digits

/-- Inside quotes a scan goes on until the next quote that is not escaped. -/
def Within (k : Nat) (text : List UInt8) : Prop :=
  text.foldlM Nesting.step { depth := k, quoted := true } = some { depth := k, quoted := true }

theorem within_plain {k : Nat} {ch : UInt8} (backslash : ch ≠ 0x5c) (quote : ch ≠ 0x22) :
    Within k [ch] := by
  simp [Within, Nesting.step, backslash, quote]

theorem within_escaped (k : Nat) (ch : UInt8) : Within k [0x5c, ch] := by
  simp [Within, Nesting.step]

theorem Within.append {k : Nat} {xs ys : List UInt8} (hx : Within k xs) (hy : Within k ys) :
    Within k (xs ++ ys) := by
  rw [Within] at hx hy
  rw [Within, List.foldlM_append, hx]
  exact hy

private theorem within_hexDigit (k v : Nat) : Within k [hexDigit (v % 16)] := by
  have all : ∀ d : Fin 16, hexDigit d.val ≠ 0x5c ∧ hexDigit d.val ≠ 0x22 := by decide
  have digit := all ⟨v % 16, Nat.mod_lt _ (by decide)⟩
  exact within_plain digit.1 digit.2

private theorem within_unicode (k v : Nat) : Within k (unicode v) :=
  (within_escaped k 0x75).append ((within_hexDigit k _).append ((within_hexDigit k _).append
    ((within_hexDigit k _).append (within_hexDigit k v))))

private theorem within_ite {p : Prop} [Decidable p] {k : Nat} {xs ys : List UInt8} (h : p → Within k xs)
    (h' : ¬p → Within k ys) : Within k (if p then xs else ys) := by
  split
  · exact h ‹_›
  · exact h' ‹_›

theorem within_escape (k : Nat) (c : Char) : Within k (escape c) := by
  unfold escape
  apply within_ite fun _ => within_escaped k _
  intro quote
  apply within_ite fun _ => within_escaped k _
  intro backslash
  apply within_ite fun _ => within_escaped k _
  intro _
  apply within_ite fun _ => within_escaped k _
  intro _
  apply within_ite fun _ => within_escaped k _
  intro _
  apply within_ite fun _ => within_escaped k _
  intro _
  apply within_ite fun _ => within_escaped k _
  intro _
  apply within_ite
  · intro ascii
    have same {v : UInt8} (h : UInt8.ofNat c.toNat = v) : c.toNat = v.toNat := by
      rw [← h, UInt8.toNat_ofNat_of_lt' (show c.toNat < 256 by omega)]
    apply within_plain
    · exact fun h => backslash (Char.toNat_inj.mp (same h))
    · exact fun h => quote (Char.toNat_inj.mp (same h))
  · intro _
    apply within_ite fun _ => within_unicode k _
    exact fun _ => (within_unicode k _).append (within_unicode k _)

theorem balanced_quoted (k : Nat) (s : String) : Balanced k (quoted s) := by
  have inside (l : List Char) : Within k (l.flatMap escape) := by
    induction l with
    | nil => rfl
    | cons c l ih => exact (within_escape k c).append ih
  have all := inside s.toList
  rw [Within] at all
  rw [Balanced, quoted, List.foldlM_cons]
  show (s.toList.flatMap escape ++ [0x22]).foldlM Nesting.step { depth := k, quoted := true } = _
  rw [List.foldlM_append, all]
  rfl

/-- What is in brackets is balanced one level further in. -/
theorem balanced_brackets {k : Nat} {text : List UInt8} (inside : Balanced (k + 1) text)
    (room : k + 1 ≤ 8) {first last : UInt8} (opens : first = 0x7b ∨ first = 0x5b)
    (closes : last = 0x7d ∨ last = 0x5d) : Balanced k (first :: (text ++ [last])) := by
  have start : Nesting.step { depth := k } first = some { depth := k + 1 } := by
    obtain rfl | rfl := opens
    · simp [Nesting.step, show ¬ 8 < k + 1 by omega]
    · simp [Nesting.step, show ¬ 8 < k + 1 by omega]
  have stop : Nesting.step { depth := k + 1 } last = some { depth := k } := by
    obtain rfl | rfl := closes
    · simp [Nesting.step]
    · simp [Nesting.step]
  rw [Balanced] at inside
  rw [Balanced, List.foldlM_cons, start]
  show (text ++ [last]).foldlM Nesting.step { depth := k + 1 } = _
  rw [List.foldlM_append, inside]
  show [last].foldlM Nesting.step { depth := k + 1 } = _
  rw [List.foldlM_cons, stop]
  rfl

theorem balanced_byte (k : Nat) {ch : UInt8} (h : Plain ch) : Balanced k [ch] :=
  balanced_plain fun _ mem => (List.mem_singleton.mp mem) ▸ h

mutual

/-- The text of a document that is not too deep is balanced. -/
theorem balanced_dumps (j : Json) {k : Nat} {text : List UInt8} (h : dumps j = some text)
    (room : k + depth j ≤ 8) : Balanced k text := by
  match j with
  | .null => cases h; exact balanced_plain (plain_of_all (by decide))
  | .bool true => cases h; exact balanced_plain (plain_of_all (by decide))
  | .bool false => cases h; exact balanced_plain (plain_of_all (by decide))
  | .number v =>
    rw [dumps] at h
    obtain ⟨v, _, rfl⟩ := Option.map_eq_some_iff.mp h
    exact balanced_number k v
  | .string s => cases h; exact balanced_quoted k s
  | .array [] =>
    cases h
    rw [depth] at room
    exact @balanced_brackets k [] rfl (by omega) _ _ (.inr rfl) (.inr rfl)
  | .array (j :: items) =>
    rw [dumps] at h
    obtain ⟨first, hfirst, h⟩ := Option.bind_eq_some_iff.mp h
    obtain ⟨rest, hrest, h⟩ := Option.bind_eq_some_iff.mp h
    cases h
    rw [depth, depthItems] at room
    have inside := (balanced_dumps j (k := k + 1) hfirst (by omega)).append
      (balanced_dumpsItems items hrest (by omega))
    rw [← List.append_assoc]
    exact balanced_brackets inside (by omega) (.inr rfl) (.inr rfl)
  | .object [] =>
    cases h
    rw [depth] at room
    exact @balanced_brackets k [] rfl (by omega) _ _ (.inl rfl) (.inl rfl)
  | .object ((name, j) :: members) =>
    rw [dumps] at h
    obtain ⟨first, hfirst, h⟩ := Option.bind_eq_some_iff.mp h
    obtain ⟨rest, hrest, h⟩ := Option.bind_eq_some_iff.mp h
    cases h
    rw [depth, depthMembers] at room
    have colon : Balanced (k + 1) [0x3a] := balanced_byte _ (by decide)
    have inside := (balanced_quoted (k + 1) name).append (colon.append
      ((balanced_dumps j hfirst (by omega)).append (balanced_dumpsMembers members hrest (by omega))))
    have whole := balanced_brackets inside (by omega) (.inl rfl) (.inl rfl)
    simpa only [List.append_assoc, List.cons_append, List.nil_append] using whole

theorem balanced_dumpsItems (items : List Json) {k : Nat} {text : List UInt8}
    (h : dumpsItems items = some text) (room : k + depthItems items ≤ 8) : Balanced k text := by
  match items with
  | [] => cases h; rfl
  | j :: items =>
    rw [dumpsItems] at h
    obtain ⟨first, hfirst, h⟩ := Option.bind_eq_some_iff.mp h
    obtain ⟨rest, hrest, h⟩ := Option.bind_eq_some_iff.mp h
    cases h
    rw [depthItems] at room
    have comma : Balanced k [0x2c] := balanced_byte _ (by decide)
    exact comma.append ((balanced_dumps j hfirst (by omega)).append
      (balanced_dumpsItems items hrest (by omega)))

theorem balanced_dumpsMembers (members : List (String × Json)) {k : Nat} {text : List UInt8}
    (h : dumpsMembers members = some text) (room : k + depthMembers members ≤ 8) :
    Balanced k text := by
  match members with
  | [] => cases h; rfl
  | (name, j) :: members =>
    rw [dumpsMembers] at h
    obtain ⟨first, hfirst, h⟩ := Option.bind_eq_some_iff.mp h
    obtain ⟨rest, hrest, h⟩ := Option.bind_eq_some_iff.mp h
    cases h
    rw [depthMembers] at room
    have comma : Balanced k [0x2c] := balanced_byte _ (by decide)
    have colon : Balanced k [0x3a] := balanced_byte _ (by decide)
    exact comma.append ((balanced_quoted k name).append (colon.append
      ((balanced_dumps j hfirst (by omega)).append (balanced_dumpsMembers members hrest (by omega)))))

end

/-- The firmware takes the nesting of every text of a document that is not too deep. -/
theorem nesting_dumps {j : Json} {text : List UInt8} (h : dumps j = some text)
    (shallow : depth j ≤ 8) : jsonNestingValid text = true := by
  have balanced := balanced_dumps j (k := 0) h (by omega)
  rw [Balanced] at balanced
  rw [jsonNestingValid, balanced]
  rfl

end Nesting

end Mosaico.Host.TokenHistory
