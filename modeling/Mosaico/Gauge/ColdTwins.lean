import Mosaico.Gauge.ColdCapability

/-! The two codecs of the cold session agree: on which bindings they take, on the bytes they make and
on the payloads they read. -/
namespace Mosaico.Gauge.ColdCapability

open ByteFields WireLists ColdTrial
open ColdProof (productionBinding ascii)

section Checks

variable {α β : Type}

theorem bind_ok {x : Checked α} {f : α → Checked β} {b : β} :
    (x >>= f) = .ok b ↔ ∃ a, x = .ok a ∧ f a = .ok b := by
  cases x with
  | error e => exact ⟨nofun, fun h => by obtain ⟨a, none_, -⟩ := h; cases none_⟩
  | ok a => exact ⟨fun h => ⟨a, rfl, h⟩, fun h => by obtain ⟨a', same, h⟩ := h; cases same; exact h⟩

theorem require_ok {ok : Bool} {reason : String} {u : Unit} :
    require ok reason = .ok u ↔ ok = true := by
  cases ok with
  | false => exact ⟨nofun, nofun⟩
  | true => exact ⟨fun _ => rfl, fun _ => rfl⟩

theorem pure_ok {a b : α} : (pure a : Checked α) = .ok b ↔ a = b := ⟨Except.ok.inj, congrArg _⟩

end Checks

section Hex

variable {bytes : List UInt8} {s : Text}

theorem hexValue_hexChar : ∀ d < 16, hexValue (hexChar d) = d ∧ isHex (hexChar d) = true := by
  decide

theorem hexChar_hexValue {c : Char} (h : isHex c = true) : hexValue c < 16 ∧ hexChar (hexValue c) = c := by
  have range : (48 ≤ c.toNat ∧ c.toNat ≤ 57) ∨ (97 ≤ c.toNat ∧ c.toNat ≤ 102) := by
    simpa [isHex, Char.le_def, UInt32.le_iff_toNat_le] using h
  have digit : (c ≤ '9') ↔ c.toNat ≤ 57 := by
    simp [Char.le_def, UInt32.le_iff_toNat_le]
  have whole : Char.ofNat c.toNat = c := Char.ofNat_toNat c
  unfold hexValue
  split
  · rename_i low
    have low := digit.mp low
    refine ⟨by omega, ?_⟩
    rw [hexChar, if_pos (by omega), show 48 + (c.toNat - 48) = c.toNat by omega, whole]
  · rename_i high
    have high : 57 < c.toNat := by
      rw [digit] at high
      omega
    refine ⟨by omega, ?_⟩
    rw [hexChar, if_neg (by omega), show 87 + (c.toNat - 87) = c.toNat by omega, whole]

theorem fromHex_hex (bytes : List UInt8) : fromHex (hex bytes) = bytes := by
  induction bytes with
  | nil => rfl
  | cons b rest ih =>
    have bound := b.toNat_lt
    have high := hexValue_hexChar (b.toNat / 16) (by omega)
    have low := hexValue_hexChar (b.toNat % 16) (by omega)
    rw [hex, List.flatMap_cons]
    show UInt8.ofNat (hexValue (hexChar (b.toNat / 16)) * 16 + hexValue (hexChar (b.toNat % 16))) ::
      fromHex (hex rest) = _
    rw [high.1, low.1, ih, Nat.div_add_mod', UInt8.ofNat_toNat]

private theorem hex_shape (bytes : List UInt8) :
    (hex bytes).length = 2 * bytes.length ∧ (hex bytes).all isHex = true := by
  induction bytes with
  | nil => exact ⟨rfl, rfl⟩
  | cons b rest ih =>
    have bound := b.toNat_lt
    have high := hexValue_hexChar (b.toNat / 16) (by omega)
    have low := hexValue_hexChar (b.toNat % 16) (by omega)
    have unfolded : hex (b :: rest) =
        hexChar (b.toNat / 16) :: hexChar (b.toNat % 16) :: hex rest := rfl
    rw [unfolded, List.length_cons, List.length_cons, List.length_cons, List.all_cons, List.all_cons,
      high.2, low.2, ih.1, ih.2]
    exact ⟨by omega, rfl⟩

/-- Only one text has given bytes. -/
theorem hex_fromHex {n : Nat} (length : s.length = 2 * n) (digits : s.all isHex = true) :
    hex (fromHex s) = s ∧ (fromHex s).length = n := by
  induction n generalizing s with
  | zero =>
    obtain rfl := List.length_eq_zero_iff.mp length
    exact ⟨rfl, rfl⟩
  | succ n ih =>
    match s, length, digits with
    | h :: l :: rest, length, digits =>
      simp only [List.length_cons] at length
      simp only [List.all_cons, Bool.and_eq_true] at digits
      obtain ⟨rest_, count⟩ := ih (by omega) digits.2.2
      obtain ⟨highBound, high⟩ := hexChar_hexValue digits.1
      obtain ⟨lowBound, low⟩ := hexChar_hexValue digits.2.1
      have byte : (UInt8.ofNat (hexValue h * 16 + hexValue l)).toNat = hexValue h * 16 + hexValue l :=
        UInt8.toNat_ofNat_of_lt' (show _ < 256 by omega)
      constructor
      · show hexChar ((UInt8.ofNat (hexValue h * 16 + hexValue l)).toNat / 16) ::
          hexChar ((UInt8.ofNat (hexValue h * 16 + hexValue l)).toNat % 16) :: hex (fromHex rest) = _
        rw [byte, rest_, show (hexValue h * 16 + hexValue l) / 16 = hexValue h by omega,
          show (hexValue h * 16 + hexValue l) % 16 = hexValue l by omega, high, low]
      · exact congrArg Nat.succ count
    | [_], length, _ => simp at length; omega

theorem hexbytes_ok {v : Value} {n : Nat} {nonzero : Bool} {out : List UInt8} :
    hexbytes v n nonzero = .ok out ↔ v = .str (hex out) ∧ out.length = n ∧
      (nonzero = true → (out.any fun b => b != 0) = true) := by
  cases v with
  | str s =>
    simp only [hexbytes, bind_ok, require_ok, pure_ok, Bool.and_eq_true, beq_iff_eq]
    constructor
    · rintro ⟨-, ⟨length, digits⟩, -, some_, rfl⟩
      obtain ⟨text, count⟩ := hex_fromHex length digits
      refine ⟨congrArg Value.str text.symm, count, fun needed => ?_⟩
      rw [needed] at some_
      exact some_
    · rintro ⟨text, count, some_⟩
      obtain rfl := Value.str.inj text
      obtain ⟨length, digits⟩ := hex_shape out
      rw [fromHex_hex]
      refine ⟨(), ⟨by rw [length, count], digits⟩, (), ?_, rfl⟩
      cases nonzero with
      | false => rfl
      | true => exact some_ rfl
  | int | list | dict | other => exact ⟨nofun, fun h => nomatch h.1⟩

def textValue (s : Text) : Nat := Nat.ofDigits 16 (s.reverse.map hexValue)

/-- A number is read back from its text. -/
theorem textValue_hexNumber (width v : Nat) : textValue (hexNumber width v) = v := by
  have digits : ((Nat.digits 16 v).map hexChar).map hexValue = Nat.digits 16 v := by
    have same : ∀ d ∈ Nat.digits 16 v, (hexValue ∘ hexChar) d = id d := fun d mem =>
      (hexValue_hexChar d (Nat.digits_lt_base (by decide) mem)).1
    rw [List.map_map, List.map_congr_left same, List.map_id]
  have zeros : ∀ k, Nat.ofDigits 16 (List.replicate k (hexValue '0')) = 0 := by
    intro k
    induction k with
    | zero => rfl
    | succ k ih => rw [List.replicate_succ, Nat.ofDigits_cons, ih]; rfl
  rw [textValue, hexNumber, List.reverse_append, List.map_append, List.reverse_replicate,
    List.map_replicate, ← List.map_reverse, List.reverse_reverse, digits, Nat.ofDigits_append, zeros,
    Nat.mul_zero, Nat.add_zero, Nat.ofDigits_digits]

end Hex

section Binding

variable {b : Binding} {d : Dict}

def hostBinding (b : Binding) : Dict :=
  (bindingKeys.map String.toList).zip [
    .str (hex b.mac.toList), .str (hexNumber 4 b.identity.device),
    .str (hexNumber 4 b.identity.firmware), .int b.identity.build,
    .int (ColdCapsule.recoveryByte b.recovery).toNat, .str (hexNumber 8 b.source),
    .str (hexNumber 8 b.target), .int b.originalGctGeneration, .int b.originalGctEpoch,
    .str (hex b.nonce.toList), .list [.str (hex b.slotHashes.1.toList), .str (hex b.slotHashes.2.toList)],
    .str (hex b.contractDigest.toList), .str (hex b.source131ReceiptDigest.toList),
    .int b.captureBudgetMs]

/-- Equal as dictionaries, in whatever order the entries stand. -/
def Represents (v : Value) (b : Binding) : Prop :=
  ∃ d, v = .dict d ∧ ∀ key, d.lookup key = (hostBinding b).lookup key

theorem isText_iff {v : Value} {t : String} : v.isText t = true ↔ v = .str t.toList := by
  cases v with
  | str s => exact beq_iff_eq.trans ⟨congrArg _, Value.str.inj⟩
  | int | list | dict | other => exact ⟨nofun, nofun⟩

theorem isInt_iff {v : Value} {w : Int} : v.isInt w = true ↔ v = .int w := by
  cases v with
  | int v => exact beq_iff_eq.trans ⟨congrArg _, Value.int.inj⟩
  | str | list | dict | other => exact ⟨nofun, nofun⟩

theorem integer_ok {v : Value} {low high r : Int} :
    integer v low high = .ok r ↔ v = .int r ∧ low ≤ r ∧ r ≤ high := by
  cases v with
  | int v =>
    simp only [integer, bind_ok, require_ok, pure_ok, decide_eq_true_eq]
    constructor
    · rintro ⟨-, range, rfl⟩
      exact ⟨rfl, range⟩
    · rintro ⟨same, range⟩
      obtain rfl := Value.int.inj same
      exact ⟨(), range, rfl⟩
  | str | list | dict | other => exact ⟨nofun, fun h => nomatch h.1⟩

theorem slotHashes_ok {r : List UInt8 × List UInt8} :
    slotHashes d = .ok r ↔ item d "slot_hashes" = .list [.str (hex r.1), .str (hex r.2)] ∧
      (r.1.length = 32 ∧ (r.1.any fun v => v != 0) = true) ∧
      r.2.length = 32 ∧ (r.2.any fun v => v != 0) = true := by
  unfold slotHashes
  split
  · rename_i first second found
    rw [found]
    simp only [bind_ok, pure_ok, hexbytes_ok, forall_const]
    constructor
    · rintro ⟨x, ⟨rfl, hx⟩, y, ⟨rfl, hy⟩, rfl⟩
      exact ⟨rfl, hx, hy⟩
    · rintro ⟨same, hx, hy⟩
      cases same
      exact ⟨r.1, ⟨rfl, hx⟩, r.2, ⟨rfl, hy⟩, rfl⟩
  · rename_i other
    refine ⟨nofun, fun h => absurd h.1 (other _ _)⟩

theorem item_of_lookup {d' : Dict} (same : ∀ key, d.lookup key = d'.lookup key) (key : String) :
    item d key = item d' key := by
  rw [item, item, same]

private theorem mem_of_lookup {key : Text} {v : Value} (h : d.lookup key = some v) : ∃ w, (key, w) ∈ d := by
  induction d with
  | nil => cases h
  | cons entry d ih =>
    obtain ⟨name, w⟩ := entry
    by_cases same : key = name
    · exact ⟨w, by rw [same]; exact List.mem_cons_self⟩
    · rw [List.lookup_cons, beq_eq_false_iff_ne.mpr same] at h
      obtain ⟨w, mem⟩ := ih h
      exact ⟨w, List.mem_cons_of_mem _ mem⟩

private theorem lookup_of_mem {key : Text} {v : Value} (h : (key, v) ∈ d) : (d.lookup key).isSome = true := by
  induction d with
  | nil => cases h
  | cons entry d ih =>
    obtain ⟨name, w⟩ := entry
    by_cases same : key = name
    · rw [List.lookup_cons, same, beq_self_eq_true]
      rfl
    · rw [List.lookup_cons, beq_eq_false_iff_ne.mpr same]
      obtain rest | mem := List.mem_cons.mp h
      · exact absurd (congrArg Prod.fst rest) same
      · exact ih mem

theorem allKeys_iff : allKeys d = true ↔
    ∀ key, (d.lookup key).isSome = true ↔ ∃ name ∈ bindingKeys, name.toList = key := by
  simp only [allKeys, Bool.and_eq_true, List.all_eq_true, List.any_eq_true, beq_iff_eq]
  constructor
  · rintro ⟨within, whole⟩ key
    constructor
    · intro found
      obtain ⟨v, some_⟩ := Option.isSome_iff_exists.mp found
      obtain ⟨w, mem⟩ := mem_of_lookup some_
      exact within _ mem
    · rintro ⟨name, mem, rfl⟩
      exact whole name mem
  · intro h
    exact ⟨fun entry mem => (h entry.1).mp (lookup_of_mem mem),
      fun name mem => (h _).mpr ⟨name, mem, rfl⟩⟩

theorem allKeys_host (b : Binding) : allKeys (hostBinding b) = true := rfl

/-- A dictionary with exactly the keys is determined by its items. -/
theorem lookup_eq_of_items (keys : allKeys d = true)
    (items : ∀ name ∈ bindingKeys, item d name = item (hostBinding b) name) (key : Text) :
    d.lookup key = (hostBinding b).lookup key := by
  have here := allKeys_iff.mp keys key
  have there := allKeys_iff.mp (allKeys_host b) key
  by_cases known : ∃ name ∈ bindingKeys, name.toList = key
  · obtain ⟨v, found⟩ := Option.isSome_iff_exists.mp (here.mpr known)
    obtain ⟨w, found'⟩ := Option.isSome_iff_exists.mp (there.mpr known)
    obtain ⟨name, mem, rfl⟩ := known
    have same := items name mem
    rw [item, item, found, found'] at same
    rw [found, found']
    exact congrArg some same
  · have none_ : d.lookup key = none := by
      by_contra some_
      exact known (here.mp (Option.isSome_iff_ne_none.mpr some_))
    have none_' : (hostBinding b).lookup key = none := by
      by_contra some_
      exact known (there.mp (Option.isSome_iff_ne_none.mpr some_))
    rw [none_, none_']

theorem nonzero_iff {n : Nat} (v : ByteFields.Bytes n) :
    nonzero v = true ↔ (v.toList.any fun x => x != 0) = true := by
  rw [nonzero, bne_iff_ne, List.any_eq_true, ← not_iff_not, not_not]
  constructor
  · rintro rfl ⟨x, mem, some_⟩
    rw [ColdTrial.zeros, Vector.toList_replicate] at mem
    rw [(List.mem_replicate.mp mem).2] at some_
    cases some_
  · intro none_
    apply Vector.ext
    intro i hi
    rw [ColdTrial.zeros, Vector.getElem_replicate]
    by_contra some_
    have mem : v[i] ∈ v.toList := by simp
    exact none_ ⟨v[i], mem, bne_iff_ne.mpr some_⟩

theorem zero_iff {n : Nat} (v : ByteFields.Bytes n) :
    nonzero v = false ↔ v.toList = List.replicate n 0 := by
  rw [nonzero, bne_eq_false_iff_eq, ColdTrial.zeros, ← Vector.toList_inj, Vector.toList_replicate]

/-- What a binding of the production path is. -/
structure Production (b : Binding) : Prop where
  mac : nonzero b.mac = true ∧ b.macHead &&& 1 = 0
  identity : b.identity = { device := 0x0220, firmware := 3, build := 4 }
  profile : b.source = sourceCrc ∧ b.target = targetCrc
  generation : 1 ≤ b.originalGctGeneration ∧ b.originalGctGeneration ≤ uint32Max - 4
  epoch : 1 ≤ b.originalGctEpoch ∧ b.originalGctEpoch ≤ uint64Max - 4
  nonce : nonzero b.nonce = true
  receipt : nonzero b.source131ReceiptDigest = true
  budget : 1 ≤ b.captureBudgetMs ∧ b.captureBudgetMs ≤ 60000
  recovery : b.recovery = .slotHashes
  slots : nonzero b.slotHashes.1 = true ∧ nonzero b.slotHashes.2 = true ∧
    b.slotHashes.1 ≠ b.slotHashes.2
  contract : nonzero b.contractDigest = false

theorem identity_iff {i : Identity} :
    identity i = true ↔ i = { device := 0x0220, firmware := 3, build := 4 } := by
  obtain ⟨device, firmware, build⟩ := i
  simp [identity]

theorem production_iff : productionBinding b = true ↔ Production b := by
  constructor
  · intro h
    simp only [productionBinding, Bool.and_eq_true, beq_iff_eq] at h
    obtain ⟨⟨⟨recovery, source⟩, target⟩, valid⟩ := h
    simp only [validBinding, recovery, Bool.and_eq_true, beq_iff_eq, bne_iff_ne, decide_eq_true_eq,
      Bool.not_eq_true', identity_iff] at valid
    obtain ⟨⟨⟨⟨⟨⟨⟨⟨⟨⟨⟨⟨⟨mac, unicast⟩, ident⟩, -⟩, -⟩, gen⟩, gen'⟩, epoch⟩, epoch'⟩, nonce⟩, receipt⟩,
      budget⟩, budget'⟩, ⟨⟨first, second⟩, distinct⟩, contract⟩ := valid
    exact ⟨⟨mac, unicast⟩, ident, ⟨source, target⟩, ⟨by omega, gen'⟩, ⟨by omega, epoch'⟩, nonce, receipt,
      ⟨by omega, budget'⟩, recovery, ⟨first, second, distinct⟩, contract⟩
  · intro h
    obtain ⟨⟨mac, unicast⟩, ident, ⟨source, target⟩, ⟨gen, gen'⟩, ⟨epoch, epoch'⟩, nonce, receipt,
      ⟨budget, budget'⟩, recovery, ⟨first, second, distinct⟩, contract⟩ := h
    simp only [productionBinding, validBinding, recovery, Bool.and_eq_true, beq_iff_eq, bne_iff_ne,
      decide_eq_true_eq, Bool.not_eq_true', identity_iff]
    refine ⟨⟨⟨trivial, source⟩, target⟩, ?_⟩
    exact ⟨⟨⟨⟨⟨⟨⟨⟨⟨⟨⟨⟨⟨mac, unicast⟩, ident⟩, source⟩, target⟩, by omega⟩, gen'⟩, by omega⟩, epoch'⟩,
      nonce⟩, receipt⟩, by omega⟩, budget'⟩, ⟨⟨first, second⟩, distinct⟩, contract⟩

/-- A list of a length is a vector. -/
theorem vector_of {n : Nat} {bytes : List UInt8} (length : bytes.length = n) :
    ∃ v : ByteFields.Bytes n, v.toList = bytes := ⟨⟨bytes.toArray, length⟩, rfl⟩

theorem device_text : hexNumber 4 0x0220 = "0220".toList ∧ hexNumber 4 3 = "0003".toList ∧
    hexNumber 8 sourceCrc = "70a767be".toList ∧ hexNumber 8 targetCrc = "91336fc0".toList := by
  decide +kernel

theorem represented_of_valid {d' : Dict} (h : validateBinding (.dict d) = .ok d') :
    ∃ b, Production b ∧ ∀ key, d.lookup key = (hostBinding b).lookup key := by
  simp only [validateBinding, bind_ok, require_ok, pure_ok, hexbytes_ok, integer_ok, slotHashes_ok,
    Bool.and_eq_true, beq_iff_eq, bne_iff_ne, isText_iff, isInt_iff, forall_const] at h
  obtain ⟨-, keys, mac, ⟨macText, macLength, macSome⟩, -, ⟨⟨⟨⟨unicast, device⟩, firmware⟩, build⟩, recovery⟩,
    -, ⟨source, target⟩, generation, ⟨genInt, genLow, genHigh⟩, epoch, ⟨epochInt, epochLow, epochHigh⟩,
    budget, ⟨budgetInt, budgetLow, budgetHigh⟩, nonce, ⟨nonceText, nonceLength, nonceSome⟩,
    ⟨first, second⟩, ⟨slots, ⟨firstLength, firstSome⟩, secondLength, secondSome⟩, -, distinct,
    contract, ⟨contractText, contractLength, -⟩, -, unused, receipt,
    ⟨receiptText, receiptLength, receiptSome⟩, rfl⟩ := h
  obtain ⟨macV, rfl⟩ := vector_of macLength
  obtain ⟨nonceV, rfl⟩ := vector_of nonceLength
  obtain ⟨firstV, rfl⟩ := vector_of firstLength
  obtain ⟨secondV, rfl⟩ := vector_of secondLength
  obtain ⟨contractV, rfl⟩ := vector_of contractLength
  obtain ⟨receiptV, rfl⟩ := vector_of receiptLength
  obtain ⟨generation, rfl⟩ := Int.eq_ofNat_of_zero_le (show 0 ≤ generation by omega)
  obtain ⟨epoch, rfl⟩ := Int.eq_ofNat_of_zero_le (show 0 ≤ epoch by omega)
  obtain ⟨budget, rfl⟩ := Int.eq_ofNat_of_zero_le (show 0 ≤ budget by omega)
  obtain ⟨deviceText, firmwareText, sourceText, targetText⟩ := device_text
  let b : Binding := {
    mac := macV
    identity := { device := 0x0220, firmware := 3, build := 4 }
    originalGctGeneration := generation
    originalGctEpoch := epoch
    nonce := nonceV
    recovery := .slotHashes
    slotHashes := (firstV, secondV)
    contractDigest := contractV
    source131ReceiptDigest := receiptV
    captureBudgetMs := budget }
  refine ⟨b, ?_, lookup_eq_of_items keys fun name mem => ?_⟩
  · have unicast : macV[0] &&& 1 = 0 := by
      simpa [List.getD_eq_getElem?_getD] using unicast
    have different : firstV ≠ secondV := fun same => distinct (congrArg Vector.toList same)
    have genRange : 1 ≤ generation ∧ generation ≤ 2 ^ 32 - 1 - 4 := by omega
    have epochRange : 1 ≤ epoch ∧ epoch ≤ 2 ^ 64 - 1 - 4 := by omega
    have budgetRange : 1 ≤ budget ∧ budget ≤ 60000 := by omega
    exact ⟨⟨(nonzero_iff _).mpr macSome, unicast⟩, rfl, ⟨rfl, rfl⟩, genRange, epochRange,
      (nonzero_iff _).mpr nonceSome, (nonzero_iff _).mpr receiptSome, budgetRange, rfl,
      ⟨(nonzero_iff _).mpr firstSome, (nonzero_iff _).mpr secondSome, different⟩,
      (zero_iff _).mpr unused⟩
  · rw [← deviceText] at device
    rw [← firmwareText] at firmware
    rw [← sourceText] at source
    rw [← targetText] at target
    simp only [bindingKeys, List.mem_cons, List.not_mem_nil, or_false] at mem
    obtain rfl | rfl | rfl | rfl | rfl | rfl | rfl | rfl | rfl | rfl | rfl | rfl | rfl | rfl := mem
    · exact macText
    · exact device
    · exact firmware
    · exact build
    · exact recovery
    · exact source
    · exact target
    · exact genInt
    · exact epochInt
    · exact nonceText
    · exact slots
    · exact contractText
    · exact receiptText
    · exact budgetInt

def bindingFields (b : Binding) : List (List UInt8) :=
  [b.mac.toList, le 2 b.identity.device, le 2 b.identity.firmware, le 1 b.identity.build,
    le 1 (ColdCapsule.recoveryByte b.recovery).toNat, le 4 b.source, le 4 b.target,
    le 4 b.originalGctGeneration, le 8 b.originalGctEpoch, b.nonce.toList, b.slotHashes.1.toList,
    b.slotHashes.2.toList, b.contractDigest.toList, b.source131ReceiptDigest.toList,
    le 4 b.captureBudgetMs]

def bindingWire (b : Binding) : List UInt8 := bindingHeader ++ (bindingFields b).flatten

theorem bindingFields_widths (b : Binding) : (bindingFields b).map List.length = bindingWidths := by
  simp [bindingFields, bindingWidths]

theorem length_bindingWire (b : Binding) : (bindingWire b).length = bindingSize := by
  rw [bindingWire, List.length_append, List.length_flatten, bindingFields_widths]
  rfl

theorem hex_eq_iff {xs ys : List UInt8} : hex xs = hex ys ↔ xs = ys :=
  ⟨fun same => by rw [← fromHex_hex xs, same, fromHex_hex], congrArg hex⟩

theorem valid_of_represented (p : Production b)
    (same : ∀ key, d.lookup key = (hostBinding b).lookup key) :
    validateBinding (.dict d) = .ok d := by
  have keys : allKeys d = true := by
    rw [allKeys_iff]
    intro key
    rw [same key]
    exact allKeys_iff.mp (allKeys_host b) key
  have items := item_of_lookup same
  obtain ⟨⟨mac, unicast⟩, ident, ⟨source, target⟩, generation, epoch, nonce, receipt, budget, recovery,
    ⟨first, second, distinct⟩, contract⟩ := p
  obtain ⟨deviceText, firmwareText, sourceText, targetText⟩ := device_text
  simp only [validateBinding, bind_ok, require_ok, pure_ok, hexbytes_ok, integer_ok, slotHashes_ok,
    Bool.and_eq_true, beq_iff_eq, bne_iff_ne, isText_iff, isInt_iff, forall_const, items]
  have build : item (hostBinding b) "build" = .int 4 := by
    show Value.int b.identity.build = .int 4
    rw [ident]
    rfl
  have recovered : item (hostBinding b) "recovery" = .int 1 := by
    show Value.int (ColdCapsule.recoveryByte b.recovery).toNat = .int 1
    rw [recovery]
    rfl
  have device : item (hostBinding b) "device" = .str "0220".toList := by
    show Value.str (hexNumber 4 b.identity.device) = _
    rw [ident, ← deviceText]
  have firmware : item (hostBinding b) "firmware" = .str "0003".toList := by
    show Value.str (hexNumber 4 b.identity.firmware) = _
    rw [ident, ← firmwareText]
  have sourced : item (hostBinding b) "source_crc" = .str "70a767be".toList := by
    show Value.str (hexNumber 8 b.source) = _
    rw [source, ← sourceText]
  have targeted : item (hostBinding b) "target_crc" = .str "91336fc0".toList := by
    show Value.str (hexNumber 8 b.target) = _
    rw [target, ← targetText]
  have unicast : b.mac.toList.getD 0 0 &&& 1 = 0 := by
    simpa [List.getD_eq_getElem?_getD, Binding.macHead] using unicast
  have different : b.slotHashes.1.toList ≠ b.slotHashes.2.toList := fun same =>
    distinct (Vector.toList_inj.mp same)
  have genRange : b.originalGctGeneration ≤ 2 ^ 32 - 1 - 4 := generation.2
  have epochRange : b.originalGctEpoch ≤ 2 ^ 64 - 1 - 4 := epoch.2
  exact ⟨(), keys, b.mac.toList, ⟨rfl, b.mac.length_toList, (nonzero_iff _).mp mac⟩, (),
    ⟨⟨⟨⟨unicast, device⟩, firmware⟩, build⟩, recovered⟩, (), ⟨sourced, targeted⟩,
    b.originalGctGeneration, ⟨rfl, by omega, by omega⟩, b.originalGctEpoch, ⟨rfl, by omega, by omega⟩,
    b.captureBudgetMs, ⟨rfl, by omega, by omega⟩, b.nonce.toList,
    ⟨rfl, b.nonce.length_toList, (nonzero_iff _).mp nonce⟩,
    (b.slotHashes.1.toList, b.slotHashes.2.toList),
    ⟨rfl, ⟨Vector.length_toList, (nonzero_iff _).mp first⟩, Vector.length_toList,
      (nonzero_iff _).mp second⟩, (), different, b.contractDigest.toList,
    ⟨rfl, Vector.length_toList, nofun⟩, (), (zero_iff _).mp contract, b.source131ReceiptDigest.toList,
    ⟨rfl, Vector.length_toList, (nonzero_iff _).mp receipt⟩, trivial⟩

theorem encode_of_represented (p : Production b)
    (same : ∀ key, d.lookup key = (hostBinding b).lookup key) :
    encodeBinding (.dict d) = .ok (bindingWire b) := by
  have items := item_of_lookup same
  have mac : (item (hostBinding b) "mac").bytes = b.mac.toList := fromHex_hex _
  have nonce : (item (hostBinding b) "nonce").bytes = b.nonce.toList := fromHex_hex _
  have contract : (item (hostBinding b) "contract_digest").bytes = b.contractDigest.toList :=
    fromHex_hex _
  have receipt : (item (hostBinding b) "source131_receipt_digest").bytes =
      b.source131ReceiptDigest.toList := fromHex_hex _
  have slots : (item (hostBinding b) "slot_hashes").bytes =
      b.slotHashes.1.toList ++ b.slotHashes.2.toList := by
    show fromHex (hex b.slotHashes.1.toList) ++ (fromHex (hex b.slotHashes.2.toList) ++ []) = _
    rw [fromHex_hex, fromHex_hex, List.append_nil]
  have body : bindingWire b = bindingHeader ++ (b.mac.toList ++ le 2 0x0220 ++ le 2 3 ++ le 1 4 ++
      le 1 1 ++ le 4 0x70a767be ++ le 4 0x91336fc0 ++ le 4 b.originalGctGeneration ++
      le 8 b.originalGctEpoch ++ b.nonce.toList ++
      (b.slotHashes.1.toList ++ b.slotHashes.2.toList) ++ b.contractDigest.toList ++
      b.source131ReceiptDigest.toList ++ le 4 b.captureBudgetMs) := by
    simp only [bindingWire, bindingFields, p.identity, p.profile.1, p.profile.2, p.recovery,
      List.flatten_cons, List.flatten_nil, List.append_nil, List.append_assoc]
    rfl
  refine bind_ok.mpr ⟨d, valid_of_represented p same, ?_⟩
  simp only [bind_ok, require_ok, pure_ok, items, mac, nonce, contract, receipt, slots]
  refine ⟨(), ?_, body.symm⟩
  have size := length_bindingWire b
  have header : bindingHeader.length = 8 := rfl
  rw [body, List.length_append, header] at size
  rw [beq_iff_eq]
  exact Nat.add_left_cancel (size.trans (show bindingSize = 8 + 180 from rfl))

end Binding

end Mosaico.Gauge.ColdCapability
