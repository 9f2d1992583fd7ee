import Mosaico.Gauge.ColdTwinsPayload

/-! The host's codec and the firmware's are twins. -/
namespace Mosaico.Gauge.ColdCapability

open ByteFields WireLists ColdTrial
open ColdProof (productionBinding ascii)

section Host

variable {utils : DssUtils} {b e : Binding} {v : Value} {xs w pair signature out : List UInt8}

theorem hexNumber_inj {width x y : Nat} (h : hexNumber width x = hexNumber width y) : x = y := by
  rw [← textValue_hexNumber width x, h, textValue_hexNumber]

private theorem hex_inj {n : Nat} {x y : ByteFields.Bytes n} (h : hex x.toList = hex y.toList) : x = y :=
  Vector.toList_inj.mp (hex_eq_iff.mp h)

private theorem recoveryByte_inj {x y : RecoveryBinding}
    (h : (ColdCapsule.recoveryByte x).toNat = (ColdCapsule.recoveryByte y).toNat) : x = y := by
  revert h
  cases x <;> cases y <;> decide

theorem hostBinding_inj (h : ∀ key, (hostBinding b).lookup key = (hostBinding e).lookup key) : b = e := by
  have items := item_of_lookup h
  have mac := hex_inj (Value.str.inj (items "mac"))
  have device := hexNumber_inj (Value.str.inj (items "device"))
  have firmware := hexNumber_inj (Value.str.inj (items "firmware"))
  have build := Int.ofNat.inj (Value.int.inj (items "build"))
  have recovery := recoveryByte_inj (Int.ofNat.inj (Value.int.inj (items "recovery")))
  have source := hexNumber_inj (Value.str.inj (items "source_crc"))
  have target := hexNumber_inj (Value.str.inj (items "target_crc"))
  have generation := Int.ofNat.inj (Value.int.inj (items "original_gct_generation"))
  have epoch := Int.ofNat.inj (Value.int.inj (items "original_gct_epoch"))
  have nonce := hex_inj (Value.str.inj (items "nonce"))
  have slots := Value.list.inj (items "slot_hashes")
  have first := hex_inj (Value.str.inj (List.cons.inj slots).1)
  have second := hex_inj (Value.str.inj (List.cons.inj (List.cons.inj slots).2).1)
  have contract := hex_inj (Value.str.inj (items "contract_digest"))
  have receipt := hex_inj (Value.str.inj (items "source131_receipt_digest"))
  have budget := Int.ofNat.inj (Value.int.inj (items "capture_budget_ms"))
  obtain ⟨mac', ⟨device', firmware', build'⟩, source', target', generation', epoch', nonce', recovery',
    ⟨first', second'⟩, contract', receipt', budget'⟩ := b
  obtain ⟨mac'', ⟨device'', firmware'', build''⟩, source'', target'', generation'', epoch'', nonce'',
    recovery'', ⟨first'', second''⟩, contract'', receipt'', budget''⟩ := e
  dsimp only at mac device firmware build recovery source target generation epoch
  dsimp only at nonce first second contract receipt budget
  subst mac device firmware build recovery source target generation epoch nonce first second contract
    receipt budget
  rfl

theorem validate_iff (h : Represents v b) :
    (∃ d, validateBinding v = .ok d) ↔ productionBinding b = true := by
  obtain ⟨d, rfl, same⟩ := h
  rw [production_iff]
  constructor
  · rintro ⟨d', valid⟩
    obtain ⟨e, p, represented⟩ := represented_of_valid valid
    obtain rfl := hostBinding_inj fun key => (same key).symm.trans (represented key)
    exact p
  · intro p
    exact ⟨d, valid_of_represented p same⟩

theorem encode_iff (h : Represents v b) :
    encodeBinding v = .ok w ↔ Production b ∧ w = bindingWire b := by
  obtain ⟨d, rfl, same⟩ := h
  constructor
  · intro made
    obtain ⟨d', valid, -⟩ := bind_ok.mp made
    have p := production_iff.mp ((validate_iff ⟨d, rfl, same⟩).mp ⟨d', valid⟩)
    rw [encode_of_represented p same] at made
    exact ⟨p, (Except.ok.inj made).symm⟩
  · rintro ⟨p, rfl⟩
    exact encode_of_represented p same

theorem sessionMessage_ok : sessionMessage w pair = .ok out ↔ (∃ b, Production b ∧ w = bindingWire b) ∧
    (0 < pair.length ∧ pair.length ≤ pairRawMax) ∧ out = sessionDomain ++ contractSha ++
      (Sha256.sha256 w).toList ++ (Sha256.sha256 pair).toList := by
  simp only [sessionMessage, bind_ok, require_ok, pure_ok, decodeBinding_ok, Bool.and_eq_true,
    decide_eq_true_eq]
  constructor
  · rintro ⟨d, ⟨b, p, wire, -⟩, -, bounds, same⟩
    exact ⟨⟨b, p, wire⟩, bounds, same.symm⟩
  · rintro ⟨⟨b, p, wire⟩, bounds, same⟩
    exact ⟨hostBinding b, ⟨b, p, wire, rfl⟩, (), bounds, same.symm⟩

theorem packPayload_ok : packPayload utils w pair signature = .ok out ↔
    (∃ b, Production b ∧ w = bindingWire b) ∧ (0 < pair.length ∧ pair.length ≤ pairRawMax) ∧
      der utils signature = .ok signature ∧
      headerSize + w.length + pair.length + signature.length ≤ payloadMax ∧
      out = payloadWire w pair signature := by
  have wire : payloadWire w pair signature = ascii "GCP1" ++ le 2 1 ++ le 2 headerSize ++
      le 2 (headerSize + w.length + pair.length + signature.length) ++ le 2 bindingSize ++
      le 2 pair.length ++ le 2 signature.length ++ contractSha ++ List.replicate 8 0 ++ w ++ pair ++
      signature := by
    simp only [payloadWire, payloadFields, List.flatten_cons, List.flatten_nil, List.append_nil,
      List.append_assoc]
  simp only [packPayload, bind_ok, require_ok, pure_ok, sessionMessage_ok, decide_eq_true_eq]
  constructor
  · rintro ⟨m, ⟨made, bounds, -⟩, s, signed, -, room, same⟩
    obtain rfl := (der_taken signed).1
    exact ⟨made, bounds, signed, room, same.symm.trans wire.symm⟩
  · rintro ⟨made, bounds, signed, room, same⟩
    exact ⟨_, ⟨made, bounds, rfl⟩, signature, signed, (), room, (same.trans wire).symm⟩

private theorem cut_header (xs : List UInt8) : cut headerWidths xs =
    [xs.take 4, (xs.drop 4).take 2, (xs.drop 6).take 2, (xs.drop 8).take 2, (xs.drop 10).take 2,
      (xs.drop 12).take 2, (xs.drop 14).take 2, (xs.drop 16).take 32, (xs.drop 48).take 8,
      xs.drop 56] := by
  simp only [cut, headerWidths, List.drop_drop, Nat.reduceAdd]

theorem decodePayload_reads :
    (∃ r, decodePayload utils xs = .ok r ∧ r.binding = hostBinding e ∧ r.bindingWire = w ∧
        r.pairRaw = pair ∧ r.signature = signature) ↔
      Production e ∧ w = bindingWire e ∧ (0 < pair.length ∧ pair.length ≤ pairRawMax) ∧
        der utils signature = .ok signature ∧ xs.length ≤ payloadMax ∧ xs = payloadWire w pair signature := by
  simp only [decodePayload, bind_ok, require_ok, pure_ok, decodeBinding_ok, Bool.and_eq_true,
    beq_iff_eq, decide_eq_true_eq, cut_header, List.getD_cons_zero, List.getD_cons_succ]
  constructor
  · rintro ⟨r, ⟨-, ⟨long, short⟩, -, ⟨⟨⟨⟨⟨⟨⟨⟨⟨⟨⟨magic, version⟩, header⟩, binding⟩, contract⟩, reserved⟩, some_⟩,
      pairs⟩, low⟩, high⟩, total⟩, sum⟩, d, ⟨b, p, wire, rfl⟩, sig, signed, rfl⟩, same, rfl, rfl, rfl⟩
    obtain rfl := hostBinding_inj fun key => congrArg (List.lookup key) same
    obtain ⟨rfl, -, -⟩ := der_taken signed
    have lengths : xs.length = 56 + 188 + leValue ((xs.drop 12).take 2) +
      leValue ((xs.drop 14).take 2) := sum
    have pairLength : ((xs.drop (headerSize + bindingSize)).take
        (leValue ((xs.drop 12).take 2))).length = leValue ((xs.drop 12).take 2) := by
      rw [List.length_take, List.length_drop]
      show min _ (xs.length - 244) = _
      omega
    have sigLength : (xs.drop (xs.length - leValue ((xs.drop 14).take 2))).length =
        leValue ((xs.drop 14).take 2) := by
      rw [List.length_drop]
      omega
    refine ⟨p, wire, ⟨by rw [pairLength]; exact some_, by rw [pairLength]; exact pairs⟩, signed, short, ?_⟩
    rw [framed_iff (by rw [wire]; exact length_bindingWire _) (by rw [pairLength]; exact pairs)
      (by rw [sigLength]; exact high) long]
    refine ⟨magic, version, header, total, binding, pairLength.symm, sigLength.symm, contract, reserved, ?_⟩
    have tail : xs.drop (xs.length - leValue ((xs.drop 14).take 2)) =
        ((xs.drop 56).drop 188).drop (leValue ((xs.drop 12).take 2)) := by
      rw [List.drop_drop, List.drop_drop]
      congr 1
      omega
    have middle : xs.drop (headerSize + bindingSize) = (xs.drop 56).drop 188 := by
      rw [List.drop_drop]
    rw [tail, middle, List.take_append_drop]
    exact (List.take_append_drop 188 _).symm
  · rintro ⟨p, wire, ⟨some_, pairs⟩, signed, short, whole⟩
    have length : xs.length = headerSize + w.length + pair.length + signature.length := by
      rw [whole, length_payloadWire]
    have wireLength : w.length = bindingSize := by rw [wire, length_bindingWire]
    have sigs := (der_taken signed).2.1
    have lengths : xs.length = 56 + 188 + pair.length + signature.length := by
      rw [length, wireLength]
    have long : headerSize ≤ xs.length := by
      show 56 ≤ xs.length
      omega
    have framed := (framed_iff wireLength pairs sigs.2 long).mp whole
    have pairSize : leValue ((xs.drop 12).take 2) = pair.length := framed.pairSize
    have sigSize : leValue ((xs.drop 14).take 2) = signature.length := framed.sigSize
    have wire_ : (xs.drop headerSize).take bindingSize = w := by
      rw [show xs.drop headerSize = w ++ (pair ++ signature) from framed.body, ← wireLength,
        List.take_left]
    have rest : xs.drop (headerSize + bindingSize) = pair ++ signature := by
      rw [← List.drop_drop, show xs.drop headerSize = w ++ (pair ++ signature) from framed.body,
        ← wireLength, List.drop_left]
    have pair_ : (xs.drop (headerSize + bindingSize)).take pair.length = pair := by
      rw [rest, List.take_left]
    have sig_ : xs.drop (xs.length - signature.length) = signature := by
      have here : xs.length - signature.length = headerSize + bindingSize + pair.length := by
        show _ = 56 + 188 + pair.length
        omega
      rw [here, ← List.drop_drop, rest, List.drop_left]
    refine ⟨⟨hostBinding e, w, pair, signature⟩, ⟨(), ⟨long, short⟩, (), ?_, hostBinding e,
      ⟨e, p, wire_.trans wire, rfl⟩, signature, ?_, ?_⟩, rfl, rfl, rfl, rfl⟩
    · rw [pairSize, sigSize]
      exact ⟨⟨⟨⟨⟨⟨⟨⟨⟨⟨⟨framed.magic, framed.version⟩, framed.header⟩, framed.binding⟩, framed.contract⟩,
        framed.reserved⟩, some_⟩, pairs⟩, sigs.1⟩, sigs.2⟩, framed.total⟩, lengths⟩
    · rw [sigSize, sig_]
      exact signed
    · rw [wire_, pairSize, pair_]

end Host

section Firmware

variable {utils : DssUtils} {b e : Binding} {xs w pair signature payload : List UInt8} {used n : Nat}

theorem pairShape_iff : ColdProof.pairShape pair = true ↔
    (0 < pair.length ∧ pair.length ≤ pairRawMax) ∧ 0 ∉ pair := by
  simp only [ColdProof.pairShape, Bool.and_eq_true, decide_eq_true_eq, List.all_eq_true, bne_iff_ne,
    Bool.not_eq_true', List.isEmpty_eq_false_iff, List.length_pos_iff]
  refine and_congr Iff.rfl ⟨fun all mem => all 0 mem rfl, fun none_ v mem zero => none_ ?_⟩
  rw [← zero]
  exact mem

/-- The bytes between the signature's length and the binding: the contract and eight zeros. -/
theorem toList_writePayload {wire : ByteFields.Bytes ColdProof.bindingSize}
    (same : wire.toList = bindingWire b) (room : ColdProof.payloadSize pair signature ≤ n) :
    (ColdProof.writePayload n wire pair signature).toList =
      payloadWire (bindingWire b) pair signature ++
        List.replicate (n - ColdProof.payloadSize pair signature) 0 := by
  have length : (payloadWire (bindingWire b) pair signature).length =
      ColdProof.payloadSize pair signature := by
    rw [length_payloadWire, length_bindingWire]
    rfl
  have wires : (bindingWire b).length = 188 := length_bindingWire b
  let head := [ascii "GCP1", le 2 1, le 2 headerSize, le 2 (ColdProof.payloadSize pair signature),
    le 2 bindingSize, le 2 pair.length, le 2 signature.length, contractSha].flatten
  have whole : payloadWire (bindingWire b) pair signature =
      head ++ List.replicate 8 0 ++ (bindingWire b ++ (pair ++ signature)) := by
    have size : headerSize + (bindingWire b).length + pair.length + signature.length =
        ColdProof.payloadSize pair signature := by
      rw [length_bindingWire]
      rfl
    rw [payloadWire, size]
    simp only [head, payloadFields, List.flatten_cons, List.flatten_nil, List.append_nil,
      List.append_assoc]
  have headLength : (head ++ List.replicate 8 0).length = 56 := by
    simp [head, contract_twin]
    rfl
  have header : blit (put (put (put (put (put (put (put (zero n) 0 ColdProof.magic 4) 4
      ColdProof.version 2) 6 ColdProof.headerSize 2) 8 (ColdProof.payloadSize pair signature) 2) 10
      ColdProof.bindingSize 2) 12 pair.length 2) 14 signature.length 2) 16 ColdProof.contractSha 32 =
      paste (zero n) 0 head := by
    have magic : le 4 ColdProof.magic = ascii "GCP1" := by decide
    have four : (ascii "GCP1").length = 4 := rfl
    simp only [put_eq_paste]
    rw [blit_eq_paste, ← contract_twin, magic]
    repeat rw [paste_next (by simp [four])]
    simp only [head, List.flatten_cons, List.flatten_nil, List.append_nil]
  have filled : ColdProof.writePayload n wire pair signature =
      paste (zero n) 0 (payloadWire (bindingWire b) pair signature) := by
    unfold ColdProof.writePayload
    dsimp only
    rw [header, blit_eq_paste, same, ← paste_zeros head 8, whole]
    rw [paste_next rfl, paste_next (by rw [wires]), paste_next (by rw [headLength])]
  rw [filled, toList_paste _ (by rw [length]; exact room), length]

theorem bindingHashInput_none (other : ¬Production b) : ColdProof.bindingHashInput b = none := by
  cases made : ColdProof.bindingHashInput b with
  | none => rfl
  | some w => exact absurd (bindingHashInput_some.mp made).1 other

theorem bindingHashInput_wire (p : Production b) :
    ∃ w, ColdProof.bindingHashInput b = some w ∧ w.toList = bindingWire b := by
  obtain ⟨w, same⟩ := vector_of (length_bindingWire b)
  exact ⟨w, bindingHashInput_some.mpr ⟨p, same⟩, same⟩

theorem toOption_none {ε α : Type} {x : Except ε α} (h : ∀ a, x ≠ .ok a) : x.toOption = none := by
  cases x with
  | error e => rfl
  | ok a => exact absurd rfl (h a)

theorem encode_twin (documented : utils.Documented) {v : Value} (h : Represents v b) (plain : 0 ∉ pair)
    (bounds : 0 < pair.length ∧ pair.length ≤ pairRawMax) (bounded : Bounded signature)
    (room : ColdProof.payloadSize pair signature ≤ n)
    (fits : ColdProof.payloadSize pair signature ≤ payloadMax) :
    (do packPayload utils (← encodeBinding v) pair signature : Checked (List UInt8)).toOption =
      (ColdProof.encode b pair signature n).toOption.map fun r => r.1.toList.take r.2 := by
  have size : headerSize + (bindingWire b).length + pair.length + signature.length =
      ColdProof.payloadSize pair signature := by
    rw [length_bindingWire]
    rfl
  have small : ¬(n < ColdProof.payloadSize pair signature ∨
      ColdProof.payloadMax < ColdProof.payloadSize pair signature) := by
    rintro (less | more)
    · exact Nat.not_lt.mpr room less
    · exact Nat.not_lt.mpr fits more
  have shaped := pairShape_iff.mpr ⟨bounds, plain⟩
  cases signed : ColdProof.derShape signature with
  | false =>
    have refused : der utils signature ≠ .ok signature := fun ok => by
      rw [(der_twin documented bounded).mpr ok] at signed
      cases signed
    have firmware : ColdProof.encode b pair signature n = .error .der := by
      simp only [ColdProof.encode, shaped, signed, Bool.not_true, Bool.not_false, Bool.false_eq_true,
        if_false, if_true]
    rw [firmware, toOption_none]
    · rfl
    · intro out made
      obtain ⟨w, -, packed⟩ := bind_ok.mp made
      exact refused (packPayload_ok.mp packed).2.2.1
  | true =>
    by_cases p : Production b
    · obtain ⟨wire, made, same⟩ := bindingHashInput_wire p
      have firmware : ColdProof.encode b pair signature n =
          .ok (ColdProof.writePayload n wire pair signature, ColdProof.payloadSize pair signature) := by
        simp only [ColdProof.encode, shaped, signed, made, Bool.not_true, Bool.false_eq_true, if_false,
          if_neg small]
      have packed : packPayload utils (bindingWire b) pair signature =
          .ok (payloadWire (bindingWire b) pair signature) :=
        packPayload_ok.mpr ⟨⟨b, p, rfl⟩, bounds, (der_twin documented bounded).mp signed,
          by rw [size]; exact fits, rfl⟩
      have host : (do packPayload utils (← encodeBinding v) pair signature : Checked (List UInt8)) =
          .ok (payloadWire (bindingWire b) pair signature) :=
        bind_ok.mpr ⟨bindingWire b, (encode_iff h).mpr ⟨p, rfl⟩, packed⟩
      have length := @length_payloadWire (bindingWire b) pair signature
      rw [host, firmware]
      show some _ = some _
      dsimp only
      rw [toList_writePayload same room, ← size, ← length, List.take_left]
    · have firmware : ColdProof.encode b pair signature n = .error .binding := by
        simp only [ColdProof.encode, shaped, signed, bindingHashInput_none p, Bool.not_true,
          Bool.false_eq_true, if_false, if_neg small]
      rw [firmware, toOption_none]
      · rfl
      · intro out made
        obtain ⟨w, encoded, -⟩ := bind_ok.mp made
        exact p ((encode_iff h).mp encoded).1

private theorem drop_take_of_take {a k : Nat} (h : a + k ≤ used) :
    (payload.drop a).take k = ((payload.take used).drop a).take k := by
  rw [List.drop_take, List.take_take, Nat.min_eq_left (by omega)]

private theorem zeros_iff_any {ys : List UInt8} (length : ys.length = 8) :
    (ys.any fun v => v != 0) = false ↔ ys = List.replicate 8 0 := by
  rw [List.eq_replicate_iff, List.any_eq_false]
  simp [length]

/-- The view of a payload whose pair and signature have these sizes. -/
def viewAt (payload : List UInt8) (used pairSize signatureSize : Nat) : ColdProof.View where
  totalSize := used
  bindingOffset := ColdProof.headerSize
  pairOffset := ColdProof.headerSize + ColdProof.bindingSize
  signatureOffset := ColdProof.headerSize + ColdProof.bindingSize + pairSize
  binding := (payload.drop ColdProof.headerSize).take ColdProof.bindingSize
  nonce := (payload.drop (ColdProof.headerSize + 8 + 32)).take 16
  pairRaw := (payload.drop (ColdProof.headerSize + ColdProof.bindingSize)).take pairSize
  signature := (payload.drop (ColdProof.headerSize + ColdProof.bindingSize + pairSize)).take signatureSize

/-- What the header says, sizes apart. -/
structure HeaderReads (payload : List UInt8) (used : Nat) : Prop where
  magic : ColdProof.uncheckedGet (payload.take used) 0 4 = ColdProof.magic
  version : ColdProof.uncheckedGet (payload.take used) 4 2 = ColdProof.version
  header : ColdProof.uncheckedGet (payload.take used) 6 2 = ColdProof.headerSize
  total : ColdProof.uncheckedGet (payload.take used) 8 2 = used
  binding : ColdProof.uncheckedGet (payload.take used) 10 2 = ColdProof.bindingSize
  contract : (payload.drop 16).take 32 = ColdProof.contractSha.toList
  reserved : (((payload.drop 48).take 8).any fun v => v != 0) = false

/-- The sizes of the pair and the signature, and that nothing else follows. -/
structure SizesRead (payload : List UInt8) (used pairSize signatureSize : Nat) : Prop where
  pairRead : ColdProof.uncheckedGet (payload.take used) 12 2 = pairSize
  signatureRead : ColdProof.uncheckedGet (payload.take used) 14 2 = signatureSize
  nonempty : pairSize ≠ 0
  pairMost : pairSize ≤ ColdProof.pairRawMax
  least : 8 ≤ signatureSize
  most : signatureSize ≤ 72
  total : used = ColdProof.headerSize + ColdProof.bindingSize + pairSize + signatureSize

/-- Exactly what the firmware's decoder looks at. -/
theorem decode_ok {view : ColdProof.View} : ColdProof.decode payload used e = .ok view ↔
    (used ≤ payload.length ∧ used ≤ payloadMax ∧ 56 + 188 + 1 + 8 ≤ used) ∧ HeaderReads payload used ∧
      ∃ pairSize signatureSize canonical, SizesRead payload used pairSize signatureSize ∧
        view = viewAt payload used pairSize signatureSize ∧ ColdProof.bindingHashInput e = some canonical ∧
        view.binding = canonical.toList ∧ ColdProof.pairShape view.pairRaw = true ∧
        ColdProof.derShape view.signature = true := by
  constructor
  · intro made
    unfold ColdProof.decode at made
    dsimp only at made
    split at made
    · cases made
    rename_i room
    split at made
    · cases made
    rename_i header
    split at made
    · cases made
    rename_i contract
    split at made
    · cases made
    rename_i reserved
    split at made
    · cases made
    rename_i sizes
    split at made
    · cases made
    rename_i canonical found
    split at made
    · cases made
    rename_i bound
    split at made
    · cases made
    rename_i pairs
    split at made
    · cases made
    rename_i signed
    simp only [not_or, not_lt, not_not] at room header contract sizes bound
    obtain ⟨magic, version, headerSize_, total, binding⟩ := header
    obtain ⟨some_, pairMost, least, most, sum⟩ := sizes
    cases Except.ok.inj made
    exact ⟨room, ⟨magic, version, headerSize_, total, binding, contract, eq_false_of_ne_true reserved⟩, _, _,
      canonical, ⟨rfl, rfl, some_, pairMost, least, most, sum⟩, rfl, found, bound, by simpa using pairs,
      by simpa using signed⟩
  · rintro ⟨⟨held, short, long⟩, header, pairSize, signatureSize, canonical, sizes, rfl, found, bound, pairs, signed⟩
    have room : ¬(payload.length < used ∨ ColdProof.payloadMax < used ∨
        used < ColdProof.headerSize + ColdProof.bindingSize + 1 + 8) :=
      not_or.mpr ⟨Nat.not_lt.mpr held, not_or.mpr ⟨Nat.not_lt.mpr short, Nat.not_lt.mpr long⟩⟩
    unfold ColdProof.decode
    simp only [sizes.pairRead, sizes.signatureRead]
    rw [if_neg room, if_neg (by simp only [header.magic, header.version, header.header, header.total,
      header.binding, ne_eq, not_true_eq_false, or_self, not_false_eq_true]), if_neg (not_not.mpr header.contract),
      header.reserved, if_neg Bool.false_ne_true, if_neg, found]
    · unfold viewAt at bound pairs signed
      dsimp only at bound pairs signed ⊢
      rw [if_neg (not_not.mpr bound), pairs, signed]
      rfl
    · rintro (h | h | h | h | h)
      · exact sizes.nonempty h
      · exact Nat.not_lt.mpr sizes.pairMost h
      · exact Nat.not_lt.mpr sizes.least h
      · exact Nat.not_lt.mpr sizes.most h
      · exact h sizes.total

private theorem length_take_used (held : used ≤ payload.length) : (payload.take used).length = used := by
  rw [List.length_take]
  omega

/-- The parts of a view are what follows the header, cut at the sizes. -/
private theorem viewAt_parts {m n : Nat} (held : used ≤ payload.length) (total : used = 56 + 188 + m + n) :
    (viewAt payload used m n).binding = ((payload.take used).drop 56).take 188 ∧
      (viewAt payload used m n).pairRaw = (((payload.take used).drop 56).drop 188).take m ∧
      (viewAt payload used m n).signature = (((payload.take used).drop 56).drop 188).drop m := by
  have length := length_take_used held
  refine ⟨drop_take_of_take (show 56 + 188 ≤ used by omega), ?_, ?_⟩
  · rw [List.drop_drop]
    exact drop_take_of_take (show 56 + 188 + m ≤ used by omega)
  · have room : 56 + 188 + m + n ≤ used := Nat.le_of_eq total.symm
    have moved : (viewAt payload used m n).signature = ((payload.take used).drop (56 + 188 + m)).take n :=
      drop_take_of_take room
    rw [moved, List.drop_drop, List.drop_drop, show 56 + (188 + m) = 56 + 188 + m from (Nat.add_assoc 56 188 m).symm]
    apply List.take_of_length_le
    rw [List.length_drop, length]
    omega

/-- What the firmware takes is the wire of the binding it expects. -/
private theorem framed_of_decode (held : used ≤ payload.length) {m n : Nat} (long : 56 + 188 + 1 + 8 ≤ used)
    (header : HeaderReads payload used) (sizes : SizesRead payload used m n)
    (bound : (viewAt payload used m n).binding = bindingWire e) :
    payload.take used = payloadWire (viewAt payload used m n).binding (viewAt payload used m n).pairRaw
      (viewAt payload used m n).signature := by
  have length := length_take_used held
  have total : used = 56 + 188 + m + n := sizes.total
  obtain ⟨wire, pair_, sig⟩ := viewAt_parts held total
  have wireLength : (viewAt payload used m n).binding.length = bindingSize := by rw [bound, length_bindingWire]
  have pairLength : (viewAt payload used m n).pairRaw.length = m := by
    rw [pair_, List.length_take, List.length_drop, List.length_drop, length]
    omega
  have sigLength : (viewAt payload used m n).signature.length = n := by
    rw [sig, List.length_drop, List.length_drop, List.length_drop, length]
    omega
  rw [framed_iff wireLength (by rw [pairLength]; exact sizes.pairMost) (by rw [sigLength]; exact sizes.most)
    (by rw [length]; show 56 ≤ used; omega)]
  refine ⟨?_, header.version, header.header, by rw [length]; exact header.total, header.binding,
    sizes.pairRead.trans pairLength.symm, sizes.signatureRead.trans sigLength.symm, ?_, ?_, ?_⟩
  · have four : ((payload.take used).take 4).length = 4 := by
      rw [List.length_take, length]
      omega
    have read : leValue ((payload.take used).take 4) = ColdProof.magic := header.magic
    rw [leValue_eq_iff (by rw [four]; decide), four] at read
    rw [read]
    decide
  · rw [contract_twin, ← header.contract]
    exact (drop_take_of_take (by omega)).symm
  · have eight : ((payload.drop 48).take 8).length = 8 := by
      rw [List.length_take, List.length_drop]
      omega
    have moved : (payload.drop 48).take 8 = ((payload.take used).drop 48).take 8 := drop_take_of_take (by omega)
    rw [← moved]
    exact (zeros_iff_any eight).mp header.reserved
  · rw [wire, pair_, sig, List.take_append_drop]
    exact (List.take_append_drop 188 _).symm

/-- And such a wire has the header and the sizes that the firmware asks for. -/
private theorem reads_of_framed (held : used ≤ payload.length) (pairs : 0 < pair.length ∧ pair.length ≤ pairRawMax)
    (sigs : 8 ≤ signature.length ∧ signature.length ≤ 72)
    (whole : payload.take used = payloadWire (bindingWire e) pair signature) :
    HeaderReads payload used ∧ SizesRead payload used pair.length signature.length ∧
      ((viewAt payload used pair.length signature.length).binding = bindingWire e ∧
        (viewAt payload used pair.length signature.length).pairRaw = pair ∧
        (viewAt payload used pair.length signature.length).signature = signature) := by
  have length := length_take_used held
  have wireLength := length_bindingWire e
  have total : used = 56 + 188 + pair.length + signature.length := by
    rw [← length, whole, length_payloadWire, wireLength]
  have framed := (framed_iff wireLength pairs.2 sigs.2 (by rw [length]; show 56 ≤ used; omega)).mp whole
  have body : (payload.take used).drop 56 = bindingWire e ++ (pair ++ signature) := framed.body
  refine ⟨⟨?_, framed.version, framed.header, framed.total.trans length, framed.binding, ?_, ?_⟩,
    ⟨framed.pairSize, framed.sigSize, Nat.ne_of_gt pairs.1, pairs.2, sigs.1, sigs.2, total⟩, ?_⟩
  · show leValue ((payload.take used).take 4) = _
    rw [framed.magic]
    decide
  · rw [drop_take_of_take (show 16 + 32 ≤ used by omega), framed.contract, contract_twin]
  · rw [drop_take_of_take (show 48 + 8 ≤ used by omega), framed.reserved]
    decide
  · obtain ⟨wire, pair_, sig⟩ := viewAt_parts held total
    rw [wire, pair_, sig, body, List.drop_left' wireLength]
    exact ⟨List.take_left' wireLength, List.take_left, List.drop_left⟩

/-- What the firmware reads, given the binding it expects. -/
theorem decode_reads (held : used ≤ payload.length) :
    (∃ view, ColdProof.decode payload used e = .ok view ∧ view.binding = w ∧ view.pairRaw = pair ∧
        view.signature = signature) ↔
      Production e ∧ w = bindingWire e ∧ ColdProof.pairShape pair = true ∧
        ColdProof.derShape signature = true ∧ used ≤ payloadMax ∧
        payload.take used = payloadWire w pair signature := by
  constructor
  · rintro ⟨view, made, rfl, rfl, rfl⟩
    obtain ⟨⟨-, short, long⟩, header, m, n, canonical, sizes, rfl, found, bound, pairs, signed⟩ := decode_ok.mp made
    obtain ⟨p, same⟩ := bindingHashInput_some.mp found
    have wire := bound.trans same
    exact ⟨p, wire, pairs, signed, short, framed_of_decode held long header sizes wire⟩
  · rintro ⟨p, rfl, pairs, signed, short, whole⟩
    have bounds := (pairShape_iff.mp pairs).1
    have sigs := (derShape_iff.mp signed).1
    obtain ⟨header, sizes, wire, pair_, sig⟩ := reads_of_framed held bounds sigs whole
    obtain ⟨canonical, found, same⟩ := bindingHashInput_wire p
    have long : 56 + 188 + 1 + 8 ≤ used := by
      have total : used = 56 + 188 + pair.length + signature.length := sizes.total
      omega
    refine ⟨viewAt payload used pair.length signature.length, decode_ok.mpr ⟨⟨held, short, long⟩, header, _, _,
      canonical, sizes, rfl, found, wire.trans same.symm, ?_, ?_⟩, wire, pair_, sig⟩
    · rw [pair_]
      exact pairs
    · rw [sig]
      exact signed

end Firmware

section Twins

variable {utils : DssUtils} {b : Binding} {payload : List UInt8} {used n : Nat}

def pairPart (xs : List UInt8) : List UInt8 :=
  (xs.drop (headerSize + bindingSize)).take (leValue ((xs.drop 12).take 2))

def signaturePart (xs : List UInt8) : List UInt8 :=
  (xs.drop (headerSize + bindingSize + leValue ((xs.drop 12).take 2))).take
    (leValue ((xs.drop 14).take 2))

private theorem parts_payloadWire {w pair signature : List UInt8} (wire : w.length = bindingSize)
    (pairs : pair.length ≤ pairRawMax) (sigs : signature.length ≤ 72) :
    pairPart (payloadWire w pair signature) = pair ∧
      signaturePart (payloadWire w pair signature) = signature := by
  have long : headerSize ≤ (payloadWire w pair signature).length := by
    rw [length_payloadWire]
    omega
  have framed := (framed_iff wire pairs sigs long).mp rfl
  have rest : (payloadWire w pair signature).drop (headerSize + bindingSize) = pair ++ signature := by
    rw [← List.drop_drop, framed.body]
    exact List.drop_left' wire
  constructor
  · rw [pairPart, framed.pairSize, rest, List.take_left]
  · rw [signaturePart, framed.pairSize, framed.sigSize, ← List.drop_drop, rest, List.drop_left,
      List.take_length]

theorem decode_twin (documented : utils.Documented) {w pair signature : List UInt8} (held : used ≤ payload.length)
    (plain : 0 ∉ pairPart (payload.take used)) (bounded : Bounded (signaturePart (payload.take used))) :
    (∃ r, decodePayload utils (payload.take used) = .ok r ∧ r.binding = hostBinding b ∧
        r.bindingWire = w ∧ r.pairRaw = pair ∧ r.signature = signature) ↔
      ∃ view, ColdProof.decode payload used b = .ok view ∧ view.binding = w ∧
        view.pairRaw = pair ∧ view.signature = signature := by
  have length : (payload.take used).length = used := by
    rw [List.length_take]
    omega
  rw [decodePayload_reads, decode_reads held, length]
  constructor
  · rintro ⟨p, rfl, bounds, ders, short, whole⟩
    have sigs := (der_taken ders).2.1
    have parts := parts_payloadWire (length_bindingWire b) bounds.2 sigs.2
    rw [whole, parts.1] at plain
    rw [whole, parts.2] at bounded
    exact ⟨p, rfl, pairShape_iff.mpr ⟨bounds, plain⟩, (der_twin documented bounded).mpr ders, short, whole⟩
  · rintro ⟨p, rfl, pairs, signed, short, whole⟩
    have bounds := (pairShape_iff.mp pairs).1
    have sigs := (derShape_iff.mp signed).1
    have parts := parts_payloadWire (length_bindingWire b) bounds.2 sigs.2
    rw [whole, parts.2] at bounded
    exact ⟨p, rfl, bounds, (der_twin documented bounded).mp signed, short, whole⟩

theorem decodePayload_production {xs : List UInt8} {r : Decoded} (read : decodePayload utils xs = .ok r) :
    ∃ e, Production e ∧ r.binding = hostBinding e := by
  simp only [decodePayload, bind_ok, require_ok, pure_ok, decodeBinding_ok] at read
  obtain ⟨-, -, -, -, d, ⟨e, p, -, rfl⟩, -, -, rfl⟩ := read
  exact ⟨e, p, rfl⟩

private theorem binding_twin {v : Value} (h : Represents v b) :
    (encodeBinding v).toOption = (ColdProof.bindingHashInput b).map Vector.toList := by
  by_cases p : Production b
  · obtain ⟨w, made, same⟩ := bindingHashInput_wire p
    rw [made, (encode_iff h).mpr ⟨p, rfl⟩, Option.map_some, same]
    rfl
  · rw [bindingHashInput_none p]
    exact toOption_none fun w made => p ((encode_iff h).mp made).1

theorem message_twin {v : Value} {w : ByteFields.Bytes ColdProof.bindingSize} {pair : List UInt8}
    (h : Represents v b) (wire : ColdProof.bindingHashInput b = some w)
    (bounds : 0 < pair.length ∧ pair.length ≤ pairRawMax) :
    ColdProof.sessionMessage (Sha256.sha256 w.toList) (Sha256.sha256 pair) =
      if nonzero (Sha256.sha256 w.toList) && nonzero (Sha256.sha256 pair) then
        (do sessionMessage (← encodeBinding v) pair : Checked (List UInt8)).toOption
      else none := by
  obtain ⟨p, same⟩ := bindingHashInput_some.mp wire
  have host : (do sessionMessage (← encodeBinding v) pair : Checked (List UInt8)) =
      .ok (sessionDomain ++ contractSha ++ (Sha256.sha256 w.toList).toList ++
        (Sha256.sha256 pair).toList) :=
    bind_ok.mpr ⟨_, (encode_iff h).mpr ⟨p, same⟩, sessionMessage_ok.mpr ⟨⟨b, p, same⟩, bounds, rfl⟩⟩
  rw [host, contract_twin, ColdProof.sessionMessage]
  cases nonzero (Sha256.sha256 w.toList) <;> cases nonzero (Sha256.sha256 pair) <;> rfl

/-- The two codecs take the same bindings, pairs and signatures to the same bytes, read the same
values back from the same bytes, and hash them into the same message. -/
theorem codec_twins (utils : DssUtils) (documented : utils.Documented) :
    (∀ v b, Represents v b →
      ((∃ d, validateBinding v = .ok d) ↔ ColdProof.productionBinding b = true) ∧
        (encodeBinding v).toOption = (ColdProof.bindingHashInput b).map Vector.toList) ∧
      (∀ v d, validateBinding v = .ok d → ∃ b, Represents v b) ∧
      (∀ v b pair signature n, Represents v b → 0 ∉ pair →
        0 < pair.length ∧ pair.length ≤ pairRawMax → Bounded signature →
        ColdProof.payloadSize pair signature ≤ n → ColdProof.payloadSize pair signature ≤ payloadMax →
        (do packPayload utils (← encodeBinding v) pair signature : Checked (List UInt8)).toOption =
          (ColdProof.encode b pair signature n).toOption.map fun r => r.1.toList.take r.2) ∧
      (∀ payload used, used ≤ payload.length → 0 ∉ pairPart (payload.take used) →
        Bounded (signaturePart (payload.take used)) →
        (∀ r, decodePayload utils (payload.take used) = .ok r → ∃ e, r.binding = hostBinding e) ∧
          ∀ e w pair signature,
            (∃ r, decodePayload utils (payload.take used) = .ok r ∧ r.binding = hostBinding e ∧
                r.bindingWire = w ∧ r.pairRaw = pair ∧ r.signature = signature) ↔
              ∃ view, ColdProof.decode payload used e = .ok view ∧ view.binding = w ∧
                view.pairRaw = pair ∧ view.signature = signature) ∧
      ∀ v b w pair, Represents v b → ColdProof.bindingHashInput b = some w →
        0 < pair.length ∧ pair.length ≤ pairRawMax →
        ColdProof.sessionMessage (Sha256.sha256 w.toList) (Sha256.sha256 pair) =
          if nonzero (Sha256.sha256 w.toList) && nonzero (Sha256.sha256 pair) then
            (do sessionMessage (← encodeBinding v) pair : Checked (List UInt8)).toOption
          else none := by
  refine ⟨fun v b h => ⟨validate_iff h, binding_twin h⟩, ?_, ?_, ?_, ?_⟩
  · intro v d valid
    cases v with
    | dict d' =>
      obtain ⟨b, -, same⟩ := represented_of_valid valid
      exact ⟨b, d', rfl, same⟩
    | int | str | list | other => cases valid
  · intro v b pair signature n h plain bounds bounded room fits
    exact encode_twin documented h plain bounds bounded room fits
  · intro payload used held plain bounded
    constructor
    · intro r read
      obtain ⟨e, -, same⟩ := decodePayload_production read
      exact ⟨e, same⟩
    · intro e w pair signature
      exact decode_twin documented held plain bounded
  · intro v b w pair h wire bounds
    exact message_twin h wire bounds

def twinBinding : Binding :=
  { mac := Vector.replicate 6 2, originalGctGeneration := 1, originalGctEpoch := 1,
    nonce := Vector.replicate 16 1, slotHashes := (Vector.replicate 32 1, Vector.replicate 32 2),
    source131ReceiptDigest := Vector.replicate 32 1 }

def x690 : DssUtils where
  decodeDssSignature bytes := (Der.readPair bytes).map fun p => (p.1, p.2)
  encodeDssSignature r s := Der.pair r.toNat s.toNat

private theorem x690_documented : x690.Documented where
  encodes _ _ := rfl
  decodes _ _ short := congrArg (Option.map fun p : Nat × Nat => ((p.1 : Int), (p.2 : Int)))
    (Der.readPair_pair (length_pair_short short))

private theorem twinSignature_bounded : Bounded (Der.pair 5 7) := by
  intro r s same
  have size : (Der.pair 5 7).length = 8 := by decide +kernel
  have short : (Der.integer r ++ Der.integer s).length < 128 := by
    rw [same, Der.pair] at size
    simp only [List.length_cons, List.length_append] at size ⊢
    omega
  have few : (Der.integer 5 ++ Der.integer 7).length < 128 := by decide +kernel
  have read := Der.readPair_pair short
  rw [← same, Der.readPair_pair few] at read
  simp only [Option.some.injEq, Prod.mk.injEq] at read
  omega

/-- A binding, a pair and a signature that both codecs take. -/
theorem codec_twins_sample :
    (∃ d, validateBinding (.dict (hostBinding twinBinding)) = .ok d) ∧
      (do packPayload x690 (← encodeBinding (.dict (hostBinding twinBinding))) [1, 2] (Der.pair 5 7) :
          Checked (List UInt8)).toOption =
        (ColdProof.encode twinBinding [1, 2] (Der.pair 5 7) 600).toOption.map (fun r => r.1.toList.take r.2) ∧
      ∃ w, ColdProof.bindingHashInput twinBinding = some w ∧
        ColdProof.sessionMessage (Sha256.sha256 w.toList) (Sha256.sha256 [1, 2]) =
          if nonzero (Sha256.sha256 w.toList) && nonzero (Sha256.sha256 [1, 2]) then
            (do sessionMessage (← encodeBinding (.dict (hostBinding twinBinding))) [1, 2] :
              Checked (List UInt8)).toOption
          else none := by
  obtain ⟨bindings, -, payloads, -, messages⟩ := codec_twins x690 x690_documented
  have same : Represents (.dict (hostBinding twinBinding)) twinBinding := ⟨_, rfl, fun _ => rfl⟩
  have production : ColdProof.productionBinding twinBinding = true := by decide
  obtain ⟨w, wire⟩ : ∃ w, ColdProof.bindingHashInput twinBinding = some w :=
    Option.isSome_iff_exists.mp (by decide +kernel)
  refine ⟨(bindings _ _ same).1.mpr production, ?_, w, wire, messages _ _ w [1, 2] same wire (by decide)⟩
  exact payloads _ _ [1, 2] (Der.pair 5 7) 600 same (by decide) (by decide) twinSignature_bounded (by decide +kernel)
    (by decide +kernel)

end Twins

end Mosaico.Gauge.ColdCapability
