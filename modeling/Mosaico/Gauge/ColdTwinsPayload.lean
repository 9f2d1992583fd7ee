import Mosaico.Gauge.ColdTwins

/-! The payload of the cold session as both sides write and read it. -/
namespace Mosaico.Gauge.ColdCapability

open ByteFields WireLists ColdTrial
open ColdProof (productionBinding ascii)

section Binding

variable {b : Binding}

theorem bindingDict_wire (p : Production b) :
    bindingDict (fun i => (cut bindingWidths ((bindingWire b).drop 8)).getD i []) = hostBinding b := by
  have fields : (bindingWire b).drop 8 = (bindingFields b).flatten ++ [] := by
    rw [List.append_nil]
    show (bindingHeader ++ (bindingFields b).flatten).drop bindingHeader.length = _
    exact List.drop_left
  rw [fields, ← bindingFields_widths b, flatten_cut]
  have sourced : leValue (le 4 b.source) = b.source := leValue_le (by rw [p.profile.1]; decide)
  have targeted : leValue (le 4 b.target) = b.target := leValue_le (by rw [p.profile.2]; decide)
  have device : leValue (le 2 b.identity.device) = b.identity.device :=
    leValue_le (by rw [p.identity]; decide)
  have firmware : leValue (le 2 b.identity.firmware) = b.identity.firmware :=
    leValue_le (by rw [p.identity]; decide)
  have build : leValue (le 1 b.identity.build) = b.identity.build :=
    leValue_le (by rw [p.identity]; decide)
  have recovered : leValue (le 1 (ColdCapsule.recoveryByte b.recovery).toNat) =
      (ColdCapsule.recoveryByte b.recovery).toNat := leValue_le (by rw [p.recovery]; decide)
  have generation : leValue (le 4 b.originalGctGeneration) = b.originalGctGeneration := by
    have bound : b.originalGctGeneration ≤ 2 ^ 32 - 1 - 4 := p.generation.2
    exact leValue_le (by omega)
  have epoch : leValue (le 8 b.originalGctEpoch) = b.originalGctEpoch := by
    have bound : b.originalGctEpoch ≤ 2 ^ 64 - 1 - 4 := p.epoch.2
    exact leValue_le (by omega)
  have budget : leValue (le 4 b.captureBudgetMs) = b.captureBudgetMs :=
    leValue_le (Nat.lt_of_le_of_lt p.budget.2 (by decide))
  simp only [bindingDict, bindingFields, hostBinding, List.cons_append, List.nil_append,
    List.getD_cons_zero, List.getD_cons_succ, sourced, targeted, device, firmware, build, recovered,
    generation, epoch, budget]

theorem decodeBinding_ok {wire : List UInt8} {d : Dict} :
    decodeBinding wire = .ok d ↔ ∃ b, Production b ∧ wire = bindingWire b ∧ d = hostBinding b := by
  simp only [decodeBinding, bind_ok, require_ok, pure_ok, Bool.and_eq_true, beq_iff_eq]
  constructor
  · rintro ⟨-, -, again, encoded, -, same, rfl⟩
    obtain ⟨d', valid, -⟩ := bind_ok.mp encoded
    obtain ⟨b, p, represented⟩ := represented_of_valid valid
    rw [encode_of_represented p represented] at encoded
    obtain rfl := Except.ok.inj encoded
    exact ⟨b, p, same.symm, by rw [← same]; exact bindingDict_wire p⟩
  · rintro ⟨b, p, rfl, rfl⟩
    have header : (bindingWire b).take 8 = bindingHeader := by
      show (bindingHeader ++ (bindingFields b).flatten).take bindingHeader.length = _
      exact List.take_left
    refine ⟨(), ⟨length_bindingWire b, header⟩, bindingWire b, ?_, (), rfl, bindingDict_wire p⟩
    rw [bindingDict_wire p]
    exact encode_of_represented p fun _ => rfl

private theorem writeBinding_eq_paste {n : Nat} (out : ByteFields.Bytes n) (at_ : Nat) (b : Binding) :
    ColdCapsule.writeBinding out at_ b = paste out at_ (bindingFields b).flatten := by
  unfold ColdCapsule.writeBinding
  simp only [put_eq_paste]
  simp only [blit_eq_paste]
  simp only [bindingFields, List.flatten_cons, List.flatten_nil, List.append_nil]
  repeat rw [paste_next (by simp)]

/-- The array that the firmware fills holds the same bytes. -/
private theorem toList_encodeBinding {w : ByteFields.Bytes ColdCapsule.bindingWireSize}
    (h : ColdCapsule.encodeBinding b = some w) : w.toList = bindingWire b := by
  have size := length_bindingWire b
  rw [ColdCapsule.encodeBinding] at h
  split at h
  · have same : w = paste (zero ColdCapsule.bindingWireSize) 0 (bindingWire b) := by
      rw [← Option.some.inj h, writeBinding_eq_paste]
      simp only [put_eq_paste]
      rw [paste_next (by simp), paste_next (by simp), paste_next (by simp)]
      rfl
    rw [same, toList_paste _ (Nat.le_of_eq size), size]
    exact List.append_nil _
  · cases h

theorem bindingHashInput_some {w : ByteFields.Bytes ColdProof.bindingSize} :
    ColdProof.bindingHashInput b = some w ↔ Production b ∧ w.toList = bindingWire b := by
  unfold ColdProof.bindingHashInput
  split
  · rename_i production
    have valid : validBinding b = true := by
      simp only [productionBinding, Bool.and_eq_true] at production
      exact production.2
    have wire : ∃ w, ColdCapsule.encodeBinding b = some w := by
      rw [ColdCapsule.encodeBinding, if_pos valid]
      exact ⟨_, rfl⟩
    obtain ⟨v, made⟩ := wire
    have bytes := toList_encodeBinding made
    rw [made]
    constructor
    · intro same
      obtain rfl := Option.some.inj same
      exact ⟨production_iff.mp production, bytes⟩
    · rintro ⟨-, same⟩
      exact congrArg some (Vector.toList_inj.mp (bytes.trans same.symm))
  · rename_i other
    refine ⟨fun same => ?_, fun h => absurd (production_iff.mpr h.1) other⟩
    cases same

end Binding

section Signature

variable {signature bytes rest : List UInt8} {r s n : Nat}

theorem length_pair_short (h : (Der.pair r s).length ≤ 72) :
    (Der.integer r ++ Der.integer s).length < 128 := by
  rw [Der.pair, List.length_cons, List.length_append] at h
  omega

variable {utils : DssUtils}

/-- What is taken was written by the library from two positive integers. -/
theorem der_taken {out : List UInt8} (taken : der utils signature = .ok out) : out = signature ∧
    (8 ≤ signature.length ∧ signature.length ≤ 72) ∧
      ∃ r s : Int, 0 < r ∧ 0 < s ∧ signature = utils.encodeDssSignature r s := by
  simp only [der, bind_ok, require_ok, Bool.and_eq_true, decide_eq_true_eq] at taken
  obtain ⟨-, bounds, read⟩ := taken
  split at read
  · rename_i r s _
    simp only [bind_ok, require_ok, pure_ok, Bool.and_eq_true, decide_eq_true_eq, beq_iff_eq] at read
    obtain ⟨-, ⟨⟨pos, pos'⟩, same⟩, rfl⟩ := read
    exact ⟨rfl, bounds, r, s, pos, pos', same.symm⟩
  · cases read

theorem der_ok (documented : utils.Documented) {out : List UInt8} : der utils signature = .ok out ↔
    out = signature ∧ (8 ≤ signature.length ∧ signature.length ≤ 72) ∧
      ∃ r s : Nat, 0 < r ∧ 0 < s ∧ signature = Der.pair r s := by
  constructor
  · intro taken
    obtain ⟨same, bounds, r, s, pos, pos', written⟩ := der_taken taken
    obtain ⟨r, rfl⟩ := Int.eq_ofNat_of_zero_le (Int.le_of_lt pos)
    obtain ⟨s, rfl⟩ := Int.eq_ofNat_of_zero_le (Int.le_of_lt pos')
    have pos := Int.natCast_pos.mp pos
    have pos' := Int.natCast_pos.mp pos'
    exact ⟨same, bounds, r, s, pos, pos', written.trans (documented.encodes pos pos')⟩
  · rintro ⟨rfl, bounds, r, s, pos, pos', rfl⟩
    simp only [der, bind_ok, require_ok, Bool.and_eq_true, decide_eq_true_eq]
    refine ⟨(), bounds, ?_⟩
    rw [documented.decodes pos pos' bounds.2]
    simp only [bind_ok, require_ok, pure_ok, Bool.and_eq_true, decide_eq_true_eq, beq_iff_eq]
    exact ⟨(), ⟨⟨Int.natCast_pos.mpr pos, Int.natCast_pos.mpr pos'⟩, documented.encodes pos pos'⟩, trivial⟩

private theorem signless (b : UInt8) : b &&& 0x80 = 0 ↔ b < 0x80 := by
  have all : ∀ n < 256, UInt8.ofNat n &&& 0x80 = 0 ↔ UInt8.ofNat n < 0x80 := by decide +kernel
  have here := all b.toNat b.toNat_lt
  rwa [UInt8.ofNat_toNat] at here

theorem content_any (n : Nat) : ((Der.content n).any fun v => v != 0) = true ↔ 0 < n := by
  constructor
  · intro some_
    by_contra none_
    obtain rfl : n = 0 := by omega
    cases some_
  · intro pos
    by_contra none_
    have all : ∀ v ∈ Der.content n, v = 0 := by
      intro v mem
      by_contra some_
      exact none_ (List.any_eq_true.mpr ⟨v, mem, bne_iff_ne.mpr some_⟩)
    have minimal := Der.minimal_content n
    have whole := Der.value_content n
    match bytes : Der.content n with
    | [] => exact Der.content_ne_nil n bytes
    | [b] =>
      rw [bytes, all b (by rw [bytes]; exact List.mem_cons_self)] at whole
      have zero : Der.value [0] = 0 := rfl
      omega
    | b :: c :: rest =>
      rw [bytes] at minimal
      have large := minimal.2 (all b (by rw [bytes]; exact List.mem_cons_self))
      rw [all c (by rw [bytes]; exact List.mem_cons_of_mem _ List.mem_cons_self)] at large
      revert large
      decide

/-- What the firmware asks of the first two bytes of an integer. -/
theorem minimal_iff {c : List UInt8} : Der.Minimal c ↔ c.length ≠ 0 ∧ c.getD 0 0 &&& 0x80 = 0 ∧
    ¬(1 < c.length ∧ c.getD 0 0 = 0 ∧ c.getD 1 0 &&& 0x80 = 0) := by
  match c with
  | [] => exact ⟨False.elim, fun h => h.1 rfl⟩
  | [b] => exact ⟨fun small => ⟨Nat.one_ne_zero, (signless b).mpr small, fun h => by simp at h⟩,
      fun h => (signless b).mp h.2.1⟩
  | b :: c :: rest =>
    simp only [Der.Minimal, List.getD_cons_zero, List.getD_cons_succ, signless, List.length_cons]
    constructor
    · rintro ⟨small, large⟩
      exact ⟨by omega, small, fun h => UInt8.not_lt.mpr (large h.2.1) h.2.2⟩
    · rintro ⟨-, small, large⟩
      exact ⟨small, fun zero => UInt8.not_lt.mp fun low => large ⟨by omega, zero, low⟩⟩

private theorem integer_cons (n : Nat) (short : (Der.content n).length ≤ 33) :
    Der.integer n = 2 :: UInt8.ofNat (Der.content n).length :: Der.content n := by
  rw [Der.integer, Der.length, if_pos (by omega)]
  rfl

private theorem getD_take {xs : List UInt8} {count i : Nat} (h : i < count) :
    (xs.take count).getD i 0 = xs.getD i 0 := by
  rw [List.getD_eq_getElem?_getD, List.getD_eq_getElem?_getD, List.getElem?_take_of_lt h]

/-- The firmware reads a positive integer of at most 33 bytes. -/
theorem derInteger_some : ColdProof.derInteger bytes = some rest ↔
    ∃ n, 0 < n ∧ (Der.content n).length ≤ 33 ∧ bytes = Der.integer n ++ rest := by
  constructor
  · intro h
    match bytes with
    | tag :: size :: tail =>
      rw [ColdProof.derInteger] at h
      split at h
      · cases h
      rename_i two
      split at h
      · cases h
      rename_i shape
      split at h
      · cases h
      rename_i some_
      obtain rfl := Option.some.inj h
      simp only [not_or, not_lt, not_not] at two shape
      obtain ⟨nonempty, short, room, positive, minimal⟩ := shape
      have length : (tail.take size.toNat).length = size.toNat := by
        rw [List.length_take]
        omega
      have shaped : Der.Minimal (tail.take size.toNat) := by
        rw [minimal_iff, length, getD_take (by omega)]
        refine ⟨nonempty, positive, fun h => minimal ⟨h.1, h.2.1, ?_⟩⟩
        rw [← getD_take h.1]
        exact h.2.2
      have content := Der.content_value shaped
      refine ⟨Der.value (tail.take size.toNat), (content_any _).mp ?_, ?_, ?_⟩
      · rw [content]
        simpa using some_
      · rw [content, length]
        exact short
      · rw [integer_cons _ (by rw [content, length]; exact short), content, length, two,
          UInt8.ofNat_toNat, List.cons_append, List.cons_append, List.take_append_drop]
  · rintro ⟨n, pos, short, rfl⟩
    obtain ⟨nonempty, positive, minimal⟩ := minimal_iff.mp (Der.minimal_content n)
    have count : (UInt8.ofNat (Der.content n).length).toNat = (Der.content n).length :=
      UInt8.toNat_ofNat_of_lt' (Nat.lt_of_le_of_lt short (by decide))
    have first : (Der.content n ++ rest).getD 0 0 = (Der.content n).getD 0 0 :=
      List.getD_append _ _ _ _ (by omega)
    have some_ := (content_any n).mpr pos
    rw [integer_cons n short, List.cons_append, List.cons_append, ColdProof.derInteger, count, first,
      List.take_left, List.drop_left, some_, if_neg (not_not.mpr rfl), if_neg, if_neg (by decide)]
    rintro (empty | long | little | negative | padded)
    · exact nonempty empty
    · omega
    · rw [List.length_append] at little
      omega
    · exact negative positive
    · refine minimal ⟨padded.1, padded.2.1, ?_⟩
      rw [← List.getD_append _ rest _ _ padded.1]
      exact padded.2.2

theorem derShape_iff : ColdProof.derShape signature = true ↔
    (8 ≤ signature.length ∧ signature.length ≤ 72) ∧ ∃ r s, (0 < r ∧ 0 < s) ∧
      ((Der.content r).length ≤ 33 ∧ (Der.content s).length ≤ 33) ∧ signature = Der.pair r s := by
  unfold ColdProof.derShape
  constructor
  · intro h
    split at h
    · cases h
    rename_i shape
    simp only [not_or, not_lt, not_not] at shape
    obtain ⟨low, high, tag, size⟩ := shape
    split at h
    · rename_i rest first
      obtain ⟨r, posR, shortR, taken⟩ := derInteger_some.mp first
      obtain ⟨s, posS, shortS, rfl⟩ := derInteger_some.mp (beq_iff_eq.mp h)
      rw [List.append_nil] at taken
      refine ⟨⟨low, high⟩, r, s, ⟨posR, posS⟩, ⟨shortR, shortS⟩, ?_⟩
      have two : ∃ a b body, signature = a :: b :: body := by
        cases signature with
        | nil => exact absurd low (show ¬8 ≤ 0 by decide)
        | cons a rest =>
          cases rest with
          | nil => exact absurd low (show ¬8 ≤ 1 by decide)
          | cons b body => exact ⟨a, b, body, rfl⟩
      obtain ⟨a, b, body, rfl⟩ := two
      · have body_ : body = Der.integer r ++ Der.integer s := taken
        have length : body.length < 128 := by
          simp only [List.length_cons] at high
          omega
        have b_ : b = UInt8.ofNat body.length := by
          rw [← UInt8.toNat_inj, UInt8.toNat_ofNat_of_lt' (Nat.lt_trans length (by decide))]
          exact size
        have a_ : a = 0x30 := tag
        rw [Der.pair, ← body_, Der.length, if_pos length, a_, b_]
        rfl
    · cases h
  · rintro ⟨⟨low, high⟩, r, s, ⟨posR, posS⟩, ⟨shortR, shortS⟩, rfl⟩
    have short := length_pair_short high
    have whole : Der.pair r s = 0x30 :: UInt8.ofNat (Der.integer r ++ Der.integer s).length ::
        (Der.integer r ++ Der.integer s) := by
      rw [Der.pair, Der.length, if_pos short]
      rfl
    have first : ColdProof.derInteger (Der.integer r ++ Der.integer s) = some (Der.integer s) :=
      derInteger_some.mpr ⟨r, posR, shortR, rfl⟩
    have second : ColdProof.derInteger (Der.integer s) = some [] :=
      derInteger_some.mpr ⟨s, posS, shortS, (List.append_nil _).symm⟩
    rw [if_neg, whole]
    · have dropped : (0x30 :: UInt8.ofNat (Der.integer r ++ Der.integer s).length ::
          (Der.integer r ++ Der.integer s)).drop 2 = Der.integer r ++ Der.integer s := rfl
      rw [dropped, first]
      simp only [second, beq_self_eq_true]
    · rintro (short_ | long | tag | size)
      · omega
      · omega
      · rw [whole] at tag
        exact tag rfl
      · rw [whole] at size
        refine size ?_
        show (UInt8.ofNat (Der.integer r ++ Der.integer s).length).toNat = _
        rw [UInt8.toNat_ofNat_of_lt' (Nat.lt_trans short (by decide))]
        rfl

/-- Its integers, where it is the DER form of two, are below `2 ^ 256`. -/
def Bounded (signature : List UInt8) : Prop :=
  ∀ r s, signature = Der.pair r s → r < 2 ^ 256 ∧ s < 2 ^ 256

theorem der_twin (documented : utils.Documented) (bounded : Bounded signature) :
    ColdProof.derShape signature = true ↔ der utils signature = .ok signature := by
  rw [derShape_iff, der_ok documented]
  constructor
  · rintro ⟨bounds, r, s, ⟨posR, posS⟩, -, same⟩
    exact ⟨rfl, bounds, r, s, posR, posS, same⟩
  · rintro ⟨-, bounds, r, s, posR, posS, same⟩
    obtain ⟨smallR, smallS⟩ := bounded r s same
    have width : (256 : Nat) ^ 32 = 2 ^ 256 := by decide
    exact ⟨bounds, r, s, ⟨posR, posS⟩, ⟨Der.length_content_le (show r < 256 ^ 32 by rw [width]; exact smallR),
      Der.length_content_le (show s < 256 ^ 32 by rw [width]; exact smallS)⟩, same⟩

end Signature

section Framing

variable {xs w pair signature : List UInt8}

theorem contract_twin : contractSha = ColdProof.contractSha.toList := by
  unfold contractSha ColdProof.ascii contract
  -- the characters of the text, line by line; the kernel would decode the bytes of a string
  simp only [String.toList_append, -String.reduceAppend, -String.reduceToList]
  repeat rw [String.toList_ofList]
  decide +kernel

def payloadFields (total pairSize sigSize : Nat) : List (List UInt8) :=
  [ascii "GCP1", le 2 1, le 2 headerSize, le 2 total, le 2 bindingSize, le 2 pairSize, le 2 sigSize,
    contractSha, List.replicate 8 0]

def payloadWire (w pair signature : List UInt8) : List UInt8 :=
  (payloadFields (headerSize + w.length + pair.length + signature.length) pair.length
    signature.length).flatten ++ (w ++ (pair ++ signature))

theorem payloadFields_widths (total pairSize sigSize : Nat) :
    (payloadFields total pairSize sigSize).map List.length = headerWidths := by
  simp only [payloadFields, List.map_cons, List.map_nil, length_le, List.length_replicate, contract_twin,
    Vector.length_toList]
  rfl

theorem length_payloadWire :
    (payloadWire w pair signature).length = headerSize + w.length + pair.length + signature.length := by
  rw [payloadWire, List.length_append, List.length_flatten, payloadFields_widths, List.length_append,
    List.length_append]
  show 56 + (w.length + (pair.length + signature.length)) =
    56 + w.length + pair.length + signature.length
  omega

theorem number_iff (at_ len v : Nat) (room : at_ + len ≤ xs.length) (small : v < 256 ^ len) :
    (xs.drop at_).take len = le len v ↔ leValue ((xs.drop at_).take len) = v := by
  have length : ((xs.drop at_).take len).length = len := by
    rw [List.length_take, List.length_drop]
    omega
  rw [leValue_eq_iff (by rw [length]; exact small), length]

/-- A payload by what stands where in it. -/
structure Framed (xs w pair signature : List UInt8) : Prop where
  magic : xs.take 4 = ascii "GCP1"
  version : leValue ((xs.drop 4).take 2) = 1
  header : leValue ((xs.drop 6).take 2) = headerSize
  total : leValue ((xs.drop 8).take 2) = xs.length
  binding : leValue ((xs.drop 10).take 2) = bindingSize
  pairSize : leValue ((xs.drop 12).take 2) = pair.length
  sigSize : leValue ((xs.drop 14).take 2) = signature.length
  contract : (xs.drop 16).take 32 = contractSha
  reserved : (xs.drop 48).take 8 = List.replicate 8 0
  body : xs.drop 56 = w ++ (pair ++ signature)

theorem framed_iff (wire : w.length = bindingSize) (pairs : pair.length ≤ pairRawMax)
    (sigs : signature.length ≤ 72) (long : headerSize ≤ xs.length) :
    xs = payloadWire w pair signature ↔ Framed xs w pair signature := by
  have sizes : w.length = 188 ∧ pair.length ≤ 1050 ∧ 56 ≤ xs.length := ⟨wire, pairs, long⟩
  let total := headerSize + w.length + pair.length + signature.length
  have totalSmall : total < 256 ^ 2 := by
    show 56 + w.length + pair.length + signature.length < 65536
    omega
  have fields : xs = payloadWire w pair signature ↔ cut headerWidths xs =
      payloadFields total pair.length signature.length ++ [w ++ (pair ++ signature)] := by
    constructor
    · intro same
      have split_ := flatten_cut (payloadFields total pair.length signature.length)
        (w ++ (pair ++ signature))
      rw [payloadFields_widths] at split_
      rw [same]
      exact split_
    · intro same
      have whole := cut_flatten headerWidths xs
      rw [same, List.flatten_append, List.flatten_singleton] at whole
      exact whole.symm
  rw [fields]
  simp only [cut, headerWidths, payloadFields, List.cons_append, List.nil_append, List.cons.injEq,
    List.drop_drop, Nat.reduceAdd, and_true]
  rw [number_iff 4 2 1 (by omega) (by decide), number_iff 6 2 headerSize (by omega) (by decide),
    number_iff 8 2 total (by omega) totalSmall, number_iff 10 2 bindingSize (by omega) (by decide),
    number_iff 12 2 pair.length (by omega) (by omega),
    number_iff 14 2 signature.length (by omega) (by omega)]
  have whole : xs.drop 56 = w ++ (pair ++ signature) → total = xs.length := by
    intro body
    have length := congrArg List.length body
    simp only [List.length_drop, List.length_append] at length
    show 56 + w.length + pair.length + signature.length = xs.length
    omega
  constructor
  · rintro ⟨magic, version, header, size, binding, pairSize, sigSize, contract, reserved, body⟩
    exact ⟨magic, version, header, size.trans (whole body), binding, pairSize, sigSize, contract,
      reserved, body⟩
  · rintro ⟨magic, version, header, size, binding, pairSize, sigSize, contract, reserved, body⟩
    exact ⟨magic, version, header, size.trans (whole body).symm, binding, pairSize, sigSize, contract,
      reserved, body⟩

end Framing

end Mosaico.Gauge.ColdCapability
