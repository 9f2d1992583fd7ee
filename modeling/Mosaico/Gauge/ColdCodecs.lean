import Mosaico.Nand.ColdCanonical
import Mosaico.Gauge.ColdEvidenceLayout
import Mosaico.Gauge.ColdCapsuleLayout
import Mosaico.Gauge.ColdTwinsCodec

/-! The four formats of the cold trial: what is written is read back, and nothing else is read. -/
namespace Mosaico.Gauge.ColdCodecs

open ByteFields ColdTrial ColdCapability
open ColdProof (View derShape)

section Codecs

variable {A W B : Type} {typed valid : A → Prop} {bytes : W → B} {encode : A → Option W}
  {decode : W → Option A}

/-- A codec on the values of the source's types, up to the bytes of a wire that are used. -/
structure Exact (typed valid : A → Prop) (bytes : W → B) (encode : A → Option W)
    (decode : W → Option A) : Prop where
  encodes : ∀ v, typed v → (valid v ↔ ∃ w, encode v = some w)
  decode_encode : ∀ v w, typed v → encode v = some w → decode w = some v
  encode_decode : ∀ w v, decode w = some v → typed v ∧ (encode v).map bytes = some (bytes w)
  image : ∀ w, (∃ v, decode w = some v) ↔ ∃ v, typed v ∧ (encode v).map bytes = some (bytes w)

/-- Where all bytes of a wire are used, the two round trips are all there is to show. -/
theorem exact_of_iff (encodes : ∀ v, typed v → (valid v ↔ ∃ w, encode v = some w))
    (codec : ∀ v w, typed v → encode v = some w → decode w = some v)
    (back : ∀ w v, decode w = some v → typed v ∧ encode v = some w) :
    Exact typed valid id encode decode where
  encodes := encodes
  decode_encode := codec
  encode_decode w v read := by
    obtain ⟨inside, made⟩ := back w v read
    exact ⟨inside, by rw [made]; rfl⟩
  image w := by
    constructor
    · rintro ⟨v, read⟩
      obtain ⟨inside, made⟩ := back w v read
      exact ⟨v, inside, by rw [made]; rfl⟩
    · rintro ⟨v, inside, made⟩
      rw [Option.map_id, id, id] at made
      exact ⟨v, codec v w inside made⟩

end Codecs

section Proofs

variable {e : Binding} {payload pair signature : List UInt8} {count n : Nat} {view : View}

def viewOf (e : Binding) (pair signature : List UInt8) : View where
  totalSize := ColdProof.payloadSize pair signature
  bindingOffset := ColdProof.headerSize
  pairOffset := ColdProof.headerSize + ColdProof.bindingSize
  signatureOffset := ColdProof.headerSize + ColdProof.bindingSize + pair.length
  binding := ((ColdProof.bindingHashInput e).map Vector.toList).getD []
  nonce := e.nonce.toList
  pairRaw := pair
  signature := signature

theorem nonce_bindingWire (e : Binding) : ((bindingWire e).drop 40).take 16 = e.nonce.toList := by
  have parts : bindingWire e = (bindingHeader ++ ((bindingFields e).take 9).flatten) ++
      (e.nonce.toList ++ ((bindingFields e).drop 10).flatten) := by
    simp only [bindingWire, bindingFields, List.take_succ_cons, List.take_zero, List.drop_succ_cons, List.drop_zero,
      List.flatten_cons, List.flatten_nil, List.append_nil, List.append_assoc]
  have before : (bindingHeader ++ ((bindingFields e).take 9).flatten).length = 40 := by
    simp [bindingFields, bindingHeader]
    decide
  rw [parts, List.drop_left' before]
  exact List.take_left' Vector.length_toList

/-- The parts of a view that do not stand in the payload for themselves. -/
theorem decode_view (read : ColdProof.decode payload count e = .ok view) : count ≤ payload.length ∧
    view.totalSize = count ∧ view.bindingOffset = ColdProof.headerSize ∧
    view.pairOffset = ColdProof.headerSize + ColdProof.bindingSize ∧
    view.signatureOffset = ColdProof.headerSize + ColdProof.bindingSize + view.pairRaw.length ∧
    view.nonce = (view.binding.drop 40).take 16 := by
  unfold ColdProof.decode at read
  dsimp only at read
  split at read
  · cases read
  rename_i room
  split at read
  · cases read
  split at read
  · cases read
  split at read
  · cases read
  split at read
  · cases read
  rename_i sizes
  split at read
  · cases read
  split at read
  · cases read
  split at read
  · cases read
  split at read
  · cases read
  simp only [not_or, not_lt, not_not] at room sizes
  obtain ⟨held, -, -⟩ := room
  have sum := sizes.2.2.2.2
  obtain rfl := Except.ok.inj read
  refine ⟨held, rfl, rfl, rfl, ?_, ?_⟩
  · have length : ((payload.drop (ColdProof.headerSize + ColdProof.bindingSize)).take
        (ColdProof.uncheckedGet (payload.take count) 12 2)).length =
        ColdProof.uncheckedGet (payload.take count) 12 2 := by
      rw [List.length_take, List.length_drop]
      omega
    dsimp only
    rw [length]
  · dsimp only
    rw [List.drop_take, List.drop_drop, List.take_take]
    rfl

theorem binding_viewOf (p : Production e) : (viewOf e pair signature).binding = bindingWire e := by
  obtain ⟨w, made, same⟩ := bindingHashInput_wire p
  show ((ColdProof.bindingHashInput e).map Vector.toList).getD [] = _
  rw [made]
  exact same

/-- What the bytes in use spell out. -/
structure Spells (e : Binding) (payload : List UInt8) (count : Nat) (pair signature : List UInt8) : Prop where
  production : Production e
  pairs : ColdProof.pairShape pair = true
  signed : derShape signature = true
  short : count ≤ ColdProof.payloadMax
  held : count ≤ payload.length
  whole : payload.take count = payloadWire (bindingWire e) pair signature

theorem length_spells (h : Spells e payload count pair signature) :
    count = ColdProof.payloadSize pair signature := by
  have same := congrArg List.length h.whole
  rw [length_payloadWire, length_bindingWire, List.length_take, Nat.min_eq_left h.held] at same
  exact same

theorem spells_of_decode (read : ColdProof.decode payload count e = .ok view) :
    Spells e payload count view.pairRaw view.signature ∧ view = viewOf e view.pairRaw view.signature := by
  obtain ⟨held, total, offset, pairs, sigs, nonce⟩ := decode_view read
  obtain ⟨p, wire, shaped, signed, short, whole⟩ := (decode_reads held).mp ⟨view, read, rfl, rfl, rfl⟩
  rw [wire] at whole
  refine ⟨⟨p, shaped, signed, short, held, whole⟩, ?_⟩
  have length := length_spells ⟨p, shaped, signed, short, held, whole⟩
  have nonce : view.nonce = e.nonce.toList := by rw [nonce, wire, nonce_bindingWire]
  have wire : view.binding = (viewOf e view.pairRaw view.signature).binding := by rw [wire, binding_viewOf p]
  obtain ⟨t, o, po, so, b, nn, pr, sg⟩ := view
  simp only at total offset pairs sigs nonce wire length
  rw [total, offset, pairs, sigs, nonce, wire, length]
  rfl

theorem decode_of_spells (h : Spells e payload count pair signature) :
    ColdProof.decode payload count e = .ok (viewOf e pair signature) := by
  obtain ⟨view, read, -, rfl, rfl⟩ :=
    (decode_reads h.held).mpr ⟨h.production, rfl, h.pairs, h.signed, h.short, h.whole⟩
  rw [read, ← (spells_of_decode read).2]

private theorem toOption_some {ε α : Type} {x : Except ε α} {a : α} : x.toOption = some a ↔ x = .ok a := by
  cases x with
  | error e => exact ⟨nofun, nofun⟩
  | ok b => exact ⟨fun h => congrArg _ (Option.some.inj h), fun h => congrArg _ (Except.ok.inj h)⟩

/-- What the encoder takes. -/
structure Encodes (e : Binding) (pair signature : List UInt8) (n : Nat) : Prop where
  production : Production e
  pairs : ColdProof.pairShape pair = true
  signed : derShape signature = true
  room : ColdProof.payloadSize pair signature ≤ n
  short : ColdProof.payloadSize pair signature ≤ ColdProof.payloadMax

theorem encodes_of_encode {out : ByteFields.Bytes n × Nat}
    (made : ColdProof.encode e pair signature n = .ok out) : Encodes e pair signature n := by
  unfold ColdProof.encode at made
  dsimp only at made
  split at made
  · cases made
  rename_i pairs
  split at made
  · cases made
  rename_i signed
  split at made
  · cases made
  rename_i room
  split at made
  · cases made
  rename_i w wire
  simp only [not_or, not_lt] at room
  exact ⟨(bindingHashInput_some.mp wire).1, by simpa using pairs, by simpa using signed, room.1, room.2⟩

def used (w : ByteFields.Bytes n × Nat) : Nat × List UInt8 := (w.2, w.1.toList.take w.2)

theorem used_of_encode (h : Encodes e pair signature n) :
    ∃ out, ColdProof.encode e pair signature n = .ok out ∧
      used out = (ColdProof.payloadSize pair signature, payloadWire (bindingWire e) pair signature) := by
  obtain ⟨p, pairs, signed, room, short⟩ := h
  obtain ⟨w, wire, same⟩ := bindingHashInput_wire p
  have length : (payloadWire (bindingWire e) pair signature).length = ColdProof.payloadSize pair signature := by
    rw [length_payloadWire, length_bindingWire]
    rfl
  refine ⟨(ColdProof.writePayload n w pair signature, ColdProof.payloadSize pair signature), ?_, ?_⟩
  · unfold ColdProof.encode
    simp only [pairs, signed, wire, Bool.not_true, Bool.false_eq_true, if_false]
    rw [if_neg (by omega)]
  · rw [used, toList_writePayload same room, ← length, List.take_left]

private theorem spells_of_encode {out : ByteFields.Bytes n × Nat}
    (made : ColdProof.encode e pair signature n = .ok out) : Spells e out.1.toList out.2 pair signature := by
  have takes := encodes_of_encode made
  obtain ⟨out', made', same⟩ := used_of_encode takes
  obtain rfl := Except.ok.inj (made.symm.trans made')
  obtain ⟨count, whole⟩ := Prod.mk.inj same
  refine ⟨takes.production, takes.pairs, takes.signed, ?_, ?_, whole⟩
  · rw [count]
    exact takes.short
  · rw [count, Vector.length_toList]
    exact takes.room

private theorem encode_of_spells {w : ByteFields.Bytes n × Nat} (h : Spells e w.1.toList w.2 pair signature) :
    ∃ out, ColdProof.encode e pair signature n = .ok out ∧ used out = used w := by
  have count := length_spells h
  have short := h.short
  have held := h.held
  rw [Vector.length_toList] at held
  rw [count] at short held
  obtain ⟨out, made, same⟩ := used_of_encode ⟨h.production, h.pairs, h.signed, held, short⟩
  exact ⟨out, made, by rw [same, used, ← count, h.whole]⟩

/-- The bytes of a payload behind those in use are written as zeros and not read. -/
theorem proof_exact (e : Binding) (n : Nat) :
    Exact (fun v => v = viewOf e v.pairRaw v.signature) (fun v => Encodes e v.pairRaw v.signature n) used
      (fun v => (ColdProof.encode e v.pairRaw v.signature n).toOption)
      (fun w => (ColdProof.decode w.1.toList w.2 e).toOption) where
  encodes v _ := by
    constructor
    · intro takes
      obtain ⟨out, made, -⟩ := used_of_encode takes
      exact ⟨out, toOption_some.mpr made⟩
    · rintro ⟨out, made⟩
      exact encodes_of_encode (toOption_some.mp made)
  decode_encode v out typed made := by
    rw [toOption_some] at made ⊢
    rw [decode_of_spells (spells_of_encode made), ← typed]
  encode_decode w v read := by
    obtain ⟨spelled, typed⟩ := spells_of_decode (toOption_some.mp read)
    obtain ⟨out, made, same⟩ := encode_of_spells spelled
    exact ⟨typed, by rw [made, ← same]; rfl⟩
  image w := by
    constructor
    · rintro ⟨v, read⟩
      obtain ⟨spelled, typed⟩ := spells_of_decode (toOption_some.mp read)
      obtain ⟨out, made, same⟩ := encode_of_spells spelled
      exact ⟨v, typed, by rw [made, ← same]; rfl⟩
    · rintro ⟨v, -, made⟩
      obtain ⟨out, made, same⟩ := Option.map_eq_some_iff.mp made
      obtain ⟨count, bytes⟩ := Prod.mk.inj same
      have spelled := spells_of_encode (toOption_some.mp made)
      have held : w.2 ≤ w.1.toList.length := by
        rw [← count, Vector.length_toList]
        simpa using spelled.held
      have again : Spells e w.1.toList w.2 v.pairRaw v.signature :=
        ⟨spelled.production, spelled.pairs, spelled.signed, by rw [← count]; exact spelled.short, held,
          by rw [← bytes]; exact spelled.whole⟩
      exact ⟨_, toOption_some.mpr (decode_of_spells again)⟩

end Proofs

section Signatures

variable {signature signature' c d c' d' : List UInt8}

/-- What the shape check admits carries two positive integers in their only contents. -/
theorem carries_of_shape (shaped : derShape signature = true) (h : Der.Carries signature c d) :
    ∃ r s, (0 < r ∧ 0 < s) ∧ c = Der.content r ∧ d = Der.content s ∧ signature = Der.pair r s := by
  obtain ⟨bounds, r, s, pos, -, rfl⟩ := derShape_iff.mp shaped
  obtain ⟨first, second⟩ := Der.carries_inj h (Der.carries_pair (length_pair_short bounds.2))
  exact ⟨r, s, pos, first, second, rfl⟩

theorem positive_of_shape (shaped : derShape signature = true) (h : Der.Carries signature c d) :
    (0 < Der.signed c ∧ 0 < Der.signed d) ∧ ¬Der.Padded c ∧ ¬Der.Padded d := by
  obtain ⟨r, s, pos, rfl, rfl, -⟩ := carries_of_shape shaped h
  rw [Der.signed_content, Der.signed_content]
  exact ⟨⟨Int.natCast_pos.mpr pos.1, Int.natCast_pos.mpr pos.2⟩, Der.not_padded (Der.minimal_content r),
    Der.not_padded (Der.minimal_content s)⟩

private theorem shape_unique (shaped : derShape signature = true) (shaped' : derShape signature' = true)
    (h : Der.Carries signature c d) (h' : Der.Carries signature' c' d')
    (first : Der.signed c = Der.signed c') (second : Der.signed d = Der.signed d') :
    signature = signature' := by
  obtain ⟨r, s, -, rfl, rfl, rfl⟩ := carries_of_shape shaped h
  obtain ⟨r', s', -, rfl, rfl, rfl⟩ := carries_of_shape shaped' h'
  rw [Der.signed_content, Der.signed_content, Int.natCast_inj] at first second
  rw [first, second]

private theorem carries_shape (shaped : derShape signature = true) : ∃ c d, Der.Carries signature c d := by
  obtain ⟨bounds, r, s, -, -, rfl⟩ := derShape_iff.mp shaped
  exact ⟨_, _, Der.carries_pair (length_pair_short bounds.2)⟩

end Signatures

/-- Each of the four codecs is exact, and the signatures of the third have one form each. -/
theorem cold_codecs_exact :
    Exact (fun _ => True) (fun r => Nand.ColdStore.shape r = true) id Nand.ColdStore.encode
        Nand.ColdStore.decode ∧
      Exact (fun _ => True) (fun f => ColdEvidence.shape f = true) id ColdEvidence.encode
        ColdEvidence.decode ∧
      (∀ e n, Exact (fun v => v = viewOf e v.pairRaw v.signature)
        (fun v => Encodes e v.pairRaw v.signature n) used
        (fun v => (ColdProof.encode e v.pairRaw v.signature n).toOption)
        (fun w => (ColdProof.decode w.1.toList w.2 e).toOption)) ∧
      (∀ e d, Exact ColdCapsule.InWords
        (fun r => ColdCapsule.canonical r = true ∧ validBinding e = true ∧ r.binding = e ∧ nonzero d = true)
        id (fun r => ColdCapsule.encode r e d) (fun s => ColdCapsule.decode s e d)) ∧
      (∀ signature, derShape signature = true → ∃ c d, Der.Carries signature c d) ∧
      (∀ signature c d, derShape signature = true → Der.Carries signature c d →
        (0 < Der.signed c ∧ 0 < Der.signed d) ∧ ¬Der.Padded c ∧ ¬Der.Padded d) ∧
      ∀ signature signature' c d c' d', derShape signature = true → derShape signature' = true →
        Der.Carries signature c d → Der.Carries signature' c' d' →
          Der.signed c = Der.signed c' → Der.signed d = Der.signed d' → signature = signature' := by
  refine ⟨?_, ?_, proof_exact, ?_, fun _ => carries_shape, fun _ _ _ => positive_of_shape,
    fun _ _ _ _ _ _ => shape_unique⟩
  · apply exact_of_iff
    · intro r _
      constructor
      · intro shaped
        exact ⟨_, Nand.ColdStore.encode_eq shaped⟩
      · rintro ⟨p, made⟩
        by_contra other
        rw [Nand.ColdStore.encode, if_neg other] at made
        cases made
    · exact fun r p _ => Nand.ColdStore.decode_encode
    · exact fun p r read => ⟨trivial, Nand.ColdStore.encode_decode read⟩
  · apply exact_of_iff
    · intro f _
      constructor
      · intro shaped
        exact ⟨_, ColdEvidence.encode_eq shaped⟩
      · rintro ⟨w, made⟩
        by_contra other
        rw [ColdEvidence.encode, if_neg other] at made
        cases made
    · exact fun f w _ => ColdEvidence.decode_encode
    · exact fun w f read => ⟨trivial, ColdEvidence.encode_decode read⟩
  · intro e d
    apply exact_of_iff
    · exact fun r words => ColdCapsule.encode_iff words
    · exact fun r s words => ColdCapsule.decode_encode words
    · exact fun s r => ColdCapsule.encode_decode

end Mosaico.Gauge.ColdCodecs
