import Mosaico.Gauge.FactoryJournal
import Mosaico.Gauge.ContrastJournal

/-! The codecs of the three journals are exact, and no blob is of two of them. -/
namespace Mosaico.Gauge

open ByteFields

section Exact

variable {R B : Type} {shape : R → Bool} {encode : R → Option B} {decode : B → Bytes 6 → Option R}
    {mac : R → Bytes 6}

/-- Every shaped record is encoded and comes back under its own address, what is decoded is what would be
encoded, and a blob is of one device. -/
structure ExactCodec (shape : R → Bool) (encode : R → Option B) (decode : B → Bytes 6 → Option R)
    (mac : R → Bytes 6) : Prop where
  decodes : ∀ r, shape r = true → ∃ b, encode r = some b ∧ decode b (mac r) = some r
  encodes : ∀ b m r, decode b m = some r → encode r = some b
  oneDevice : ∀ b m m' r r', decode b m = some r → decode b m' = some r' → m = m'

theorem exactCodec (encodable : ∀ r, shape r = true → ∃ b, encode r = some b)
    (inverse : ∀ b m r, decode b m = some r ↔ encode r = some b ∧ mac r = m) (place : B → Bytes 6)
    (device : ∀ b m r, decode b m = some r → place b = m) : ExactCodec shape encode decode mac where
  decodes r shaped := by
    obtain ⟨b, made⟩ := encodable r shaped
    exact ⟨b, made, (inverse b (mac r) r).mpr ⟨made, rfl⟩⟩
  encodes b m r decoded := ((inverse b m r).mp decoded).1
  oneDevice b m m' r r' decoded decoded' := (device b m r decoded).symm.trans (device b m' r' decoded')

end Exact

def Accepted {R : Type} {n : Nat} (decode : Bytes n → Bytes 6 → Option R) (bytes : List UInt8) : Prop :=
  ∃ b m r, b.toList = bytes ∧ decode b m = some r

private theorem not_both {R R' : Type} {n magic magic' : Nat} {decode : Bytes n → Bytes 6 → Option R}
    {decode' : Bytes n → Bytes 6 → Option R'} (tag : ∀ b m r, decode b m = some r → get b 0 4 = magic)
    (tag' : ∀ b m r, decode' b m = some r → get b 0 4 = magic') (apart : magic ≠ magic') (bytes : List UInt8) :
    ¬(Accepted decode bytes ∧ Accepted decode' bytes) := by
  rintro ⟨⟨b, m, r, whole, decoded⟩, ⟨b', m', r', whole', decoded'⟩⟩
  have same : b = b' := Vector.toList_inj.mp (whole.trans whole'.symm)
  subst same
  exact apart ((tag b m r decoded).symm.trans (tag' b m' r' decoded'))

private theorem not_both_sizes {R R' : Type} {n n' : Nat} {decode : Bytes n → Bytes 6 → Option R}
    {decode' : Bytes n' → Bytes 6 → Option R'} (apart : n ≠ n') (bytes : List UInt8) :
    ¬(Accepted decode bytes ∧ Accepted decode' bytes) := by
  rintro ⟨⟨b, m, r, whole, -⟩, ⟨b', m', r', whole', -⟩⟩
  apply apart
  rw [← b.length_toList, ← b'.length_toList, whole, whole']

/-- The journals' codecs are exact and disjoint. -/
theorem journal_codecs_exact :
    ExactCodec ScaleJournal.shape ScaleJournal.encode ScaleJournal.decode ScaleJournal.Record.mac ∧
      ExactCodec FactoryJournal.shape FactoryJournal.encode FactoryJournal.decode FactoryJournal.Record.mac ∧
      ExactCodec ContrastJournal.shape ContrastJournal.encode ContrastJournal.decode ContrastJournal.Record.mac ∧
      ∀ bytes, ¬(Accepted ScaleJournal.decode bytes ∧ Accepted FactoryJournal.decode bytes) ∧
        ¬(Accepted ScaleJournal.decode bytes ∧ Accepted ContrastJournal.decode bytes) ∧
        ¬(Accepted FactoryJournal.decode bytes ∧ Accepted ContrastJournal.decode bytes) := by
  refine ⟨?_, ?_, ?_, fun bytes => ⟨?_, not_both_sizes (by decide) bytes, not_both_sizes (by decide) bytes⟩⟩
  · exact exactCodec (fun r shaped => ⟨_, if_pos shaped⟩) (fun b m r => ScaleJournal.decode_eq_some_iff)
      (slice · 8 6 6)
      fun b m r decoded => (ScaleJournal.tags_of_decode decoded).2
  · refine exactCodec (fun r shaped => ?_) (fun b m r => FactoryJournal.decode_eq_some_iff) (slice · 8 6 6)
      fun b m r decoded => (FactoryJournal.tags_of_decode decoded).2
    obtain ⟨bytes, -, encoded⟩ := FactoryJournal.encode_isSome shaped
    exact ⟨_, encoded⟩
  · exact exactCodec (fun r shaped => ⟨_, if_pos shaped⟩) (fun b m r => ContrastJournal.decode_eq_some_iff)
      (slice · 8 6 6) fun b m r decoded => (ContrastJournal.tags_of_decode decoded).2
  · exact not_both (fun b m r decoded => (ScaleJournal.tags_of_decode decoded).1)
      (fun b m r decoded => (FactoryJournal.tags_of_decode decoded).1) (by decide) bytes

end Mosaico.Gauge
