import Mosaico.Ota.DeltaDecoderModel

/-! What the decoder guarantees whatever the codec asks and whatever outside fails: reads are those of the running
image, the target is delivered in order, and success means all of the right target. -/
namespace Mosaico.Ota.DeltaDecoder

open Interaction ListWindow

/-- A chunk given to `writeChunk`, and whether it was taken. -/
structure Delivery where
  offset : Nat
  data : List UInt8
  taken : Bool
  deriving DecidableEq

def Delivery.gain (c : Delivery) : List UInt8 := if c.taken then c.data else []

def delivered (sink : List Delivery) : List UInt8 := sink.flatMap Delivery.gain

/-- What outside remembers: the input of the running hash while it is known, the chunks and the reads. -/
structure World where
  hash : Option (List UInt8) := none
  sink : List Delivery := []
  reads : List Returned := []

/-- The documented behaviour of what the decoder calls. A failure may leave anything in a buffer. -/
def contract (image : List UInt8) : Behaviour Call Answer World
  | .partitionRead offset length, w, answer, w' =>
    (answer.1 = true → offset + length ≤ image.length ∧ answer.2.take length = window image offset length) ∧ w' = w
  | .writeChunk offset data, w, taken, w' => w' = { w with sink := w.sink ++ [⟨offset, data, taken⟩] }
  | .hashSetup, w, ok, w' => w' = { w with hash := if ok then some [] else none }
  | .hashUpdate data, w, ok, w' => w' = { w with hash := if ok then w.hash.map (· ++ data) else none }
  | .hashFinish, w, answer, w' =>
    (∀ digest length message, answer = some (digest, length) → w.hash = some message →
      digest = Sha256.sha256 message) ∧ w' = { w with hash := none }
  | .hashAbort, w, _, w' => w' = { w with hash := none }
  | .hashCompute data, w, answer, w' =>
    (∀ digest length, answer = some (digest, length) → digest = Sha256.sha256 data) ∧ w' = w
  | .readReturned r, w, _, w' => w' = { w with reads := w.reads ++ [r] }
  | _, w, _, w' => w' = w

/-- Each chunk starts where those taken before it end, and is of at most 4096 bytes. -/
def Contiguous : Nat → List Delivery → Prop
  | _, [] => True
  | place, c :: rest =>
    c.offset = place ∧ 0 < c.data.length ∧ c.data.length ≤ 4096 ∧ Contiguous (place + c.gain.length) rest

/-- A successful read has given what a direct read of the running image gives, and a failed one a beginning of it. -/
structure ReadRight (image : List UInt8) (r : Returned) : Prop where
  bytes : r.status = espOk → 0 ≤ r.offset ∧ r.offset.toNat + r.size ≤ image.length ∧
    r.data = window image r.offset.toNat r.size
  direct : r.status = espOk → ∀ buffer w result w',
    (readRunningImage r.offset.toNat buffer r.size).Ends (contract image) w (true, result) w' →
      result.take r.size = r.data
  beginning : r.data <+: window image r.offset.toNat r.size

structure Sound (image : List UInt8) (w : World) : Prop where
  reads : ∀ r ∈ w.reads, ReadRight image r
  chunks : Contiguous 0 w.sink

section Chunks

variable {sink : List Delivery} {c : Delivery} {place : Nat}

end Chunks

variable {image : List UInt8} {w : World} {d : Decoder} {inv : World → Prop}

section Calls

end Calls

section Reading

/-- Where the copying starts, how much of it is done, and what it has given. -/
structure Copied (image : List UInt8) (start : Nat) (data : List UInt8) (wanted : Nat) : Prop where
  bytes : data = window image start data.length
  inside : data ≠ [] → start + data.length ≤ image.length
  few : data.length ≤ wanted

end Reading

section Writing

variable {rest : List UInt8}

end Writing

section Callbacks

variable {c : Context}

end Callbacks

section Reconstruction

variable {target : Image}

/-- What success means: all of the target has been delivered, and it is the right one. -/
def Complete (target : Image) (w : World) : Prop :=
  (delivered w.sink).length = target.size.toNat ∧ Sha256.sha256 (delivered w.sink) = target.hash

end Reconstruction

end Mosaico.Ota.DeltaDecoder
