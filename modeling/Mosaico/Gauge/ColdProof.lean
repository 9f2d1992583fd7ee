import Mosaico.Gauge.ColdCapsule
import Mosaico.Library.Sha256
import Mosaico.Library.WireLists

/-! `mosaico_gauge_cold_proof_model.h`: the payload of a cold session, a binding with the text of an
old pair and a signature. Spans are lists, so that none is null and none overlaps the output. -/
namespace Mosaico.Gauge.ColdProof

open ByteFields ColdTrial ColdCapsule WireLists

abbrev headerSize : Nat := 56
abbrev bindingSize : Nat := 188
abbrev payloadMax : Nat := 1536
abbrev pairRawMax : Nat := 1050
abbrev version : Nat := 1
abbrev magic : Nat := 0x31504347

def contractSha : Digest := #v[
  0xec, 0x39, 0xcc, 0x75, 0xa1, 0x80, 0x30, 0x90, 0x47, 0x71, 0xa3, 0xf4, 0xfd, 0xc4, 0x6c, 0x50,
  0xa9, 0x56, 0x4e, 0x92, 0x6f, 0x45, 0x0c, 0xdb, 0xc6, 0x67, 0x11, 0x59, 0x25, 0xdc, 0x0b, 0xa2]

def ascii (s : String) : List UInt8 := s.toList.map fun c => UInt8.ofNat c.toNat

def sessionDomain : List UInt8 := ascii "MOSAICO-GAUGE-COLD-CAP-v1\n"

structure View where
  totalSize : Nat
  bindingOffset : Nat
  pairOffset : Nat
  signatureOffset : Nat
  binding : List UInt8
  nonce : List UInt8
  pairRaw : List UInt8
  signature : List UInt8
  deriving DecidableEq

inductive Error where
  | bounds | header | reserved | binding | pair | der
  deriving DecidableEq, Repr

def uncheckedGet (bytes : List UInt8) (at_ n : Nat) : Nat := leValue ((bytes.drop at_).take n)

def productionBinding (b : Binding) : Bool :=
  b.recovery == .slotHashes && b.source == sourceCrc && b.target == targetCrc && validBinding b

def bindingHashInput (b : Binding) : Option (ByteFields.Bytes bindingSize) :=
  if productionBinding b then encodeBinding b else none

def pairShape (pair : List UInt8) : Bool :=
  !pair.isEmpty && decide (pair.length ≤ pairRawMax) && pair.all fun v => v != 0

/-- A positive integer of at most 33 bytes; what follows it is returned. -/
def derInteger : List UInt8 → Option (List UInt8)
  | tag :: size :: rest =>
    let count := size.toNat
    let first := rest.getD 0 0
    if tag ≠ 2 then none
    else if count = 0 ∨ 33 < count ∨ rest.length < count ∨ first &&& 0x80 ≠ 0 ∨
        (1 < count ∧ first = 0 ∧ rest.getD 1 0 &&& 0x80 = 0) then none
    else if !(rest.take count).any fun v => v != 0 then none
    else some (rest.drop count)
  | _ => none

def derShape (signature : List UInt8) : Bool :=
  if signature.length < 8 ∨ 72 < signature.length ∨ signature.getD 0 0 ≠ 0x30 ∨
      (signature.getD 1 0).toNat ≠ signature.length - 2 then false
  else match derInteger (signature.drop 2) with
    | some rest => derInteger rest == some []
    | none => false

/-- The first `used` bytes of an array. -/
def decode (payload : List UInt8) (used : Nat) (expected : Binding) : Except Error View :=
  let all := payload.take used
  let pairSize := uncheckedGet all 12 2
  let signatureSize := uncheckedGet all 14 2
  let pairOffset := headerSize + bindingSize
  let signatureOffset := pairOffset + pairSize
  let pair := (payload.drop pairOffset).take pairSize
  let signature := (payload.drop signatureOffset).take signatureSize
  if payload.length < used ∨ payloadMax < used ∨ used < headerSize + bindingSize + 1 + 8 then
    .error .bounds
  else if uncheckedGet all 0 4 ≠ magic ∨ uncheckedGet all 4 2 ≠ version ∨
      uncheckedGet all 6 2 ≠ headerSize ∨ uncheckedGet all 8 2 ≠ used ∨
      uncheckedGet all 10 2 ≠ bindingSize then
    .error .header
  else if (payload.drop 16).take 32 ≠ contractSha.toList then .error .header
  else if ((payload.drop 48).take 8).any fun v => v != 0 then .error .reserved
  else if pairSize = 0 ∨ pairRawMax < pairSize ∨ signatureSize < 8 ∨ 72 < signatureSize ∨
      used ≠ headerSize + bindingSize + pairSize + signatureSize then
    .error .bounds
  else match bindingHashInput expected with
    | none => .error .binding
    | some canonical =>
      if (payload.drop headerSize).take bindingSize ≠ canonical.toList then .error .binding
      else if !pairShape pair then .error .pair
      else if !derShape signature then .error .der
      else .ok {
        totalSize := used
        bindingOffset := headerSize
        pairOffset := pairOffset
        signatureOffset := signatureOffset
        binding := (payload.drop headerSize).take bindingSize
        nonce := (payload.drop (headerSize + 8 + 32)).take 16
        pairRaw := pair
        signature := signature }

def payloadSize (pair signature : List UInt8) : Nat :=
  headerSize + bindingSize + pair.length + signature.length

/-- An array of `n` bytes that is filled from its start. -/
def writePayload (n : Nat) (wire : ByteFields.Bytes bindingSize) (pair signature : List UInt8) :
    ByteFields.Bytes n :=
  let out := put (put (put (zero n) 0 magic 4) 4 version 2) 6 headerSize 2
  let out := put (put out 8 (payloadSize pair signature) 2) 10 bindingSize 2
  let out := put (put out 12 pair.length 2) 14 signature.length 2
  let out := blit (blit out 16 contractSha 32) headerSize wire bindingSize
  let out := paste out (headerSize + bindingSize) pair
  paste out (headerSize + bindingSize + pair.length) signature

/-- An array of `n` bytes and how many of them are used. -/
def encode (binding : Binding) (pair signature : List UInt8) (n : Nat) :
    Except Error (ByteFields.Bytes n × Nat) :=
  let total := payloadSize pair signature
  if !pairShape pair then .error .pair
  else if !derShape signature then .error .der
  else if n < total ∨ payloadMax < total then .error .bounds
  else match bindingHashInput binding with
    | none => .error .binding
    | some wire => .ok (writePayload n wire pair signature, total)

def sessionMessage (bindingSha pairSha : Digest) : Option (List UInt8) :=
  if !nonzero bindingSha ∨ !nonzero pairSha then none
  else some (sessionDomain ++ contractSha.toList ++ bindingSha.toList ++ pairSha.toList)

end Mosaico.Gauge.ColdProof
