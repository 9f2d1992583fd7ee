import Mosaico.Library.Interaction
import Mosaico.Library.ListWindow
import Mosaico.Library.Sha256
import Mathlib.Algebra.Group.Nat.Defs
import Mathlib.Algebra.Group.Int.Defs

/-! The decoder of `mosaico_delta.cpp` under the callbacks of `esp_delta_ota.c`. Everything outside the two files
answers a call. The codec is any program over the three callbacks. Yields, log lines and what is only displayed are
left out. -/
namespace Mosaico.Ota.DeltaDecoder

open Interaction ListWindow

abbrev Digest := Sha256.Digest

/-- What a read callback leaves behind when it returns to the codec. -/
structure Returned where
  status : Int
  offset : Int
  size : Nat
  data : List UInt8
  deriving DecidableEq

/-- What `readRunningImage` asks before it reads. -/
structure RunningImage where
  currentHashValid : Bool
  exactSlot : Bool
  currentImageSize : Nat

inductive Call where
  | timerGetTime
  | beginDisplayFlashWindow (deadline : Int)
  | endDisplayFlashWindow
  | runningImage
  | partitionRead (offset length : Nat)
  | writeChunk (offset : Nat) (data : List UInt8)
  | hashSetup
  | hashUpdate (data : List UInt8)
  | hashFinish
  | hashAbort
  | hashCompute (data : List UInt8)
  | allocatePage
  | readReturned (r : Returned)

/-- A read answers its status and the buffer as it is then; a hash its digest and the digest's length. -/
abbrev Answer : Call → Type
  | .timerGetTime => Int
  | .beginDisplayFlashWindow _ => Bool
  | .runningImage => RunningImage
  | .partitionRead .. => Bool × List UInt8
  | .writeChunk .. => Bool
  | .hashSetup => Bool
  | .hashUpdate _ => Bool
  | .hashFinish => Option (Digest × Nat)
  | .hashCompute _ => Option (Digest × Nat)
  | .allocatePage => Option (List UInt8)
  | _ => Unit

abbrev Outside (α : Type) := Prog Call Answer α

def perform (c : Call) : Outside (Answer c) := Prog.perform c

def espOk : Int := 0
def espFail : Int := -1
def espErrInvalidArg : Int := 0x102
def intMax : Int := 2 ^ 31 - 1

/-- `chunk` holds the first `buffered` bytes; `sourcePage` is absent where its allocation failed. -/
structure Decoder where
  baseSize : Nat
  targetSize : Nat
  sourcePage : Option (List UInt8)
  deadline : Int
  chunk : List UInt8 := []
  produced : Nat := 0
  written : Nat := 0
  sourcePageOffset : Nat := 0
  sourcePageLength : Nat := 0
  cancelled : Bool := false

/-- `mosaico_ota.cpp`: the running image, read into a buffer. -/
def readRunningImage (offset : Nat) (buffer : List UInt8) (length : Nat) : Outside (Bool × List UInt8) := do
  let running ← perform .runningImage
  if !running.currentHashValid || length = 0 || !running.exactSlot || running.currentImageSize < offset ||
      running.currentImageSize - offset < length then
    return (false, buffer)
  perform (.partitionRead offset length)

/-- `DisplayFlashWindow`: what was begun is ended when the scope is left. -/
def withDisplayFlashWindow {α : Type} (deadline : Int) (body : Bool → Outside α) : Outside α := do
  let held ← perform (.beginDisplayFlashWindow deadline)
  let result ← body held
  if held then perform .endDisplayFlashWindow
  return result

namespace Decoder

def fail (d : Decoder) : Decoder := { d with cancelled := true }

def expired (d : Decoder) : Outside Bool := do
  if d.cancelled then return true
  let now ← perform .timerGetTime
  return decide (d.deadline ≤ now)

/-- One flash operation under the display window; none where it was not even begun. -/
def flashOperation {α : Type} (d : Decoder) (operation : Outside α) : Outside (Option α) :=
  withDisplayFlashWindow d.deadline fun held => do
    if !held then return none
    let late ← d.expired
    if late then return none
    let result ← operation
    return some result

def flush (d : Decoder) : Outside (Bool × Decoder) := do
  let late ← d.expired
  if late then return (false, d)
  if d.chunk = [] then return (true, d)
  let ok ← d.flashOperation (perform (.writeChunk d.written d.chunk))
  if ok ≠ some true then return (false, d.fail)
  return (true, { d with written := (d.written + d.chunk.length) % 2 ^ 32, chunk := [] })

/-- The page an offset lies in, read again unless it is the one that is held. -/
def loadPage (d : Decoder) (page : List UInt8) (offset : Nat) : Outside (Bool × Decoder) := do
  let pageOffset := offset / 4096 * 4096
  if d.sourcePageLength ≠ 0 ∧ d.sourcePageOffset = pageOffset then return (true, d)
  -- A failed or replaced page can never serve a hit.
  let d := { d with sourcePageLength := 0 }
  let pageLength := min 4096 (d.baseSize - pageOffset)
  let read ← d.flashOperation (readRunningImage pageOffset page pageLength)
  match read with
  | none => return (false, d)
  | some (false, buffer) => return (false, { d with sourcePage := some buffer })
  | some (true, buffer) =>
    return (true,
      { d with sourcePage := some buffer, sourcePageOffset := pageOffset, sourcePageLength := pageLength })

/-- The loop of `read`. A turn copies at least one byte, so `length` turns are enough. -/
def readPages : Nat → Nat → Nat → List UInt8 → Decoder → Outside ((Int × List UInt8) × Decoder)
  | 0, _, _, data, d => return ((espOk, data), d)
  | fuel + 1, length, offset, data, d => do
    if length = 0 then return ((espOk, data), d)
    let late ← d.expired
    match d.sourcePage with
    | none => return ((espFail, data), d.fail)
    | some page =>
      if late then return ((espFail, data), d.fail)
      let (found, d) ← d.loadPage page offset
      if !found then return ((espFail, data), d.fail)
      let late ← d.expired
      if late then return ((espFail, data), d.fail)
      let inPage := offset - d.sourcePageOffset
      if d.sourcePageLength ≤ inPage then return ((espFail, data), d.fail)
      let count := min length (d.sourcePageLength - inPage)
      let copied := ((d.sourcePage.getD []).drop inPage).take count
      readPages fuel (length - count) (offset + count) (data ++ copied) d

/-- The status and the bytes copied to the codec's buffer, which is null where there is none. -/
def read (d : Decoder) (buffer : Bool) (length : Nat) (offset : Int) : Outside ((Int × List UInt8) × Decoder) := do
  let late ← d.expired
  -- Bound the vendor signed offset advance before splitting flash reads.
  if late || !buffer || offset < 0 || length = 0 || (d.baseSize : Int) < offset ||
      (d.baseSize : Int) - offset < length || intMax - offset < length then
    return ((espFail, []), d.fail)
  readPages length length offset.toNat [] d

/-- The loop of `write`. -/
def bufferBytes : Nat → List UInt8 → Decoder → Outside (Int × Decoder)
  | 0, _, d => return (espOk, d)
  | fuel + 1, data, d => do
    if data = [] then return (espOk, d)
    let count := min (4096 - d.chunk.length) data.length
    let d := { d with chunk := d.chunk ++ data.take count }
    if d.chunk.length = 4096 then
      let (flushed, d) ← d.flush
      if !flushed then return (espFail, d.fail)
      bufferBytes fuel (data.drop count) d
    else bufferBytes fuel (data.drop count) d

def write (d : Decoder) (length : Nat) (data : Option (Vector UInt8 length)) : Outside (Int × Decoder) := do
  let late ← d.expired
  match data with
  | none => return (espFail, d.fail)
  | some data =>
    if late || length = 0 || d.targetSize < d.produced || d.targetSize - d.produced < length then
      return (espFail, d.fail)
    let hashed ← perform (.hashUpdate data.toList)
    if !hashed then return (espFail, d.fail)
    bufferBytes length data.toList { d with produced := (d.produced + length) % 2 ^ 32 }

end Decoder

/-- What the codec may ask; a null pointer is an absent buffer. -/
inductive CodecCall where
  | read (buffer : Bool) (size : Nat)
  | seek (offset : Int)
  | write (size : Nat) (data : Option (Vector UInt8 size))

abbrev CodecAnswer : CodecCall → Type
  | .read .. => Int × List UInt8
  | .seek _ => Int
  | .write .. => Int

/-- `esp_delta_ota_ctx` with its user data. -/
structure Context where
  decoder : Decoder
  srcOffset : Int := 0

def readCallback (c : Context) (buffer : Bool) (size : Nat) : Outside ((Int × List UInt8) × Context) := do
  if size = 0 then return ((-espErrInvalidArg, []), c)
  if c.srcOffset < 0 ∨ intMax < size then return ((-espErrInvalidArg, []), c)
  let nextOffset := c.srcOffset + size
  if intMax < nextOffset then return ((-espErrInvalidArg, []), c)
  let ((err, data), d) ← c.decoder.read buffer size c.srcOffset
  if err ≠ espOk then return ((espFail, data), { c with decoder := d })
  return ((espOk, data), { decoder := d, srcOffset := nextOffset })

def seekCallback (c : Context) (offset : Int) : Outside (Int × Context) := do
  let nextOffset := c.srcOffset + offset
  if c.srcOffset < 0 ∨ nextOffset < 0 ∨ intMax < nextOffset then return (-espErrInvalidArg, c)
  return (espOk, { c with srcOffset := nextOffset })

def writeCallback (c : Context) (size : Nat) (data : Option (Vector UInt8 size)) : Outside (Int × Context) := do
  if size = 0 then return (espErrInvalidArg, c)
  let (err, d) ← c.decoder.write size data
  if err ≠ espOk then return (espFail, { c with decoder := d })
  return (espOk, { c with decoder := d })

def callback : (ask : CodecCall) → Context → Outside (CodecAnswer ask × Context)
  | .read buffer size, c => do
    let ((status, data), next) ← readCallback c buffer size
    perform (.readReturned ⟨status, c.srcOffset, size, data⟩)
    return ((status, data), next)
  | .seek offset, c => seekCallback c offset
  | .write size data, c => writeCallback c size data

/-- The patch codec: a state, and for each call of its interface a program over the callbacks. -/
structure Codec where
  State : Type
  init : Option State
  feedPatch : State → List UInt8 → Prog CodecCall CodecAnswer (Bool × State)
  finalize : State → Prog CodecCall CodecAnswer Bool

/-- `VerifiedImageDescriptor`. -/
structure Image where
  size : UInt32
  hash : Digest

structure Plan where
  size : Nat
  hash : Digest

def maxPatchSize : Nat := 2 * 1024 * 1024

/-- The feeding loop, 256 bytes of the patch at a time. -/
def feed (codec : Codec) (patch : List UInt8) (size : Nat) (deadlineUs : Int) :
    Nat → Nat → codec.State → Context → Outside ((Bool × codec.State) × Context)
  | 0, _, state, c => return ((true, state), c)
  | fuel + 1, offset, state, c => do
    if size ≤ offset then return ((true, state), c)
    let count := min 256 (size - offset)
    let now ← perform .timerGetTime
    if deadlineUs ≤ now then return ((false, state), c)
    let ((ok, state), c) ← (codec.feedPatch state (window patch offset count)).handle callback c
    if !ok then return ((false, state), c)
    feed codec patch size deadlineUs fuel (offset + count) state c

/-- After the last piece: the tail is flushed, and all of the target has to be written. -/
def settle (ok : Bool) (target : Image) (d : Decoder) : Outside Bool := do
  if !ok || d.produced ≠ target.size.toNat then return false
  let (flushed, d) ← d.flush
  return flushed && d.written == target.size.toNat

def checkTargetHash (ok : Bool) (target : Image) : Outside Bool := do
  if !ok then return false
  let finished ← perform .hashFinish
  match finished with
  | none => return false
  | some (digest, length) => return decide (length = 32 ∧ digest = target.hash)

/-- `reconstruct`, from where the codec is made. -/
def decode (codec : Codec) (patch : List UInt8) (plan : Plan) (target : Image) (deadlineUs : Int) (d : Decoder) :
    Outside Bool := do
  match codec.init with
  | none =>
    perform .hashAbort
    return false
  | some state =>
    let ((ok, state), c) ← feed codec patch plan.size deadlineUs plan.size 0 state { decoder := d }
    -- Finalize must destroy the reader even on a failure.
    let c := if ok then c else { c with decoder := c.decoder.fail }
    let (finalized, c) ← (codec.finalize state).handle callback c
    let ok ← settle (ok && finalized) target c.decoder
    let ok ← checkTargetHash ok target
    perform .hashAbort
    return ok

end Mosaico.Ota.DeltaDecoder
