import Mosaico.Library.FifoCache
import Mosaico.Library.Interleaving

/-! `tools/ota_delta.py`: delta plans made on request, and the two patches that are
kept for them. A hexadecimal digest is a value of `Sha`; `hash` is SHA-256. -/
namespace Mosaico.Ota

open Interaction Interleaving

def algorithm : String := "detools-heatshrink-v1"

def maxPatchSize : Nat := 2 * 1024 * 1024

/-- What the codec does with the stream it was given. -/
inductive StreamCall where
  | write (data : List UInt8)
  | seek (place : Nat)

structure BoundedBuffer where
  limit : Nat
  value : List UInt8 := []
  tell : Nat := 0

namespace BoundedBuffer

/-- `BytesIO.write`: a gap before the place is filled with zeros. -/
def store (b : BoundedBuffer) (data : List UInt8) : BoundedBuffer :=
  if data = [] then b
  else
    { b with
      value := (b.value ++ List.replicate (b.tell - b.value.length) 0).take b.tell ++ data ++
        b.value.drop (b.tell + data.length)
      tell := b.tell + data.length }

def call (b : BoundedBuffer) : StreamCall → Option BoundedBuffer
  | .write data => if b.limit < b.tell + data.length then none else some (b.store data)
  | .seek place => some { b with tell := place }

def collect (limit : Nat) (calls : List StreamCall) : Option (List UInt8) :=
  (calls.foldlM call { limit }).map value

end BoundedBuffer

section Patch

-- `detools.apply_patch`, as the calls it makes on the output; none if it raises.
variable (apply : List UInt8 → List UInt8 → Option (List StreamCall))

def replay (base patch : List UInt8) (limit : Nat) : Option (List UInt8) :=
  (apply base patch).bind (BoundedBuffer.collect limit)

/-- `created` is what `detools.create_patch` did this time; none if it raised or is not installed. -/
def createVerifiedPatch (created : Option (List StreamCall)) (base target : List UInt8) :
    Option (List UInt8) := do
  let patch ← BoundedBuffer.collect maxPatchSize (← created)
  let replayed ← replay apply base patch target.length
  if replayed ≠ target then none else some patch

end Patch

structure Metadata (Sha : Type) where
  algorithm : String
  baseSha : Sha
  baseSize : Nat
  targetSha : Sha
  targetSize : Nat
  sha : Sha
  size : Nat
deriving DecidableEq

inductive Reason where
  | disabled
  | sameImage
  | busy
  | unknownBase
  | invalidBase
  | codecUnavailable
  | notBeneficial
deriving DecidableEq

inductive Plan (Sha : Type) where
  | full (targetSha : Sha) (reason : Reason)
  | delta (metadata : Metadata Sha)
deriving DecidableEq

/-- The release that a store serves; its digest has been checked when it was loaded. -/
structure DeltaStore (Sha : Type) (hash : List UInt8 → Sha) where
  target : List UInt8
  sha : Sha
  sha_eq : sha = hash target
  capacity : Nat
  enabled : Bool
  baseDir : Option String
  maxPercent : Nat
  percent : 10 ≤ maxPercent ∧ maxPercent ≤ 90
  apply : List UInt8 → List UInt8 → Option (List StreamCall)

namespace DeltaStore

inductive Op (Sha : Type) where
  | lookup (base : Sha)
  | acquire
  | resolve (dir : String) (base : Sha)
  | read (dir : String) (base : Sha) (limit : Nat)
  | createPatch (base target : List UInt8)
  | keep (metadata : Metadata Sha) (patch : List UInt8)
  | release
  | fetch (sha : Sha)
  | answer (base : Sha) (plan : Plan Sha)

/-- `resolve` tells whether the path is no link and lies in the directory itself. -/
def Result {Sha : Type} : Op Sha → Type
  | .lookup _ => Option (Metadata Sha)
  | .acquire => Bool
  | .resolve .. => Option Bool
  | .read .. => Option (List UInt8)
  | .createPatch .. => Option (List StreamCall)
  | .keep .. => Unit
  | .release => Unit
  | .fetch _ => Option (List UInt8)
  | .answer .. => Unit

abbrev StoreProg (Sha : Type) := Prog (Op Sha) Result

def perform {Sha : Type} (op : Op Sha) : StoreProg Sha (Result op) := Prog.perform op

variable {T Sha : Type} [DecidableEq Sha] {hash : List UInt8 → Sha} (d : DeltaStore Sha hash)

def full (reason : Reason) : Plan Sha := .full d.sha reason

def describe (base : Sha) (content patch : List UInt8) : Metadata Sha :=
  { algorithm := algorithm, baseSha := base, baseSize := content.length, targetSha := d.sha,
    targetSize := d.target.length, sha := hash patch, size := patch.length }

/-- The part of `plan` after the base has been read. -/
def makePatch (base : Sha) (content : List UInt8) : StoreProg Sha (Plan Sha) := do
  if content.length = 0 ∨ d.capacity < content.length ∨ hash content ≠ base then
    return d.full .invalidBase
  else
    match createVerifiedPatch d.apply (← perform (.createPatch content d.target)) content d.target with
    | none => return d.full .codecUnavailable
    | some patch =>
      if patch.length = 0 ∨ maxPatchSize < patch.length ∨
          d.target.length * d.maxPercent ≤ patch.length * 100 then
        return d.full .notBeneficial
      else
        perform (.keep (d.describe base content patch) patch)
        return .delta (d.describe base content patch)

/-- What `plan` does under the generation lock; none if the path could not be resolved. -/
def generate (base : Sha) : StoreProg Sha (Option (Plan Sha)) := do
  match d.baseDir with
  | none => return some (d.full .unknownBase)
  | some dir =>
    match ← perform (.resolve dir base) with
    | none => return none
    | some false => return some (d.full .unknownBase)
    | some true =>
      match ← perform (.read dir base (d.capacity + 1)) with
      | none => return some (d.full .unknownBase)
      | some content => return some (← d.makePatch base content)

def plan (base : Sha) : StoreProg Sha (Option (Plan Sha)) := do
  if d.enabled = false then
    return some (d.full .disabled)
  else if base = d.sha then
    return some (d.full .sameImage)
  else
    match ← perform (.lookup base) with
    | some metadata => return some (.delta metadata)
    | none =>
      match ← perform .acquire with
      | false => return some (d.full .busy)
      | true =>
        let result ← d.generate base
        perform .release
        return result

/-- None is the `LookupError`. -/
def image (sha : Sha) : StoreProg Sha (Option (List UInt8)) := perform (.fetch sha)

inductive Request (Sha : Type) where
  | plan (base : Sha)
  | image (sha : Sha)

def serve : Request Sha → StoreProg Sha Unit
  | .plan base => do
    match ← d.plan base with
    | none => return ()
    | some plan => perform (.answer base plan)
  | .image sha => do
    let _ ← image sha

/-- What the threads did, as far as the promises of the store speak of it. `fresh` tells that
the patch's digest was not a key of the cache; `imaged` is where the cache was consulted. -/
inductive Event (T Sha : Type) where
  | refused (t : T)
  | began (t : T)
  | archived (t : T) (base : Sha) (content : List UInt8)
  | generated (t : T) (metadata : Metadata Sha) (patch : List UInt8) (fresh : Bool)
  | ended (t : T)
  | planned (t : T) (base : Sha) (plan : Plan Sha)
  | imaged (t : T) (sha : Sha) (patch : Option (List UInt8))
deriving DecidableEq

structure Shared (T Sha : Type) where
  generating : Option T := none
  cache : List (Sha × Metadata Sha × List UInt8) := []
  history : List (Event T Sha) := []

def Shared.note (s : Shared T Sha) (e : Event T Sha) : Shared T Sha := { s with history := e :: s.history }

/-- Every section under the cache lock is one step; files and the codec may answer anything. -/
def respond (t : T) : Behaviour (Op Sha) Result (Shared T Sha)
  | .lookup base, s, r, s' =>
    r = (s.cache.find? (·.2.1.baseSha = base)).map (·.2.1) ∧ s' = s
  | .acquire, s, ok, s' =>
    (ok = true ∧ s.generating = none ∧ s' = { s with generating := some t }.note (.began t)) ∨
      (ok = false ∧ s.generating ≠ none ∧ s' = s.note (.refused t))
  | .resolve .., s, _, s' => s' = s
  | .read _ base limit, s, r, s' =>
    (r = none ∧ s' = s) ∨
      ∃ content, r = some (content.take limit) ∧ s' = s.note (.archived t base content)
  | .createPatch .., s, _, s' => s' = s
  | .keep metadata patch, s, _, s' =>
    s' = { s with cache := FifoCache.insert 2 metadata.sha (metadata, patch) s.cache }.note
      (.generated t metadata patch (metadata.sha ∉ FifoCache.keys s.cache))
  | .release, s, _, s' => s' = { s with generating := none }.note (.ended t)
  | .fetch sha, s, r, s' =>
    r = (FifoCache.get sha s.cache).map Prod.snd ∧ s' = s.note (.imaged t sha r)
  | .answer base plan, s, _, s' => s' = s.note (.planned t base plan)

def system (T : Type) : System (Op Sha) Result (Shared T Sha) T where
  answers := respond
  starts _ p := ∃ q, p = d.serve q

end DeltaStore

end Mosaico.Ota
