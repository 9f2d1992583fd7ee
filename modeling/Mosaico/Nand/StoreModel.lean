import Mosaico.Library.ByteFields
import Mosaico.Library.PageDevice

/-! `mosaico_nand_store_model.h`: two marker pages and two payload slots. The
driver object of the template is the page device; `Scratch` has no counterpart,
since pages and payloads are values here. -/
namespace Mosaico.Nand.StoreModel

open ByteFields PageDevice

abbrev pageSize : Nat := 2048
abbrev payloadSize : Nat := 3108
abbrev slotCount : Nat := 2
abbrev requiredPages : Nat := 8
abbrev crcOffset : Nat := pageSize - 4
abbrev maxGeneration : Nat := 2 ^ 64 - 1

abbrev Page := Bytes pageSize
abbrev Payload := Bytes payloadSize

inductive Code where
  | ok | notFormatted | empty | corrupt | io | generationExhausted | verify
  deriving DecidableEq, Repr

inductive Stage where
  | marker | commitRead | payloadRead | payloadWrite | payloadSync | payloadVerify
  | commitWrite | commitSync | commitVerify | formatWrite | formatSync | formatVerify
  deriving DecidableEq, Repr

/-- `slot` is the `int slot`, with `none` for -1. -/
structure Result where
  code : Code := .ok
  stage : Stage := .marker
  generation : Nat := 0
  slot : Option (Fin 2) := none
  markerCopies : Nat := 0
  deriving DecidableEq, Repr

structure Slot where
  valid : Bool := false
  generation : Nat := 0
  payloadCrc : Nat := 0
  deriving DecidableEq, Repr

abbrev markerMagic : Nat := 0x31534e4d
abbrev commitMagic : Nat := 0x3154434d

def blank (p : Page) : Bool := p.all fun v => v == 255

def marker : Page :=
  closeCrc (put (put (put (put (put (put (zero pageSize) 0 markerMagic 4) 4 1 2) 6 pageSize 2)
    8 payloadSize 2) 10 slotCount 2) 12 requiredPages 4) crcOffset

def validMarker (p : Page) : Bool :=
  get p 0 4 == markerMagic && get p 4 2 == 1 && get p 6 2 == pageSize &&
    get p 8 2 == payloadSize && get p 10 2 == slotCount && get p 12 4 == requiredPages &&
    crcMatches p crcOffset && zeros p 16 crcOffset

instance twoSlots : NeZero 2 := ⟨by decide⟩

def base (slot : Fin 2) : Nat := 2 + slot.val * 3

def commit (slot : Fin 2) (generation payloadCrc : Nat) : Page :=
  closeCrc (put (put (put (put (put (put (zero pageSize) 0 commitMagic 4) 4 1 2) 6 payloadSize 2)
    8 generation 8) 16 payloadCrc 4) 20 slot.val 4) crcOffset

def parseCommit (p : Page) (slot : Fin 2) : Slot :=
  if get p 0 4 == commitMagic && get p 4 2 == 1 && get p 6 2 == payloadSize &&
      get p 8 8 != 0 && get p 20 4 == slot.val && crcMatches p crcOffset &&
      zeros p 24 crcOffset then
    { valid := true, generation := get p 8 8, payloadCrc := get p 16 4 }
  else {}

/-- One turn of the payload loop: the half's bytes, or nothing when a byte past
the payload's end is set. -/
def takeHalf (payload : Payload) (half : Nat) (page : Page) : Option Payload :=
  if zeros page (payloadSize - half * pageSize) pageSize then
    some (ofFn payloadSize fun i =>
      if i / pageSize = half then byteAt page (i % pageSize) else byteAt payload i)
  else none

def payloadPage (input : Payload) (half : Nat) : Page :=
  ofFn pageSize fun i => byteAt input (half * pageSize + i)

variable {H : Type} {A : H → Type}

def readPayload (slot : Fin 2) (expectedCrc : Nat) :
    PageProg Page H A (Except Code Payload) := do
  let some page ← readPage (base slot) | return .error .io
  let some payload := takeHalf (zero payloadSize) 0 page | return .error .corrupt
  let some page ← readPage (base slot + 1) | return .error .io
  let some payload := takeHalf payload 1 page | return .error .corrupt
  if crc payload payloadSize = expectedCrc then return .ok payload else return .error .corrupt

structure MarkerScan where
  copies : Nat := 0
  nonblank : Bool := false

def scanMarker (copy : Nat) (seen : MarkerScan) : PageProg Page H A (Option MarkerScan) := do
  let some page ← readPage copy | return none
  if validMarker page then return some { seen with copies := seen.copies + 1 }
  else return some { seen with nonblank := seen.nonblank || !blank page }

/-- One turn of the slot loop; an `error` is the early return of `scan`. -/
def scanSlot (result : Result) (slot : Fin 2) (invalidCommit : Bool) :
    PageProg Page H A (Except Result (Result × Slot × Bool)) := do
  let result := { result with stage := .commitRead }
  let some page ← readPage (base slot + 2) | return .error { result with code := .io }
  let found := parseCommit page slot
  if found.valid = false then return .ok (result, found, invalidCommit || !blank page)
  let result := { result with stage := .payloadRead }
  match ← readPayload slot found.payloadCrc with
  | .error .io => return .error { result with code := .io }
  | .error _ => return .ok (result, { found with valid := false }, true)
  | .ok _ => return .ok (result, found, invalidCommit)

def choose (result : Result) (slot0 slot1 : Slot) (invalidCommit : Bool) : Result :=
  if !slot0.valid && !slot1.valid then
    { result with code := if invalidCommit then .corrupt else .empty }
  else if slot0.valid && slot1.valid && slot0.generation == slot1.generation then
    { result with code := .corrupt }
  else if !slot0.valid || (slot1.valid && slot1.generation > slot0.generation) then
    { result with slot := some 1, generation := slot1.generation, code := .ok }
  else
    { result with slot := some 0, generation := slot0.generation, code := .ok }

def scan : PageProg Page H A Result := do
  let some seen ← scanMarker 0 {} | return { code := .io }
  let some seen ← scanMarker 1 seen | return { code := .io, markerCopies := seen.copies }
  let result : Result := { markerCopies := seen.copies }
  if seen.copies = 0 then
    return { result with code := if seen.nonblank then .corrupt else .notFormatted }
  match ← scanSlot result 0 false with
  | .error early => return early
  | .ok (result, slot0, invalidCommit) =>
    match ← scanSlot result 1 invalidCommit with
    | .error early => return early
    | .ok (result, slot1, invalidCommit) => return choose result slot0 slot1 invalidCommit

/-- `out` is assigned only when the code is `ok`. -/
def load : PageProg Page H A (Result × Option Payload) := do
  let result ← scan
  if result.code ≠ .ok then return (result, none)
  let slot := result.slot.getD 0
  let result := { result with stage := .commitRead }
  let some page ← readPage (base slot + 2) | return ({ result with code := .io }, none)
  let info := parseCommit page slot
  if info.valid = false ∨ info.generation ≠ result.generation then
    return ({ result with code := .verify }, none)
  let result := { result with stage := .payloadRead }
  match ← readPayload slot info.payloadCrc with
  | .error code => return ({ result with code := code }, none)
  | .ok payload => return ({ result with code := .ok }, some payload)

/-- The second half of `save`: publish the payload that was just verified. -/
def publishCommit (result : Result) (slot : Fin 2) (generation : Nat) (input : Payload) :
    PageProg Page H A Result := do
  let expectedCrc := crc input payloadSize
  let page := commit slot generation expectedCrc
  let result := { result with code := .ok, stage := .commitWrite }
  if (← writePage (base slot + 2) page) = false then return { result with code := .io }
  let result := { result with stage := .commitSync }
  if (← sync) = false then return { result with code := .io }
  let result := { result with stage := .commitVerify }
  let some verify ← readPage (base slot + 2) | return { result with code := .io }
  if verify ≠ page then return { result with code := .verify }
  match ← readPayload slot expectedCrc with
  | .error code => return { result with code := code }
  | .ok payload =>
    if payload ≠ input then return { result with code := .verify }
    return { result with generation := generation, slot := some slot }

def save (input : Payload) : PageProg Page H A Result := do
  let result ← scan
  if result.code ≠ .ok ∧ result.code ≠ .empty then return result
  if result.generation = maxGeneration then return { result with code := .generationExhausted }
  let slot : Fin 2 := if result.slot = some 0 then 1 else 0
  let generation := result.generation + 1
  let result := { result with stage := .payloadWrite }
  if (← writePage (base slot) (payloadPage input 0)) = false then
    return { result with code := .io }
  if (← writePage (base slot + 1) (payloadPage input 1)) = false then
    return { result with code := .io }
  let result := { result with stage := .payloadSync }
  if (← sync) = false then return { result with code := .io }
  let result := { result with stage := .payloadVerify }
  match ← readPayload slot (crc input payloadSize) with
  | .error code => return { result with code := code }
  | .ok payload =>
    if payload ≠ input then return { result with code := .verify }
    publishCommit result slot generation input

def verifyMarker (result : Result) (copy : Nat) : PageProg Page H A (Except Result Result) := do
  let some verify ← readPage copy | return .error { result with code := .io }
  if verify ≠ marker then return .error { result with code := .verify }
  return .ok { result with markerCopies := result.markerCopies + 1 }

def writeFormatMarkers : PageProg Page H A Result := do
  let result : Result := { stage := .formatWrite }
  if (← writePage 0 marker) = false then return { result with code := .io }
  if (← writePage 1 marker) = false then return { result with code := .io }
  let result := { result with stage := .formatSync }
  if (← sync) = false then return { result with code := .io }
  let result := { result with stage := .formatVerify }
  match ← verifyMarker result 0 with
  | .error early => return early
  | .ok result =>
    match ← verifyMarker result 1 with
    | .error early => return early
    | .ok result => return result

end Mosaico.Nand.StoreModel
