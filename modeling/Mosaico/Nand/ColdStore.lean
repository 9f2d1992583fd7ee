import Mosaico.Nand.StoreModel

/-! `mosaico_gauge_cold_store_model.h`: a record in one of two pages; every save
goes to the page the newest record does not occupy. -/
namespace Mosaico.Nand.ColdStore

open ByteFields PageDevice StoreModel

abbrev pageBase : Nat := 8
abbrev magic : Nat := 0x31444347
abbrev payloadMax : Nat := 1536
abbrev payloadOffset : Nat := 80
abbrev maxSequence : Nat := 2 ^ 64 - 1

structure Record where
  sequence : UInt64
  phase : UInt8
  nonce : Bytes 16
  binding : Bytes 32
  size : UInt16
  payload : Bytes payloadMax
  deriving DecidableEq

inductive Code where
  | empty | ready | notFormatted | io | corrupt | ambiguous | rejected | verify
  deriving DecidableEq, Repr

/-- The reviewed protocol policy; its callbacks are pure. -/
structure Policy where
  valid : Record → Bool
  initial : Record → Bool
  transition : Record → Record → Bool

/-- `selected` of the source with the record it points at in the scratch. -/
structure Loaded where
  code : Code := .empty
  selected : Option (Fin 2 × Record) := none

def sameBinding (a b : Record) : Bool := a.nonce == b.nonce && a.binding == b.binding

def shape (r : Record) : Bool :=
  r.sequence != 0 && r.phase != 0 && anyNonzero r.nonce && anyNonzero r.binding &&
    decide (r.size.toNat ≤ payloadMax) && zeros r.payload r.size.toNat payloadMax

def encode (r : Record) : Option Page :=
  if shape r then
    let p := put (put (put (zero pageSize) 0 magic 4) 4 1 2) 6 payloadOffset 2
    let p := put (put p 8 r.sequence.toNat 8) 16 r.phase.toNat 1
    let p := blit (blit p 24 r.nonce 16) 40 r.binding 32
    let p := put p 72 r.size.toNat 2
    some (closeCrc (blit p payloadOffset r.payload r.size.toNat) crcOffset)
  else none

def decode (p : Page) : Option Record :=
  let size := get p 72 2
  if get p 0 4 = magic ∧ get p 4 2 = 1 ∧ get p 6 2 = payloadOffset ∧ size ≤ payloadMax ∧
      crcMatches p crcOffset ∧ zeros p 17 24 ∧ zeros p 74 payloadOffset ∧
      zeros p (payloadOffset + size) crcOffset then
    let r : Record :=
      { sequence := .ofNat (get p 8 8)
        phase := byteAt p 16
        nonce := slice p 24 16 16
        binding := slice p 40 32 32
        size := .ofNat size
        payload := slice p payloadOffset size payloadMax }
    if shape r then some r else none
  else none

/-- One turn of the marker loop on the page read; unlike the trace store's scan,
a page that is neither a marker nor blank ends the load here. -/
def markerIn (page : Page) (marker : Bool) : Except Code Bool :=
  if validMarker page then .ok true else if !blank page then .error .corrupt else .ok marker

def recordIn (policy : Policy) (page : Page) : Except Code (Option Record) :=
  if blank page then .ok none
  else match decode page with
    | none => .error .corrupt
    | some r => if policy.valid r then .ok (some r) else .error .corrupt

variable {H : Type} {A : H → Type}

/-- The `IO` parameter of the templates. -/
structure Driver (H : Type) (A : H → Type) where
  read : Nat → PageProg Page H A (Option Page)
  write : Nat → Page → PageProg Page H A Bool
  sync : PageProg Page H A Bool

variable (io : Driver H A)

def loadMarker (copy : Nat) (marker : Bool) : PageProg Page H A (Except Code Bool) := do
  let some page ← io.read copy | return .error .io
  return markerIn page marker

def loadRecord (policy : Policy) (i : Fin 2) : PageProg Page H A (Except Code (Option Record)) := do
  let some page ← io.read (pageBase + i) | return .error .io
  return recordIn policy page

def successor (policy : Policy) (old next : Record) : Bool :=
  old.sequence.toNat != maxSequence && next.sequence == old.sequence + 1 &&
    sameBinding old next && policy.transition old next

def selectOnly (policy : Policy) (slot : Fin 2) (r : Record) : Loaded :=
  if r.sequence ≠ 1 ∨ policy.initial r = false then { code := .ambiguous }
  else { code := .ready, selected := some (slot, r) }

def selectNewer (policy : Policy) (newer : Fin 2) (old next : Record) : Loaded :=
  if successor policy old next = false ∨ (old.sequence = 1 ∧ policy.initial old = false) then
    { code := .ambiguous }
  else { code := .ready, selected := some (newer, next) }

def select (policy : Policy) : Option Record → Option Record → Loaded
  | none, none => { code := .empty }
  | some r, none => selectOnly policy 0 r
  | none, some r => selectOnly policy 1 r
  | some a, some b =>
    if a.sequence = b.sequence then { code := .ambiguous }
    else if a.sequence > b.sequence then selectNewer policy 0 b a
    else selectNewer policy 1 a b

def load (policy : Policy) : PageProg Page H A Loaded := do
  match ← loadMarker io 0 false with
  | .error code => return { code := code }
  | .ok marker =>
    match ← loadMarker io 1 marker with
    | .error code => return { code := code }
    | .ok marker =>
      if marker = false then return { code := .notFormatted }
      match ← loadRecord io policy 0 with
      | .error code => return { code := code }
      | .ok a =>
        match ← loadRecord io policy 1 with
        | .error code => return { code := code }
        | .ok b => return select policy a b

/-- The page `save` writes to; an `error` is its return before any write. -/
def chooseTarget (policy : Policy) (next : Record) (loaded : Loaded) : Except Code (Fin 2) :=
  match loaded.code, loaded.selected with
  | .empty, _ =>
    if next.sequence ≠ 1 ∨ policy.initial next = false then .error .rejected else .ok 0
  | .ready, some (selected, old) =>
    if successor policy old next = false then .error .rejected
    else .ok (if selected = 0 then 1 else 0)
  | code, _ => .error code

/-- `admitted` is the caller's permission; values cannot alias the scratch here. -/
def save (policy : Policy) (next : Record) (admitted : Bool) : PageProg Page H A Code := do
  if admitted = false ∨ shape next = false ∨ policy.valid next = false then return .rejected
  match chooseTarget policy next (← load io policy) with
  | .error code => return code
  | .ok target =>
    match encode next with
    | none => return .rejected
    | some page =>
      if (← io.write (pageBase + target) page) = false then return .io
      if (← io.sync) = false then return .io
      let some verify ← io.read (pageBase + target) | return .io
      if verify ≠ page then return .verify
      match decode verify with
      | none => return .verify
      | some decoded => return if policy.valid decoded then .ready else .verify

end Mosaico.Nand.ColdStore
