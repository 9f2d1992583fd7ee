import Mosaico.Nand.StoreModel

/-! `mosaico_nand_log_model.h`: the log journal, a ring of data pages whose
newest sequence is published in two alternating index pages. -/
namespace Mosaico.Nand.LogModel

open ByteFields PageDevice StoreModel

abbrev indexBase : Nat := 16
abbrev dataBase : Nat := 64
abbrev dataPages : Nat := 8192
abbrev maxPages : Nat := 8191
abbrev requiredPages : Nat := 8256
abbrev headerSize : Nat := 60
abbrev recordSize : Nat := 64
abbrev recordsPerPage : Nat := 31
abbrev pageMagic : Nat := 0x31474c4d
abbrev indexMagic : Nat := 0x31494c4d
abbrev maxSeq : Nat := 2 ^ 64 - 1

inductive Code where
  | ok | empty | notFormatted | corrupt | io | overflow | verify
  deriving DecidableEq, Repr

/-- `indexCopy` is `none` for -1. -/
structure State where
  latestSeq : Nat := 0
  oldestSeq : Nat := 0
  indexCopy : Option (Fin 2) := none
  adopted : Bool := false
  deriving DecidableEq, Repr

def address (seq : Nat) : Nat := dataBase + (seq - 1) % dataPages

def oldest (seq : Nat) : Nat := if seq > maxPages then seq - maxPages + 1 else 1

def validHeader (p : Page) : Bool :=
  get p 0 4 == pageMagic && get p 4 2 == 1 && get p 6 2 == headerSize &&
    decide (get p 8 8 > 0) && decide (get p 20 2 > 0) && decide (get p 20 2 ≤ recordsPerPage) &&
    zeros p 22 24 && get p 24 4 == crc p 24 && zeros p 28 headerSize

def validPage (p : Page) : Bool :=
  validHeader p && zeros p (headerSize + get p 20 2 * recordSize) crcOffset &&
    crcMatches p crcOffset

def finalize (p : Page) (seq : Nat) : Option Page :=
  let boot := get p 16 4
  let count := get p 20 2
  if seq = 0 ∨ count = 0 ∨ count > recordsPerPage then none
  else
    let p := clear p 0 headerSize
    let p := put (put (put p 0 pageMagic 4) 4 1 2) 6 headerSize 2
    let p := put (put (put p 8 seq 8) 16 boot 4) 20 count 2
    let p := put p 24 (crc p 24) 4
    let p := clear p (headerSize + count * recordSize) crcOffset
    some (closeCrc p crcOffset)

def index (latest : Nat) : Page :=
  closeCrc (put (put (put (put (put (zero pageSize) 0 indexMagic 4) 4 1 2) 6 24 2)
    8 latest 8) 16 (oldest latest) 8) crcOffset

def validIndex (p : Page) : Bool :=
  get p 0 4 == indexMagic && get p 4 2 == 1 && get p 6 2 == 24 && get p 8 8 != 0 &&
    get p 16 8 == oldest (get p 8 8) && zeros p 24 crcOffset && crcMatches p crcOffset

variable {H : Type} {A : H → Type}

def publish (state : State) (seq : Nat) : PageProg Page H A (Code × State) := do
  let copy : Fin 2 := if state.indexCopy = some 0 then 1 else 0
  let page := index seq
  if (← writePage (indexBase + copy) page) = false then return (.io, state)
  if (← sync) = false then return (.io, state)
  let some verify ← readPage (indexBase + copy) | return (.io, state)
  if verify ≠ page then return (.verify, state)
  return (.ok, { state with latestSeq := seq, oldestSeq := oldest seq, indexCopy := some copy })

/-- One turn of the index loop: the sequence the copy publishes (0 for none) and
whether it is damaged; `error` is the early return. -/
def scanIndex (copy : Fin 2) : PageProg Page H A (Except Code (Nat × Bool)) := do
  let some page ← readPage (indexBase + copy) | return .error .io
  if validIndex page then return .ok (get page 8 8, false)
  if !blank page then
    if get page 0 4 ≠ indexMagic ∨ get page 4 2 ≠ 1 then return .error .corrupt
    return .ok (0, true)
  return .ok (0, false)

/-- The state the two index copies stand for, before the data pages are read. -/
def published (seq0 seq1 : Nat) : State :=
  if seq0 ≠ 0 ∨ seq1 ≠ 0 then
    if seq1 > seq0 then { latestSeq := seq1, oldestSeq := oldest seq1, indexCopy := some 1 }
    else { latestSeq := seq0, oldestSeq := oldest seq0, indexCopy := some 0 }
  else {}

/-- The index loop and its checks. -/
def loadIndex : PageProg Page H A (Except Code State) := do
  match ← scanIndex 0 with
  | .error code => return .error code
  | .ok (seq0, damaged0) =>
    match ← scanIndex 1 with
    | .error code => return .error code
    | .ok (seq1, damaged1) =>
      if seq0 = 0 ∧ seq1 = 0 ∧ (damaged0 || damaged1) then return .error .corrupt
      if seq0 ≠ 0 ∧ seq1 ≠ 0 ∧
          (seq0 = seq1 ∨ (if seq0 > seq1 then seq0 - seq1 else seq1 - seq0) ≠ 1) then
        return .error .corrupt
      return .ok (published seq0 seq1)

def checkTail (state : State) : PageProg Page H A (Option Code) := do
  if state.latestSeq = 0 then return none
  let some page ← readPage (address state.latestSeq) | return some .io
  if validPage page = false ∨ get page 8 8 ≠ state.latestSeq then return some .corrupt
  return none

/-- Adopt a single complete successor, in RAM only. -/
def adoptNext (state : State) : PageProg Page H A (Except Code State) := do
  if state.latestSeq = maxSeq then return .ok state
  let next := state.latestSeq + 1
  let some page ← readPage (address next) | return .error .io
  if blank page then return .ok state
  if validHeader page = false then return .error .corrupt
  let found := get page 8 8
  if address found ≠ address next then return .error .corrupt
  if found = next then
    if validPage page then
      return .ok { state with latestSeq := next, oldestSeq := oldest next, adopted := true }
    return .ok state
  if state.latestSeq = 0 ∨ found ≥ state.oldestSeq then return .error .corrupt
  return .ok state

/-- `out` is assigned on the last line only. -/
def load : PageProg Page H A (Code × Option State) := do
  let some seen ← scanMarker 0 {} | return (.io, none)
  let some seen ← scanMarker 1 seen | return (.io, none)
  if seen.copies = 0 then return (if seen.nonblank then .corrupt else .notFormatted, none)
  match ← loadIndex with
  | .error code => return (code, none)
  | .ok state =>
    match ← checkTail state with
    | some code => return (code, none)
    | none =>
      match ← adoptNext state with
      | .error code => return (code, none)
      | .ok state => return (if state.latestSeq ≠ 0 then .ok else .empty, some state)

def read (seq : Nat) : PageProg Page H A (Code × Option Page) := do
  if seq = 0 then return (.corrupt, none)
  let some page ← readPage (address seq) | return (.io, none)
  if validPage page = false ∨ get page 8 8 ≠ seq then return (.corrupt, none)
  return (.ok, some page)

/-- Whether the ring slot may be spent on `next`. -/
def spareCode (state : State) (next : Nat) (page : Page) : Code :=
  if blank page then .ok
  else if validHeader page = false then .corrupt
  else
    let prior := get page 8 8
    if address prior ≠ address next then .corrupt
    else if prior = next then (if validPage page then .corrupt else .ok)
    else if prior > state.latestSeq ∨ prior ≥ state.oldestSeq then .corrupt
    else .ok

/-- Everything of `append` after the adoption is published. -/
def appendNext (input : Page) (state : State) : PageProg Page H A (Code × Page × State) := do
  let next := state.latestSeq + 1
  let some input' := finalize input next | return (.corrupt, input, state)
  let some page ← readPage (address next) | return (.io, input', state)
  if spareCode state next page ≠ .ok then return (spareCode state next page, input', state)
  if (← writePage (address next) input') = false then return (.io, input', state)
  if (← sync) = false then return (.io, input', state)
  let some verify ← readPage (address next) | return (.io, input', state)
  if verify ≠ input' then return (.verify, input', state)
  let (code, state) ← publish state next
  return (code, input', state)

def append (input : Page) (state : State) : PageProg Page H A (Code × Page × State) := do
  if state.latestSeq = maxSeq then return (.overflow, input, state)
  if state.adopted then
    let (code, state) ← publish state state.latestSeq
    if code ≠ .ok then return (code, input, state)
    appendNext input { state with adopted := false }
  else appendNext input state

end Mosaico.Nand.LogModel
