import Mathlib.Data.List.Basic
import Mathlib.Algebra.Order.Monoid.Unbundled.WithTop

/-! The token history of `token_history.cpp`: what of a JSON document it takes over, and how it
merges that with what it holds. The parser of the text is a parameter. -/
namespace Mosaico.Host.TokenHistory

/-- A parsed document. A number is its value where that is whole; a text ends at its first NUL. -/
inductive Json where
  | null
  | bool (value : Bool)
  | number (value : Option Int)
  | string (text : String)
  | array (items : List Json)
  | object (members : List (String × Json))

def item (root : Option Json) (name : String) : Option Json :=
  match root with
  | some (.object members) => members.lookup name
  | _ => none

def integer (root : Option Json) (name : String) (low high : Int) : Option Int :=
  match item root name with
  | some (.number (some v)) => if low ≤ v ∧ v ≤ high then some v else none
  | _ => none

def boolean (root : Option Json) (name : String) : Option Bool :=
  match item root name with
  | some (.bool value) => some value
  | _ => none

def text (root : Option Json) (name : String) : Option String :=
  match item root name with
  | some (.string text) => some text
  | _ => none

def printable (s : String) : Bool := s.toList.all fun c => decide (32 ≤ c.toNat ∧ c.toNat ≤ 126)

def maxTokens : Int := 9007199254740991

def maxEpoch : Int := 4294967295

inductive Quality where
  | missing | official | observed | partly | correction | pending | locally | gap
  deriving DecidableEq, Repr

def qualities (daily : Bool) : List (String × Quality) :=
  [("missing", .missing), ("local", .locally), ("pending", .pending)] ++
    if daily then [("official", .official)]
    else [("observed", .observed), ("partial", .partly), ("gap", .gap), ("correction", .correction)]

def Quality.countless : Quality → Bool
  | .missing | .correction | .pending | .gap => true
  | _ => false

structure Cell where
  label : String := ""
  tokens : Nat := 0
  correctionDelta : Int := 0
  gapDelta : Int := 0
  valid : Bool := false
  quality : Quality := .missing
  deriving DecidableEq, Repr

def count (entry : Option Json) (quality : Quality) : Option (Option Nat) :=
  match item entry "tokens" with
  | some .null => if quality.countless then some none else none
  | _ =>
    if quality.countless then none
    else (integer entry "tokens" 0 maxTokens).map fun v => some v.toNat

def delta (entry : Option Json) (name : String) : Option Int :=
  match item entry name with
  | none => some 0
  | some _ => integer entry name (-maxTokens) maxTokens

def cell (daily : Bool) (entry : Json) : Option Cell := do
  let label ← text (some entry) "label"
  let word ← text (some entry) "quality"
  if label.isEmpty || decide (label.utf8ByteSize ≥ 24) || !printable label then none
  let quality ← (qualities daily).lookup word
  let tokens ← count (some entry) quality
  let correctionDelta ← delta (some entry) "correction_delta"
  if correctionDelta > 0 then none
  let gapDelta ← delta (some entry) "gap_delta"
  return {
    label := label
    tokens := tokens.getD 0
    correctionDelta := correctionDelta
    gapDelta := gapDelta
    valid := tokens.isSome
    quality := quality }

def entries (root : Option Json) (name : String) (length : Nat) : Option (List Json) :=
  match item root name with
  | some (.array items) => if items.length = length then some items else none
  | _ => none

def cells (root : Option Json) (name : String) (length : Nat) (daily : Bool) : Option (List Cell) := do
  let items ← entries root name length
  items.mapM (cell daily)

structure Point where
  epoch : Nat := 0
  remainingBasisPoints : Nat := 0
  valid : Bool := false
  breakBefore : Bool := false
  resetBefore : Bool := false
  deriving DecidableEq, Repr

def remaining (entry : Option Json) : Option (Option Int) :=
  match item entry "remaining_bp" with
  | some .null => some none
  | _ => (integer entry "remaining_bp" 0 10000).map some

def trendPoint (start end_ : Int) (entry : Json) : Option Point := do
  let epoch ← integer (some entry) "epoch" start end_
  let breakBefore ← boolean (some entry) "break_before"
  let resetBefore ← boolean (some entry) "reset_before"
  let bp ← remaining (some entry)
  if resetBefore && !breakBefore then none
  return {
    epoch := epoch.toNat
    remainingBasisPoints := (bp.getD 0).toNat
    valid := bp.isSome
    breakBefore := breakBefore
    resetBefore := resetBefore }

def pointsAfter (start end_ : Int) (previous : Option Nat) : List Json → Option (List Point)
  | [] => some []
  | entry :: rest => do
    let point ← trendPoint start end_ entry
    if previous.any fun epoch => decide (point.epoch ≤ epoch) then none
    let points ← pointsAfter start end_ (some point.epoch) rest
    return point :: points

def trendPoints (root : Option Json) (name : String) (length : Nat) (start end_ : Int) :
    Option (List Point) := do
  let items ← entries root name length
  pointsAfter start end_ none items

structure QuotaTrend where
  hours : List Point := List.replicate 25 {}
  days : List Point := List.replicate 8 {}
  limitId : String := ""
  capturedEpoch : Nat := 0
  ageSecondsAtReceipt : Nat := 0
  receivedAtMs : UInt32 := 0
  start24hEpoch : Nat := 0
  start7dEpoch : Nat := 0
  endEpoch : Nat := 0
  durationMinutes : Nat := 10080
  timezoneOffsetMinutes : Int := 480
  available : Bool := false
  deriving DecidableEq, Repr

/-- The time of the latest point with a value; none is 0. -/
def latest (points : List Point) : Nat :=
  points.foldl (fun time p => if p.valid then max time p.epoch else time) 0

def trend (root : Json) : Option QuotaTrend := do
  let root := some root
  let available ← boolean root "available"
  let id ← text root "limit_id"
  if id.utf8ByteSize ≥ 64 then none
  let _ ← integer root "version" 1 1
  let captured ← integer root "captured_epoch" 0 maxEpoch
  let age ← integer root "age_seconds" 0 maxEpoch
  let duration ← integer root "duration_minutes" 10080 10080
  let offset ← integer root "timezone_offset_minutes" 480 480
  let start24 ← integer root "start_24h_epoch" 1 maxEpoch
  let start7 ← integer root "start_7d_epoch" 1 maxEpoch
  let end_ ← integer root "end_epoch" 1 maxEpoch
  if end_ - start24 ≠ 86400 ∨ end_ - start7 ≠ 604800 then none
  if !printable id then none
  if available = true ∧ (captured = 0 ∨ captured > end_ ∨ id ≠ "codex") then none
  if captured > end_ ∨ (captured ≠ 0 ∧ id ≠ "codex") ∨ (captured = 0 ∧ (id ≠ "" ∨ age ≠ 0)) ∨
      (available = false ∧ captured ≠ 0 ∧ captured ≥ start7) then none
  let hours ← trendPoints root "hours" 25 start24 end_
  let days ← trendPoints root "days" 8 start7 end_
  let newest := latest (hours ++ days)
  if available ≠ decide (newest ≠ 0) ∨ (newest ≠ 0 ∧ (newest : Int) ≠ captured) then none
  return {
    hours := hours
    days := days
    limitId := id
    capturedEpoch := captured.toNat
    ageSecondsAtReceipt := age.toNat
    start24hEpoch := start24.toNat
    start7dEpoch := start7.toNat
    endEpoch := end_.toNat
    durationMinutes := duration.toNat
    timezoneOffsetMinutes := offset
    available := available }

structure Snapshot where
  days : List Cell := List.replicate 30 {}
  hours : List Cell := List.replicate 24 {}
  revision : UInt32 := 0
  capturedEpoch : Nat := 0
  ageSecondsAtReceipt : Nat := 0
  receivedAtMs : UInt32 := 0
  available : Bool := false
  tokenAvailable : Bool := false
  quotaTrend : QuotaTrend := {}
  timezoneOffsetMinutes : Int := 480
  deriving DecidableEq, Repr

/-- What a document brings, and whether a trend is in it. -/
structure Parsed where
  next : Snapshot
  hasTrend : Bool

/-- Both kinds of freshness; a first version has only its tokens. -/
def freshness (root : Option Json) (version captured age : Int) (available : Bool) :
    Option (Bool × Int × Int × Option QuotaTrend) :=
  if version = 2 then do
    let tokenAvailable ← boolean root "token_available"
    let captured ← integer root "token_captured_epoch" 0 maxEpoch
    let age ← integer root "token_age_seconds" 0 maxEpoch
    match item root "quota_trend" with
    | none => return (tokenAvailable, captured, age, none)
    | some quotaTrend =>
      let quotaTrend ← trend quotaTrend
      if available ≠ (tokenAvailable || quotaTrend.available) then none
      return (tokenAvailable, captured, age, some quotaTrend)
  else some (available, captured, age, none)

/-- Everything that is looked at before the stored state is. -/
def parsed (root : Json) : Option Parsed := do
  let root := some root
  let available ← boolean root "available"
  let version ← integer root "version" 1 2
  let captured ← integer root "captured_epoch" 0 maxEpoch
  let age ← integer root "age_seconds" 0 maxEpoch
  let offset ← integer root "timezone_offset_minutes" (-720) 840
  let days ← cells root "days" 30 true
  let hours ← cells root "hours" 24 false
  let (tokenAvailable, captured, age, quotaTrend) ← freshness root version captured age available
  if tokenAvailable = true ∧ captured = 0 then none
  return {
    next := {
      days := days
      hours := hours
      capturedEpoch := captured.toNat
      ageSecondsAtReceipt := age.toNat
      available := tokenAvailable
      tokenAvailable := tokenAvailable
      quotaTrend := quotaTrend.getD {}
      timezoneOffsetMinutes := offset }
    hasTrend := quotaTrend.isSome }

def Parsed.stamped (p : Parsed) (receivedAtMs : UInt32) : Parsed :=
  { p with next := { p.next with
      receivedAtMs := receivedAtMs
      quotaTrend := { p.next.quotaTrend with receivedAtMs := receivedAtMs } } }

structure Nesting where
  depth : Nat := 0
  quoted : Bool := false
  escaped : Bool := false

/-- One byte of the text; a bracket too many ends it. -/
def Nesting.step (n : Nesting) (ch : UInt8) : Option Nesting :=
  if n.quoted then
    if n.escaped then some { n with escaped := false }
    else if ch = 0x5c then some { n with escaped := true }
    else if ch = 0x22 then some { n with quoted := false }
    else some n
  else if ch = 0x22 then some { n with quoted := true }
  else if ch = 0x7b ∨ ch = 0x5b then
    if n.depth + 1 > 8 then none else some { n with depth := n.depth + 1 }
  else if ch = 0x7d ∨ ch = 0x5d then
    if n.depth = 0 then none else some { n with depth := n.depth - 1 }
  else some n

def jsonNestingValid (data : List UInt8) : Bool :=
  (data.foldlM Nesting.step {}).any fun n => n.depth == 0 && !n.quoted

/-- A payload and what it meets. -/
structure Delivery where
  json : List UInt8
  now : UInt32
  memory : Bool := true
  locked : Bool := true

structure Store where
  current : Option Snapshot := none
  revision : UInt32 := 0

section Apply

variable (parse : List UInt8 → Option Json)

def received (d : Delivery) : Option Parsed :=
  if d.json.length = 0 ∨ d.json.length > 32768 ∨ jsonNestingValid d.json = false ∨
      d.memory = false then none
  else do
    let root ← parse d.json
    let p ← parsed root
    return p.stamped d.now

/-- Token freshness does not reject a trend that was captured on its own. -/
def merged (current : Option Snapshot) (p : Parsed) : Snapshot :=
  match current with
  | none => p.next
  | some current =>
    let next := p.next
    let next :=
      if current.tokenAvailable = true ∧
          (next.tokenAvailable = false ∨ next.capturedEpoch < current.capturedEpoch) then
        { next with
          days := current.days
          hours := current.hours
          available := current.available
          tokenAvailable := current.tokenAvailable
          capturedEpoch := current.capturedEpoch
          ageSecondsAtReceipt := current.ageSecondsAtReceipt
          receivedAtMs := current.receivedAtMs
          timezoneOffsetMinutes := current.timezoneOffsetMinutes }
      else next
    if p.hasTrend = false ∨ next.quotaTrend.endEpoch < current.quotaTrend.endEpoch then
      { next with quotaTrend := current.quotaTrend }
    else next

def apply (s : Store) (d : Delivery) : Bool × Store :=
  match received parse d with
  | none => (false, s)
  | some p =>
    if d.locked then
      let revision := s.revision + 1
      (true, {
        current := some { merged s.current p with revision := revision }
        revision := revision })
    else (false, s)

def applyAll (deliveries : List Delivery) : Store :=
  deliveries.foldl (fun s d => (apply parse s d).2) {}

end Apply

end Mosaico.Host.TokenHistory
