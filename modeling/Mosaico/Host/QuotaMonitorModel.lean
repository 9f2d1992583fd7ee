import Mosaico.Host.TokenHistoryModel

/-! `quota_monitor.cpp`: what the firmware takes over of a dashboard. -/
namespace Mosaico.Host.QuotaMonitor

open TokenHistory

abbrev maxBuckets : Nat := 8
abbrev uint32Max : Int := 0xFFFFFFFF
abbrev uint16Max : Int := 0xFFFF

structure Window where
  available : Bool := false
  remainingBasisPoints : Nat := 0
  durationMinutes : Nat := 0
  resetEpoch : Nat := 0
  deriving DecidableEq

structure Bucket where
  id : String := ""
  name : String := ""
  plan : String := ""
  reached : String := ""
  creditBalance : String := ""
  creditsKnown : Bool := false
  creditsUnlimited : Bool := false
  windows : List Window := []
  deriving DecidableEq

/-- The buckets are those that count. -/
structure Snapshot where
  buckets : List Bucket := []
  totalBuckets : Nat := 0
  truncated : Bool := false
  resetCreditsKnown : Bool := false
  resetCredits : Nat := 0
  available : Bool := false
  capturedEpoch : Nat := 0
  ageSecondsAtReceipt : Nat := 0
  deriving DecidableEq

/-- A text with room for its end in `size` bytes, in the characters the fonts have. -/
def field (root : Option Json) (name : String) (size : Nat) (empty : Bool := true) :
    Option String := do
  let value ← text root name
  if decide (value.utf8ByteSize ≥ size) || (!empty && value.isEmpty) || !printable value then none
  return value

def window (source : Json) : Option Window :=
  match source with
  | .null => some {}
  | source => do
    let remaining ← integer (some source) "remaining_bp" 0 10000
    let duration ← integer (some source) "duration_minutes" 0 uint32Max
    let reset ← integer (some source) "reset_epoch" 0 uint32Max
    return {
      available := true
      remainingBasisPoints := remaining.toNat
      durationMinutes := duration.toNat
      resetEpoch := reset.toNat }

def balanceDigits : Bool → Bool → List Char → Bool
  | _, digit, [] => digit
  | dot, digit, c :: rest =>
    if c = '.' ∧ dot = false then balanceDigits true digit rest
    else if '0' ≤ c ∧ c ≤ '9' then balanceDigits dot true rest
    else false

/-- Whether credits are known, whether they are unlimited, and their balance. -/
def credits (bucket : Json) : Option (Bool × Bool × String) :=
  match item (some bucket) "credits" with
  | some .null => some (false, false, "")
  | credit => do
    let unlimited ← boolean credit "unlimited"
    match item credit "balance" with
    | some .null => return (true, unlimited, "")
    | _ =>
      let balance ← field credit "balance" 32 false
      if !balanceDigits false false balance.toList then none
      return (true, unlimited, balance)

def windows (bucket : Json) : Option (List Window) :=
  match item (some bucket) "windows" with
  | some (.array [first, second]) => do
    let first ← window first
    let second ← window second
    return [first, second]
  | _ => none

/-- A bucket behind others whose identifiers are `seen`. -/
def bucket (seen : List String) (source : Json) : Option Bucket := do
  let id ← field (some source) "id" 64 false
  let name ← field (some source) "name" 64 false
  let plan ← field (some source) "plan" 24
  let reached ← field (some source) "reached" 48
  if seen.contains id then none
  let windows ← windows source
  let (known, unlimited, balance) ← credits source
  return {
    id := id
    name := name
    plan := plan
    reached := reached
    creditBalance := balance
    creditsKnown := known
    creditsUnlimited := unlimited
    windows := windows }

def buckets (seen : List String) : List Json → Option (List Bucket)
  | [] => some []
  | source :: rest => do
    let first ← bucket seen source
    let others ← buckets (seen ++ [first.id]) rest
    return first :: others

def array (root : Option Json) (name : String) : Option (List Json) :=
  match item root name with
  | some (.array items) => some items
  | _ => none

def resetCredits (root : Option Json) : Option (Option Int) :=
  match item root "reset_credits" with
  | some .null => some none
  | _ => (integer root "reset_credits" 0 uint16Max).map some

def parsed (root : Json) : Option Snapshot := do
  let root := some root
  let available ← boolean root "available"
  let _ ← integer root "version" 2 2
  let captured ← integer root "captured_epoch" 1 uint32Max
  let age ← integer root "age_seconds" 0 120
  let sources ← array root "buckets"
  let truncated ← boolean root "truncated"
  if !available || decide (sources.length < 1) || decide (sources.length > maxBuckets) then none
  let total ← integer root "total_buckets" sources.length uint32Max
  if truncated ≠ decide (total > sources.length) then none
  let resets ← resetCredits root
  let buckets ← buckets [] sources
  return {
    buckets := buckets
    totalBuckets := total.toNat
    truncated := truncated
    resetCreditsKnown := resets.isSome
    resetCredits := (resets.getD 0).toNat
    available := true
    capturedEpoch := captured.toNat
    ageSecondsAtReceipt := age.toNat }

section Parse

variable (parseText : List UInt8 → Option Json)

/-- `parseText` is the JSON parser. -/
def parse (json : List UInt8) : Option Snapshot :=
  if json.length = 0 ∨ json.length > 8192 ∨ jsonNestingValid json = false then none
  else do
    let root ← parseText json
    parsed root

end Parse

end Mosaico.Host.QuotaMonitor
