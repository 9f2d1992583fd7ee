import Mosaico.Host.TokenHistoryModel
import Mosaico.Library.BinaryRounding

/-! `quota_dashboard.py`: the dashboard that is made of an answer of the App Server, and the document
it is sent as. -/
namespace Mosaico.Host.QuotaDashboard

open TokenHistory BinaryRounding

abbrev maxBuckets : Nat := 8
abbrev maxAgeSeconds : Int := 120
abbrev uint32Max : Int := 0xFFFFFFFF

abbrev Text := List Nat

def codes (s : String) : Text := s.toList.map Char.toNat

inductive Float where
  | finite (value : ℚ)
  | infinite (negative : Bool)
  | nan

/-- A value of the interpreter, as it is made of JSON. -/
inductive Value where
  | none
  | bool (value : Bool)
  | int (value : Int)
  | float (value : Float)
  | str (value : Text)
  | list (items : List Value)
  | dict (members : List (Text × Value))

def Value.get : Value → String → Value
  | .dict members, name => (members.lookup (codes name)).getD .none
  | _, _ => .none

def utf8Width (c : Nat) : Nat := if c < 0x80 then 1 else if c < 0x800 then 2 else if c < 0x10000 then 3 else 4

/-- What the first `limit` bytes of the encoding are decoded to: a character cut in two is left
out. -/
def fit : Nat → Text → Text
  | _, [] => []
  | limit, c :: rest => if utf8Width c ≤ limit then c :: fit (limit - utf8Width c) rest else []

section Normalize

variable (control : Nat → Bool)

/-- `control` holds of the code points whose category starts with C. -/
def text (value : Value) (limit : Nat) (asciiOnly : Bool := false) : Text :=
  match value with
  | .str s =>
    fit limit (s.filter fun c => !control c && (!asciiOnly || decide (32 ≤ c ∧ c ≤ 126)))
  | _ => []

def integer (value : Value) (maximum : Int) : Option Int :=
  match value with
  | .int v => if 0 ≤ v ∧ v ≤ maximum then some v else none
  | .float (.finite q) => if 0 ≤ q ∧ q ≤ maximum ∧ q.den = 1 then some q.num else none
  | _ => none

def remaining (used : Value) : Option Int :=
  match used with
  | .int v => if 0 ≤ v ∧ v ≤ 100 then some ((100 - v) * 100) else none
  | .float (.finite q) =>
    if 0 ≤ q ∧ q ≤ 100 then some (roundEven (double (double (100 - q) * 100))) else none
  | _ => none

structure Window where
  remainingBp : Int
  durationMinutes : Int
  resetEpoch : Int
  deriving DecidableEq

def known (value : Value) : Option Int :=
  match value with
  | .none => some 0
  | _ => integer value uint32Max

def window (value : Value) : Option Window :=
  match value with
  | .dict _ => do
    let duration ← known (value.get "windowDurationMins")
    let reset ← known (value.get "resetsAt")
    let bp ← remaining (value.get "usedPercent")
    return { remainingBp := bp, durationMinutes := duration, resetEpoch := reset }
  | _ => none

structure Credits where
  unlimited : Bool
  balance : Option Text
  deriving DecidableEq

def isDigit (c : Nat) : Bool := decide (48 ≤ c ∧ c ≤ 57)

def decimalText (s : Text) : Bool :=
  let (whole, rest) := s.span isDigit
  !whole.isEmpty && match rest with
    | [] => true
    | dot :: fraction => dot == 46 && !fraction.isEmpty && fraction.all isDigit

def balance (has : Bool) (value : Value) : Option Text :=
  match value with
  | .str s => if !has || decide (s.length > 31) || !decimalText s then none else some s
  | _ => none

def credits (value : Value) : Option Credits :=
  match value.get "unlimited", value.get "hasCredits" with
  | .bool unlimited, .bool has =>
    some { unlimited := unlimited, balance := balance has (value.get "balance") }
  | _, _ => none

structure Bucket where
  id : Text
  name : Text
  plan : Text
  reached : Text
  credits : Option Credits
  windows : List (Option Window)
  deriving DecidableEq

/-- The identifier of a bucket; one that would have to be cut is none. -/
def ident (key : Text) (bucket : Value) : Option Text :=
  let source := match bucket.get "limitId" with
    | .str (c :: rest) => c :: rest
    | _ => key
  let id := text control (.str source) 64 true
  if id.isEmpty || decide (id.length > 63) then none else some id

def normalizeBucket (key : Text) (bucket : Value) : Option Bucket := do
  let id ← ident control key bucket
  let name := text control (bucket.get "limitName") 63 true
  return {
    id := id
    name := if name.isEmpty then id else name
    plan := text control (bucket.get "planType") 23 true
    reached := text control (bucket.get "rateLimitReachedType") 47 true
    credits := credits (bucket.get "credits")
    windows := [window (bucket.get "primary"), window (bucket.get "secondary")] }

def isDict : Value → Bool
  | .dict _ => true
  | _ => false

def entries (raw : Value) : List (Text × Value) :=
  match raw.get "rateLimitsByLimitId" with
  | .dict (first :: rest) => (first :: rest).filter fun entry => isDict entry.2
  | .none | .dict [] =>
    match raw.get "rateLimits" with
    | .dict members => [(codes "codex", .dict members)]
    | _ => []
  | _ => []

def textBelow : Text → Text → Bool
  | [], _ => true
  | _ :: _, [] => false
  | c :: rest, c' :: rest' => decide (c < c') || (c == c' && textBelow rest rest')

def bucketBelow (a b : Bucket) : Bool :=
  let other (x : Bucket) := x.id != codes "codex"
  (!other a && other b) || (other a == other b &&
    ((textBelow a.id b.id && a.id != b.id) || (a.id == b.id && textBelow a.name b.name)))

structure Dashboard where
  available : Bool
  capturedEpoch : Int
  ageSeconds : Int
  buckets : List Bucket
  totalBuckets : Nat
  truncated : Bool
  resetCredits : Option Int
  deriving DecidableEq

def unambiguous (buckets : List Bucket) : List Bucket :=
  buckets.filter fun b => buckets.countP (fun b' => b'.id == b.id) == 1

def normalizedBuckets (raw : Value) : List Bucket :=
  (unambiguous ((entries raw).filterMap fun entry => normalizeBucket control entry.1 entry.2)).mergeSort
    bucketBelow

def resetCount (resets : Value) : Option Int :=
  if isDict resets then integer (resets.get "availableCount") 65535 else none

def normalizeQuotaDashboard (raw : Value) (capturedEpoch : Value) : Except String Dashboard :=
  match integer capturedEpoch uint32Max with
  | some captured =>
    if captured = 0 then .error "invalid dashboard capture epoch"
    else if !isDict raw then .error "invalid dashboard response"
    else
      let normalized := normalizedBuckets control raw
      .ok {
        available := !normalized.isEmpty
        capturedEpoch := captured
        ageSeconds := 0
        buckets := normalized.take maxBuckets
        totalBuckets := normalized.length
        truncated := decide (normalized.length > maxBuckets)
        resetCredits := resetCount (raw.get "rateLimitResetCredits") }
  | none => .error "invalid dashboard capture epoch"

end Normalize

section Status

def Dashboard.aged (d : Dashboard) (age : Int) : Dashboard :=
  { d with ageSeconds := age, available := d.available && decide (age ≤ maxAgeSeconds) }

def word (s : Text) : String := String.ofList (s.map Char.ofNat)

def Window.document (w : Window) : Json :=
  .object [("remaining_bp", .number w.remainingBp), ("duration_minutes", .number w.durationMinutes),
    ("reset_epoch", .number w.resetEpoch)]

def Credits.document (c : Credits) : Json :=
  .object [("unlimited", .bool c.unlimited),
    ("balance", c.balance.elim .null fun b => .string (word b))]

def Bucket.document (b : Bucket) : Json :=
  .object [("id", .string (word b.id)), ("name", .string (word b.name)),
    ("plan", .string (word b.plan)), ("reached", .string (word b.reached)),
    ("credits", b.credits.elim .null Credits.document),
    ("windows", .array (b.windows.map fun w => w.elim .null Window.document))]

def Dashboard.document (d : Dashboard) : Json :=
  .object [("version", .number (some 2)), ("available", .bool d.available),
    ("captured_epoch", .number d.capturedEpoch), ("age_seconds", .number d.ageSeconds),
    ("buckets", .array (d.buckets.map Bucket.document)), ("total_buckets", .number (d.totalBuckets : Int)),
    ("truncated", .bool d.truncated),
    ("reset_credits", d.resetCredits.elim .null fun v => .number v)]

end Status

end Mosaico.Host.QuotaDashboard
