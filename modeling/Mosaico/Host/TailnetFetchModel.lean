import Mosaico.Library.CText

/-! `TailnetQuota::fetch` of `tailscale_transport.cpp`: one HTTP request over the
tailnet, with its response buffer. None is an access outside a buffer, or a pointer
difference that would wrap. -/
namespace Mosaico.Host.TailnetFetch

open CText

inductive FetchStage where
  | none
  | notReady
  | input
  | connect
  | send
  | allocation
  | receive
  | httpStatus
  | header
  | oversize
  | deadline
  | incomplete
  | success
deriving DecidableEq

structure FetchDiagnostics where
  stage : FetchStage := .none
  httpStatus : Int := 0
  received : Nat := 0
  contentLength : Nat := 0
  result : Bool := false
deriving DecidableEq

/-- What the transport was set up with, and whether it may be used now. -/
structure TailnetQuota where
  pauseRequested : Bool
  connected : Bool
  host : String
  port : Nat
  path : String

/-- How the receiving ends once nothing more arrives. -/
inductive Ending where
  | closed
  | deadline
deriving DecidableEq

/-- The connection and the heap, as far as one fetch meets them. An empty arrival is a
receive call that times out; a longer one than the call asked for ends with the fetch. -/
structure Link where
  connects : Bool
  sends : Bool
  allocates : Bool
  arrivals : List (List UInt8)
  ending : Ending

structure Fetched where
  result : Bool
  length : Nat
  body : List UInt8
  diagnostics : FetchDiagnostics
deriving DecidableEq

def crlf : List UInt8 := [13, 10]

def blankLine : List UInt8 := [13, 10, 13, 10]

def contentLengthHeader : List UInt8 := crlf ++ ascii "Content-Length:"

def transferEncodingHeader : List UInt8 := crlf ++ ascii "Transfer-Encoding:"

/-- `sscanf(response, "HTTP/%*u.%*u %3d", ...)`; none leaves the status as it was. -/
def scanStatus (response : List UInt8) : Option Int :=
  if (ascii "HTTP/").isPrefixOf response then do
    let major ← scanNumber response.length (response.drop 5)
    match major.2 with
    | 46 :: rest =>
      let minor ← scanNumber rest.length rest
      let status ← scanNumber 3 minor.2
      return status.1
    | _ => none
  else none

def declared (head : List UInt8) : Option (Nat × List UInt8) :=
  (strcasestr contentLengthHeader head).map fun place => strtoul (head.drop (place + 17))

/-- The checks on a head that has arrived: how long the body is, or why it is refused. -/
def inspectHead (capacity : Nat) (head : List UInt8) : Except FetchStage Nat :=
  if ¬ (ascii "HTTP/1.1 200 ").isPrefixOf head ∧ ¬ (ascii "HTTP/1.0 200 ").isPrefixOf head then .error .httpStatus
  else
    match declared head with
    | none => .error .header
    | some (n, rest) =>
      if (strcasestr transferEncodingHeader head).isSome then .error .header
      else if (rest.head? ≠ some 13 ∧ rest ≠ []) ∨ n = 0 ∨ capacity ≤ n then
        .error (if (rest.head? = some 13 ∨ rest = []) ∧ capacity ≤ n then .oversize else .header)
      else .ok n

/-- The variables of the receive loop. -/
structure Reading where
  response : List UInt8
  used : Nat := 0
  payload : Option Nat := none
  contentLength : Nat := 0
  ok : Bool := true
  failure : FetchStage := .none
  diagnostic : FetchDiagnostics := {}

def Reading.refuse (r : Reading) (stage : FetchStage) : Reading := { r with failure := stage, ok := false }

/-- `used - (payload - response)`. -/
def arrived (used payload : Nat) : Option Nat := if payload ≤ used then some (used - payload) else none

/-- The test at the end of the loop's body; true goes on. -/
def Reading.enough (r : Reading) (payload : Nat) : Option (Bool × Reading) := do
  let count ← arrived r.used payload
  return (decide (count < r.contentLength), r)

/-- The head is whole, and ends at `split`. -/
def Reading.head (capacity : Nat) (r : Reading) (split : Nat) : Option (Bool × Reading) := do
  let response ← write r.response split [0]
  let head ← text response
  let r := { r with
    response, payload := some (split + 4)
    diagnostic.contentLength := ((declared head).map Prod.fst).getD r.diagnostic.contentLength }
  match inspectHead capacity head with
  | .error stage => return (false, r.refuse stage)
  | .ok n => Reading.enough { r with contentLength := n } (split + 4)

def Reading.store (r : Reading) (data : List UInt8) : Option Reading := do
  let response ← write r.response r.used data
  let response ← write response (r.used + data.length) [0]
  return { r with response, used := r.used + data.length, diagnostic.received := r.used + data.length }

def Reading.look (capacity : Nat) (r : Reading) : Option (Bool × Reading) := do
  let received ← text r.response
  let status := if (strstr crlf received).isSome then scanStatus received else none
  let r := { r with diagnostic.httpStatus := status.getD r.diagnostic.httpStatus }
  match strstr blankLine received with
  | none => return if 2048 ≤ r.used then (false, r.refuse .header) else (true, r)
  | some split => r.head capacity split

/-- The loop's body after a receive call that returned `data`. -/
def Reading.take (capacity : Nat) (r : Reading) (data : List UInt8) : Option (Bool × Reading) := do
  let r ← r.store data
  match r.payload with
  | some payload => r.enough payload
  | none => r.look capacity

/-- The receive loop. -/
def receive (capacity : Nat) (ending : Ending) : Reading → List (List UInt8) → Option Reading
  | r, [] =>
    if r.used < capacity + 2047 ∧ ending = .closed then some { r with failure := .receive } else some r
  | r, data :: later =>
    if r.used < capacity + 2047 then
      let data := data.take (capacity + 2047 - r.used)
      if data = [] then receive capacity ending r later
      else do
        match ← r.take capacity data with
        | (true, r) => receive capacity ending r later
        | (false, r) => return r
    else some r

def Reading.success (r : Reading) : Option (Option Nat) :=
  match r.payload with
  | some payload =>
    if r.ok ∧ 0 < r.contentLength then do
      let count ← arrived r.used payload
      return if r.contentLength ≤ count then some payload else none
    else some none
  | none => some none

/-- What follows the loop. -/
def Reading.finish (capacity : Nat) (ending : Ending) (body : List UInt8) (r : Reading) : Option Fetched := do
  match ← r.success with
  | some payload =>
    let bytes ← read r.response payload r.contentLength
    let body ← write body 0 bytes
    let body ← write body r.contentLength [0]
    return { result := true, length := r.contentLength, body,
             diagnostics := { r.diagnostic with stage := .success, result := true } }
  | none =>
    let stage := if r.failure ≠ .none then r.failure
      else if capacity + 2047 ≤ r.used then .oversize
      else if ending = .deadline then .deadline else .incomplete
    return { result := false, length := 0, body, diagnostics := { r.diagnostic with stage } }

def request (q : TailnetQuota) (token : String) (pathOverride : Option String) : String :=
  "GET " ++ pathOverride.getD q.path ++ " HTTP/1.1\r\nHost: " ++ q.host ++ ":" ++ toString q.port ++
    "\r\nAuthorization: Bearer " ++ token ++ "\r\nConnection: close\r\n\r\n"

def failed (body : List UInt8) (stage : FetchStage) : Fetched :=
  { result := false, length := 0, body, diagnostics := { stage } }

/-- `body` is the caller's buffer of `capacity` bytes. -/
def fetch (q : TailnetQuota) (link : Link) (token : String) (pathOverride : Option String) (capacity : Nat)
    (body : List UInt8) : Option Fetched :=
  if q.pauseRequested ∨ ¬ q.connected then some (failed body .notReady)
  else if capacity < 2 then some (failed body .input)
  else if ¬ link.connects then some (failed body .connect)
  else if 640 ≤ (request q token pathOverride).utf8ByteSize ∨ ¬ link.sends then some (failed body .send)
  else if ¬ link.allocates then some (failed body .allocation)
  else (receive capacity link.ending { response := List.replicate (capacity + 2048) 0 } link.arrivals).bind
    (Reading.finish capacity link.ending body)

end Mosaico.Host.TailnetFetch
