import Mosaico.Host.HostBridge

/-! The output side of `codex_micro_ble.cpp`: reports from the host carry usage frames or
fragments of RPC messages, which are put together again in a buffer. -/
namespace Mosaico.Ble.HidOutput

open Host

abbrev reportId : UInt8 := 6
abbrev reportSize : Nat := 63
abbrev payloadSize : Nat := 61
abbrev maxRpcBufferSize : Nat := 4096
abbrev wirelessUsageMarker : UInt8 := 0xA5
abbrev wirelessUsageVersion : UInt8 := 1
abbrev wirelessUsageDataSize : Nat := 17
abbrev wirelessUsageFrameSize : Nat := 21
abbrev maxNestingDepth : Nat := 32

def readUint16Le (bytes : List UInt8) (i : Nat) : BitVec 16 :=
  (bytes.getD i 0).toBitVec.setWidth 16 ||| (bytes.getD (i + 1) 0).toBitVec.setWidth 16 <<< 8

def readUint32Le (bytes : List UInt8) (i : Nat) : BitVec 32 :=
  (bytes.getD i 0).toBitVec.setWidth 32 ||| (bytes.getD (i + 1) 0).toBitVec.setWidth 32 <<< 8 |||
    (bytes.getD (i + 2) 0).toBitVec.setWidth 32 <<< 16 |||
    (bytes.getD (i + 3) 0).toBitVec.setWidth 32 <<< 24

def fnv1a32 (bytes : List UInt8) : BitVec 32 :=
  bytes.foldl (fun hash b => (hash ^^^ b.toBitVec.setWidth 32) * 16777619) 2166136261

inductive RpcObjectState where
  | incomplete | complete | invalid
  deriving DecidableEq, Repr

def space (c : UInt8) : Bool := c == 32 || c == 9 || c == 13 || c == 10

/-- Where the loop of `rpcObjectState` stands. `closers` are the brackets still open,
innermost first; `done` is its inner loop over what follows the object. -/
inductive Scan where
  | waiting
  | inside (closers : List UInt8) (inString escaped : Bool)
  | done
  | invalid
  deriving DecidableEq, Repr

abbrev quote : UInt8 := 34
abbrev backslash : UInt8 := 92
abbrev openBrace : UInt8 := 123
abbrev closeBrace : UInt8 := 125
abbrev openBracket : UInt8 := 91
abbrev closeBracket : UInt8 := 93

def inString (closers : List UInt8) (escaped : Bool) (c : UInt8) : Scan :=
  if escaped then .inside closers true false
  else if c = backslash then .inside closers true true
  else if c = quote then .inside closers false false
  else .inside closers true false

def openWith (closers : List UInt8) (closer : UInt8) : Scan :=
  if closers.length = maxNestingDepth then .invalid else .inside (closer :: closers) false false

def closeWith (closers : List UInt8) (c : UInt8) : Scan :=
  match closers with
  | [] => .invalid
  | closer :: rest =>
    if closer ≠ c then .invalid else if rest = [] then .done else .inside rest false false

def outside (closers : List UInt8) (c : UInt8) : Scan :=
  if c = quote then .inside closers true false
  else if c = openBrace then openWith closers closeBrace
  else if c = openBracket then openWith closers closeBracket
  else if c = closeBrace ∨ c = closeBracket then closeWith closers c
  else .inside closers false false

def scanByte : Scan → UInt8 → Scan
  | .waiting, c =>
    if space c then .waiting
    else if c ≠ openBrace then .invalid
    else .inside [closeBrace] false false
  | .inside closers true escaped, c => inString closers escaped c
  | .inside closers false _, c => outside closers c
  | .done, c => if space c || c == 0 then .done else .invalid
  | .invalid, _ => .invalid

def rpcObjectState (json : List UInt8) : RpcObjectState :=
  match json.foldl scanByte .waiting with
  | .done => .complete
  | .invalid => .invalid
  | _ => .incomplete

/-- The part of the object that the receive callback works on. `dispatched` lists the
arguments of the calls of `queueRpcRequest`, in order. -/
structure Receiver where
  bridge : HostBridge.Bridge := {}
  rpcBuffer : List UInt8 := []
  dispatched : List (List UInt8) := []
  rxReports : UInt32 := 0
  rpcErrors : UInt32 := 0
  wirelessUsageRejected : UInt32 := 0
  wirelessUsageAccepted : UInt32 := 0
  deriving DecidableEq

/-- A report as the stack hands it over, with the clock and with the answer of
`queueRpcRequest` should it be called; `data` is `none` for a null pointer. -/
structure Report where
  data : Option (List UInt8)
  nowUs : Nat := 0
  queued : Bool := true
  deriving DecidableEq

def wirelessOffset (data : List UInt8) : Nat :=
  if 2 ≤ data.length ∧ data.getD 0 0 = reportId ∧ data.getD 1 0 = wirelessUsageMarker then 1
  else 0

def isWirelessUsage (data : List UInt8) : Bool :=
  decide (wirelessOffset data < data.length) &&
    data.getD (wirelessOffset data) 0 == wirelessUsageMarker

/-- What a usage frame delivers, unless it is refused before the bridge sees it. -/
def usageFrame (data : List UInt8) (nowUs : Nat) : Option (BitVec 32 × HostBridge.Sample) :=
  let frame := data.drop (wirelessOffset data)
  let sequence := readUint32Le frame 2
  let sample : HostBridge.Sample :=
    { remainingBasisPoints := readUint16Le frame 6
      resetEpoch := readUint32Le frame 8
      capturedEpoch := readUint32Le frame 12
      resetCredits := (frame.getD 16 0).toBitVec
      receivedAtMs := HostBridge.millis nowUs }
  if frame.length < wirelessUsageFrameSize then none
  else if (frame.drop wirelessUsageFrameSize).any (· != 0) then none
  else if frame.getD 1 0 ≠ wirelessUsageVersion then none
  else if fnv1a32 (frame.take wirelessUsageDataSize) ≠ readUint32Le frame wirelessUsageDataSize then
    none
  else if sequence = 0 ∨ sample.remainingBasisPoints > 10000 ∨ sample.capturedEpoch = 0 ∨
      sample.resetCredits > 99 then
    none
  else some (sequence, sample)

def onUsage (rx : Receiver) (data : List UInt8) (nowUs : Nat) : Receiver :=
  match usageFrame data nowUs with
  | none => { rx with wirelessUsageRejected := rx.wirelessUsageRejected + 1 }
  | some (sequence, sample) =>
    match HostBridge.apply rx.bridge false sequence sample with
    | (false, bridge) =>
      { rx with bridge := bridge, wirelessUsageRejected := rx.wirelessUsageRejected + 1 }
    | (true, bridge) =>
      { rx with bridge := bridge, wirelessUsageAccepted := rx.wirelessUsageAccepted + 1 }

/-- The bytes of `{"method"`. -/
def topLevelPrefix : List UInt8 := [123, 34, 109, 101, 116, 104, 111, 100, 34]

def startsTopLevel (payload : List UInt8) : Bool := topLevelPrefix.isPrefixOf payload

def rpcError (rx : Receiver) : Receiver := { rx with rpcErrors := rx.rpcErrors + 1 }

def appended (buffer payload : List UInt8) : List UInt8 :=
  if buffer = [] then payload.dropWhile (· != openBrace) else buffer ++ payload

def classify (rx : Receiver) (queued : Bool) : Receiver :=
  match rpcObjectState rx.rpcBuffer with
  | .invalid => { rpcError rx with rpcBuffer := [] }
  | .incomplete => rx
  | .complete =>
    let rx := if queued then rx else rpcError rx
    { rx with dispatched := rx.dispatched ++ [rx.rpcBuffer], rpcBuffer := [] }

def onPayload (rx : Receiver) (payload : List UInt8) (queued : Bool) : Receiver :=
  let buffer := if startsTopLevel payload then [] else rx.rpcBuffer
  if maxRpcBufferSize < buffer.length + payload.length then { rpcError rx with rpcBuffer := [] }
  else if buffer = [] ∧ payload.dropWhile (· != openBrace) = [] then { rx with rpcBuffer := [] }
  else classify { rx with rpcBuffer := appended buffer payload } queued

/-- A report that is no usage frame: two header bytes, after the report id if that came
along, and the payload. -/
def onRpcReport (rx : Receiver) (data : List UInt8) (queued : Bool) : Receiver :=
  let offset := if 3 ≤ data.length ∧ data.getD 0 0 = reportId then 1 else 0
  let payloadLength := (data.getD (offset + 1) 0).toNat
  if data.length < offset + 2 ∨ data.getD offset 0 ≠ 2 then rpcError rx
  else if payloadSize < payloadLength then { rpcError rx with rpcBuffer := [] }
  else if data.length < offset + 2 + payloadLength then rpcError rx
  else onPayload rx ((data.drop (offset + 2)).take payloadLength) queued

def onOutput (rx : Receiver) (report : Report) : Receiver :=
  let rx := { rx with rxReports := rx.rxReports + 1 }
  match report.data with
  | none => rpcError rx
  | some data =>
    if isWirelessUsage data then onUsage rx data report.nowUs
    else if data.length < 2 then rpcError rx
    else onRpcReport rx data report.queued

end Mosaico.Ble.HidOutput
