import Mosaico.Library.ClassicBpf

/-! `mosaico_lan_tcp_headers.py`: the capture filter it assembles, and the parser of the headers
that the filter lets through. -/
namespace Mosaico.Lan

open ClassicBpf

abbrev maxSnap : Nat := 102

inductive Label where
  | base14 | tag0 | vlan1 | tag0ad | reject | base18 | tag1 | vlan2 | tag1ad | base22
  | ip | ihl | ihlOk | proto | src | fromLocal | srcPeer | fromPeer | outbound | tcp | inbound
  | tcpLen | lengthUnknown | lengthKnown | totalOk | frameLength | frameOk
  | serverSrc | serverDst | accept
  deriving DecidableEq, Repr

/-- A row of the assembler; a plain jump has its label where others have `k`. -/
structure Row where
  code : Code
  k : Nat := 0
  target : Label := .reject
  yes : Label := .reject
  no : Label := .reject

inductive Line where
  | label (name : Label)
  | emit (row : Row)

structure Assembler where
  rows : List Row := []
  labels : List (Label × Nat) := []

def Assembler.take (a : Assembler) : Line → Option Assembler
  | .label name =>
    if (a.labels.lookup name).isSome then none
    else some { a with labels := (name, a.rows.length) :: a.labels }
  | .emit row => some { a with rows := a.rows ++ [row] }

def distance (labels : List (Label × Nat)) (position : Nat) (name : Label) : Option Int :=
  (labels.lookup name).map fun target => (target : Int) - position - 1

/-- A conditional jump has a byte for each of its distances, a plain one is forward. -/
def resolve (labels : List (Label × Nat)) (position : Nat) (row : Row) : Option Insn := do
  match row.code with
  | .ja =>
    let k ← distance labels position row.target
    if k < 0 then none
    return { code := row.code, k := k.toNat }
  | .jeqK | .jgeK | .jgeX =>
    let jt ← distance labels position row.yes
    let jf ← distance labels position row.no
    if ¬ (0 ≤ jt ∧ jt ≤ 255 ∧ 0 ≤ jf ∧ jf ≤ 255) then none
    return { code := row.code, jt := jt.toNat, jf := jf.toNat, k := row.k }
  | _ => return { code := row.code, k := row.k }

def resolveAll (labels : List (Label × Nat)) : Nat → List Row → Option (List Insn)
  | _, [] => some []
  | position, row :: rest => do
    let insn ← resolve labels position row
    let insns ← resolveAll labels (position + 1) rest
    return insn :: insns

def Assembler.finish (a : Assembler) : Option (List Insn) := resolveAll a.labels 0 a.rows

def assemble (lines : List Line) : Option (List Insn) := do
  let a ← lines.foldlM Assembler.take {}
  a.finish

def e (code : Code) (k : Nat := 0) : Line := .emit { code := code, k := k }

def jump (name : Label) : Line := .emit { code := .ja, target := name }

def when (code : Code) (k : Nat) (yes no : Label) : Line :=
  .emit { code := code, k := k, yes := yes, no := no }

/-- Scratch: M0 link length, M1 IP header length, M2 IP total, M3 direction, M4 TCP header length. -/
def filterLines (localIp peerIp port : Nat) : List Line :=
  [e .ldHAbs 12,
    when .jeqK 0x0800 .base14 .tag0,
    .label .tag0, when .jeqK 0x8100 .vlan1 .tag0ad,
    .label .tag0ad, when .jeqK 0x88A8 .vlan1 .reject,
    .label .vlan1, e .ldHAbs 16,
    when .jeqK 0x0800 .base18 .tag1,
    .label .tag1, when .jeqK 0x8100 .vlan2 .tag1ad,
    .label .tag1ad, when .jeqK 0x88A8 .vlan2 .reject,
    .label .vlan2, e .ldHAbs 20,
    when .jeqK 0x0800 .base22 .reject,
    .label .base14, e .ldImm 14, e .st 0, jump .ip,
    .label .base18, e .ldImm 18, e .st 0, jump .ip,
    .label .base22, e .ldImm 22, e .st 0, jump .ip,
    .label .ip, e .ldxMem 0, e .ldBInd 0, e .andK 0xF0,
    when .jeqK 0x40 .ihl .reject,
    .label .ihl, e .ldBInd 0, e .andK 15,
    when .jgeK 5 .ihlOk .reject,
    .label .ihlOk, e .lshK 2, e .st 1,
    e .ldHInd 2, e .st 2,
    e .ldHInd 6, e .andK 0x3FFF,
    when .jeqK 0 .proto .reject,
    .label .proto, e .ldBInd 9,
    when .jeqK 6 .src .reject,
    .label .src, e .ldWInd 12,
    when .jeqK localIp .fromLocal .srcPeer,
    .label .srcPeer, when .jeqK peerIp .fromPeer .reject,
    .label .fromLocal, e .ldWInd 16,
    when .jeqK peerIp .outbound .reject,
    .label .outbound, e .ldImm 1, e .st 3, jump .tcp,
    .label .fromPeer, e .ldWInd 16,
    when .jeqK localIp .inbound .reject,
    .label .inbound, e .ldImm 2, e .st 3,
    .label .tcp, e .ldMem 0, e .ldxMem 1, e .addX, e .tax,
    e .ldBInd 12, e .andK 0xF0, e .rshK 2,
    when .jgeK 20 .tcpLen .reject,
    .label .tcpLen, e .st 4, e .ldxMem 1, e .addX, e .tax,
    e .ldMem 2, when .jeqK 0 .lengthUnknown .lengthKnown,
    .label .lengthKnown, when .jgeX 0 .totalOk .reject,
    .label .totalOk, e .ldMem 0, e .ldxMem 2, e .addX, e .tax, jump .frameLength,
    .label .lengthUnknown, e .ldMem 0, e .addX, e .tax,
    .label .frameLength, e .ldLen, when .jgeX 0 .frameOk .reject,
    .label .frameOk, e .ldMem 0, e .ldxMem 1, e .addX, e .tax,
    e .ldBInd 19,
    e .ldMem 3, when .jeqK 1 .serverSrc .serverDst,
    .label .serverSrc, e .ldHInd 0,
    when .jeqK port .accept .reject,
    .label .serverDst, e .ldHInd 2,
    when .jeqK port .accept .reject,
    .label .accept, e .txa, e .addK 20, e .retA,
    .label .reject, e .retK 0]

def buildFilter (localIp peerIp : UInt32) (port : UInt16) : Option (List Insn) :=
  assemble (filterLines localIp.toNat peerIp.toNat port.toNat)

structure Header where
  src : Nat
  dst : Nat
  sport : Nat
  dport : Nat
  seq : Nat
  ack : Nat
  flags : Nat
  win : Nat
  ipLen : Nat
  headerLen : Nat
  payloadLen : Int
  direction : Nat
  lengthUnknown : Nat
  originalFrameLen : Nat
  deriving DecidableEq, Repr

section Parser

def readField (reader : Nat → Nat → Nat) (caplen offset size : Nat) : Option Nat :=
  if offset + size > caplen then none else some (reader offset size)

/-- Up to `n` VLAN tags in front of the type of the frame. -/
def skipTags (read : Nat → Nat → Option Nat) : Nat → Nat → Nat → Option (Nat × Nat)
  | 0, ether, link => some (ether, link)
  | n + 1, ether, link =>
    if ether = 0x8100 ∨ ether = 0x88A8 then do
      let next ← read (link + 2) 2
      skipTags read n next (link + 4)
    else some (ether, link)

/-- Which way a frame goes; 1 is sent here, 2 is received. -/
def directionOf (src dst localIp peerIp : Nat) : Option Nat :=
  if src = localIp ∧ dst = peerIp then some 1
  else if src = peerIp ∧ dst = localIp then some 2
  else none

def parseHeader (reader : Nat → Nat → Nat) (caplen wireLen : Nat) (localIp peerIp : UInt32)
    (port : UInt16) : Option Header := do
  let read := readField reader caplen
  if ¬ (54 ≤ caplen ∧ caplen ≤ maxSnap) ∨ wireLen < caplen then none
  let ether ← read 12 2
  let (ether, link) ← skipTags read 2 ether 14
  if ether ≠ 0x0800 then none
  let vihl ← read link 1
  let ihl := (vihl &&& 15) * 4
  if vihl >>> 4 ≠ 4 ∨ ihl < 20 then none
  let tcp := link + ihl
  if caplen ≠ tcp + 20 then none
  let total ← read (link + 2) 2
  let fragment ← read (link + 6) 2
  let protocol ← read (link + 9) 1
  if fragment &&& 0x3FFF ≠ 0 ∨ protocol ≠ 6 then none
  let src ← read (link + 12) 4
  let dst ← read (link + 16) 4
  let direction ← directionOf src dst localIp.toNat peerIp.toNat
  let sport ← read tcp 2
  let dport ← read (tcp + 2) 2
  if (if direction = 1 then sport else dport) ≠ port.toNat then none
  let dataOffset ← read (tcp + 12) 1
  let tcpLength := (dataOffset >>> 4) * 4
  let headerLength := ihl + tcpLength
  if tcpLength < 20 ∨ (total ≠ 0 ∧ total < headerLength) ∨
      wireLen < link + (if total ≠ 0 then total else headerLength) then none
  let seq ← read (tcp + 4) 4
  let ack ← read (tcp + 8) 4
  let low ← read (tcp + 13) 1
  let win ← read (tcp + 14) 2
  return {
    src := src
    dst := dst
    sport := sport
    dport := dport
    seq := seq
    ack := ack
    flags := ((dataOffset &&& 1) <<< 8) ||| low
    win := win
    ipLen := total
    headerLen := headerLength
    payloadLen := if total ≠ 0 then (total : Int) - headerLength else -1
    direction := direction
    lengthUnknown := if total = 0 then 1 else 0
    originalFrameLen := wireLen }

/-- The reader of the first `n` bytes of a packet. -/
def frontReader (p : Packet) (n offset size : Nat) : Nat :=
  bigEndian (((p.bytes.take n).drop offset).take size)

end Parser

end Mosaico.Lan
