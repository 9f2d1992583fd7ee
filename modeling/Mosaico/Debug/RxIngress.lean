import Mathlib.Data.List.Basic
import Mathlib.Algebra.Group.Nat.Defs

/-! `parse` of `mosaico_rx_ingress.h`: the fixed fields of Ethernet, VLAN, IPv4 and TCP headers, taken from a received
frame through a reader. -/
namespace Mosaico.Debug.RxIngress

inductive Classification where
  | invalid | nonIpv4 | fragment | nonTcp | otherTcp | target
  deriving DecidableEq, Repr

structure Record where
  src : Nat := 0
  dst : Nat := 0
  seq : Nat := 0
  ack : Nat := 0
  ipLength : Nat := 0
  srcPort : Nat := 0
  dstPort : Nat := 0
  tcpPayloadLength : Nat := 0
  tcpFlags : Nat := 0
  ipHeaderLength : Nat := 0
  tcpHeaderLength : Nat := 0
  vlanTags : Nat := 0
  deriving DecidableEq, Repr

abbrev Read := Nat → Nat → Option (List UInt8)

abbrev Requests := List (Nat × Nat)

structure Outcome where
  classification : Classification
  record : Record
  requests : Requests
  deriving DecidableEq, Repr

def byteAt (bytes : List UInt8) (i : Nat) : Nat := (bytes.getD i 0).toNat

def be16 (bytes : List UInt8) (i : Nat) : Nat := byteAt bytes i * 256 + byteAt bytes (i + 1)

def be32 (bytes : List UInt8) (i : Nat) : Nat :=
  byteAt bytes i * 256 ^ 3 + byteAt bytes (i + 1) * 256 ^ 2 + byteAt bytes (i + 2) * 256 + byteAt bytes (i + 3)

def sizeSub (a b : Nat) : Nat := if b ≤ a then a - b else a + 2 ^ 32 - b

def isTag (type : Nat) : Bool := type == 0x8100 || type == 0x88a8

section

variable (read : Read) (len src port : Nat)

/-- From the TCP header on. -/
def parseTcp (off ih total : Nat) (r : Record) (requests : Requests) : Outcome :=
  if (total : Int) - ih < 20 then ⟨.invalid, r, requests⟩
  else
    let requests := requests ++ [(off + ih, 20)]
    match read (off + ih) 20 with
    | none => ⟨.invalid, r, requests⟩
    | some tcp =>
      let th := (byteAt tcp 12 >>> 4) * 4
      if th < 20 ∨ 60 < th ∨ (total : Int) - ih < th then ⟨.invalid, r, requests⟩
      else
        let r := { r with
          srcPort := be16 tcp 0
          dstPort := be16 tcp 2
          seq := be32 tcp 4
          ack := be32 tcp 8
          tcpFlags := byteAt tcp 13
          tcpHeaderLength := th % 2 ^ 8
          tcpPayloadLength := (total - ih - th) % 2 ^ 16 }
        ⟨if r.src = src ∧ r.srcPort = port then .target else .otherTcp, r, requests⟩

/-- From the type of the frame on, which no VLAN tag hides. -/
def parseIp (type off : Nat) (r : Record) (requests : Requests) : Outcome :=
  if type ≠ 0x0800 then ⟨.nonIpv4, r, requests⟩
  else if sizeSub len off < 20 then ⟨.invalid, r, requests⟩
  else
    let requests := requests ++ [(off, 20)]
    match read off 20 with
    | none => ⟨.invalid, r, requests⟩
    | some ip =>
      let ih := (byteAt ip 0 &&& 15) * 4
      let total := be16 ip 2
      if byteAt ip 0 >>> 4 ≠ 4 then ⟨.invalid, r, requests⟩
      else if ih < 20 ∨ 60 < ih ∨ total < ih ∨ sizeSub len off < total then ⟨.invalid, r, requests⟩
      else
        let r := { r with src := be32 ip 12, dst := be32 ip 16, ipLength := total, ipHeaderLength := ih % 2 ^ 8 }
        if be16 ip 6 &&& 0x3fff ≠ 0 then ⟨.fragment, r, requests⟩
        else if byteAt ip 9 ≠ 6 then ⟨.nonTcp, r, requests⟩
        else parseTcp read src port off ih total r requests

/-- The loop over the VLAN tags, for so many rounds. -/
def parseTags : Nat → Nat → Nat → Record → Requests → Option Outcome
  | rounds, type, off, r, requests =>
    if isTag type = false then some (parseIp read len src port type off r requests)
    else if r.vlanTags = 2 then some ⟨.invalid, r, requests⟩
    else if sizeSub len off < 4 then some ⟨.invalid, r, requests⟩
    else match read off 4 with
      | none => some ⟨.invalid, r, requests ++ [(off, 4)]⟩
      | some tag => match rounds with
        | 0 => none
        | rounds + 1 =>
          parseTags rounds (be16 tag 2) (off + 4) { r with vlanTags := (r.vlanTags + 1) % 2 ^ 8 }
            (requests ++ [(off, 4)])

def parse (r : Record) : Option Outcome :=
  if len < 14 then some ⟨.invalid, r, []⟩
  else match read 0 14 with
    | none => some ⟨.invalid, r, [(0, 14)]⟩
    | some eth => parseTags read len src port 256 (be16 eth 12) 14 r [(0, 14)]

end

def frameRead (frame : List UInt8) : Read := fun off n =>
  if off + n ≤ frame.length then some ((frame.drop off).take n) else none

/-- What `parse` has asked for is inside the frame. -/
def Inside (len : Nat) (requests : Requests) : Prop := ∀ q ∈ requests, q.1 + q.2 ≤ len

section Confined

variable {read : Read} {len src port off : Nat} {r : Record} {requests : Requests}

theorem sizeSub_eq (inside : off ≤ len) : sizeSub len off = len - off := if_pos inside

theorem inside_snoc {n : Nat} (h : Inside len requests) (here : off + n ≤ len) :
    Inside len (requests ++ [(off, n)]) := by
  intro q mem
  obtain before | last := List.mem_append.mp mem
  · exact h q before
  · rw [List.mem_singleton.mp last]
    exact here

private theorem parseTcp_inside {ih total : Nat} (h : Inside len requests) (fits : off + total ≤ len) :
    Inside len (parseTcp read src port off ih total r requests).requests ∧
      (parseTcp read src port off ih total r requests).record.vlanTags = r.vlanTags := by
  unfold parseTcp
  split
  · exact ⟨h, rfl⟩
  · have there : Inside len (requests ++ [(off + ih, 20)]) := inside_snoc h (by omega)
    dsimp only
    split
    · exact ⟨there, rfl⟩
    · split
      · exact ⟨there, rfl⟩
      · exact ⟨there, rfl⟩

theorem parseIp_inside {type : Nat} (h : Inside len requests) (inside : off ≤ len) :
    Inside len (parseIp read len src port type off r requests).requests ∧
      (parseIp read len src port type off r requests).record.vlanTags = r.vlanTags := by
  unfold parseIp
  rw [sizeSub_eq inside]
  split
  · exact ⟨h, rfl⟩
  · split
    · exact ⟨h, rfl⟩
    · have there : Inside len (requests ++ [(off, 20)]) := inside_snoc h (by omega)
      dsimp only
      split
      · exact ⟨there, rfl⟩
      · split
        · exact ⟨there, rfl⟩
        · split
          · exact ⟨there, rfl⟩
          · split
            · exact ⟨there, rfl⟩
            · split
              · exact ⟨there, rfl⟩
              · exact parseTcp_inside there (by omega)

/-- Whatever the reader answers, the loop ends at its second tag. -/
theorem parseTags_inside {rounds type : Nat} (h : Inside len requests) (inside : off ≤ len) (few : r.vlanTags ≤ 2)
    (enough : 2 ≤ rounds + r.vlanTags) : ∃ out, parseTags read len src port rounds type off r requests = some out ∧
      Inside len out.requests ∧ out.record.vlanTags ≤ 2 := by
  induction rounds generalizing type off r requests with
  | zero =>
    unfold parseTags
    split
    · obtain ⟨requested, tags⟩ := parseIp_inside h inside
      exact ⟨_, rfl, requested, by rw [tags]; exact few⟩
    · rw [if_pos (by omega)]
      exact ⟨_, rfl, h, few⟩
  | succ rounds ih =>
    unfold parseTags
    split
    · obtain ⟨requested, tags⟩ := parseIp_inside h inside
      exact ⟨_, rfl, requested, by rw [tags]; exact few⟩
    · split
      · exact ⟨_, rfl, h, few⟩
      · rw [sizeSub_eq inside]
        split
        · exact ⟨_, rfl, h, few⟩
        · have there : Inside len (requests ++ [(off, 4)]) := inside_snoc h (by omega)
          split
          · exact ⟨_, rfl, there, few⟩
          · have counted : (r.vlanTags + 1) % 2 ^ 8 = r.vlanTags + 1 := Nat.mod_eq_of_lt (by omega)
            apply ih there (by omega)
            · change (r.vlanTags + 1) % 2 ^ 8 ≤ 2
              omega
            · change 2 ≤ rounds + (r.vlanTags + 1) % 2 ^ 8
              omega

theorem parse_inside (few : r.vlanTags ≤ 2) : ∃ out, parse read len src port r = some out ∧
    Inside len out.requests ∧ out.record.vlanTags ≤ 2 := by
  unfold parse
  split
  · refine ⟨_, rfl, ?_, few⟩
    intro q mem
    cases mem
  · have there : Inside len [(0, 14)] := by
      intro q mem
      rw [List.mem_singleton.mp mem]
      change 0 + 14 ≤ len
      omega
    split
    · exact ⟨_, rfl, there, few⟩
    · exact parseTags_inside there (by omega) few (by omega)

end Confined

section Exact

variable {frame : List UInt8} {src port off : Nat} {r : Record} {requests : Requests}

theorem byteAt_lt (bytes : List UInt8) (i : Nat) : byteAt bytes i < 256 := (bytes.getD i 0).toNat_lt

theorem be16_lt (bytes : List UInt8) (i : Nat) : be16 bytes i < 2 ^ 16 := by
  have high := byteAt_lt bytes i
  have low := byteAt_lt bytes (i + 1)
  unfold be16
  omega

theorem nibbles {v : Nat} (h : v < 256) : (v &&& 15) * 4 ≤ 60 ∧ v >>> 4 * 4 ≤ 60 := by
  constructor
  · have low : v &&& 15 ≤ 15 := Nat.and_le_right
    omega
  · rw [Nat.shiftRight_eq_div_pow]
    omega

def ipHeader (frame : List UInt8) (off : Nat) : Nat := (byteAt frame off &&& 15) * 4

def tcpHeader (frame : List UInt8) (off : Nat) : Nat := (byteAt frame (off + ipHeader frame off + 12) >>> 4) * 4

/-- An unfragmented IPv4 datagram with a TCP header, whose lengths nest. -/
structure Datagram (frame : List UInt8) (off : Nat) : Prop where
  version : byteAt frame off >>> 4 = 4
  header : 20 ≤ ipHeader frame off
  unfragmented : be16 frame (off + 6) &&& 0x3fff = 0
  protocol : byteAt frame (off + 9) = 6
  tcp : 20 ≤ tcpHeader frame off
  nested : ipHeader frame off + tcpHeader frame off ≤ be16 frame (off + 2)
  total : be16 frame (off + 2) ≤ frame.length - off

/-- What is recorded of a datagram. -/
def received (frame : List UInt8) (off : Nat) (r : Record) : Record where
  src := be32 frame (off + 12)
  dst := be32 frame (off + 16)
  seq := be32 frame (off + ipHeader frame off + 4)
  ack := be32 frame (off + ipHeader frame off + 8)
  ipLength := be16 frame (off + 2)
  srcPort := be16 frame (off + ipHeader frame off)
  dstPort := be16 frame (off + ipHeader frame off + 2)
  tcpPayloadLength := be16 frame (off + 2) - ipHeader frame off - tcpHeader frame off
  tcpFlags := byteAt frame (off + ipHeader frame off + 13)
  ipHeaderLength := ipHeader frame off
  tcpHeaderLength := tcpHeader frame off
  vlanTags := r.vlanTags

def Classification.taken (c : Classification) : Bool := c == .target || c == .otherTcp

theorem frameRead_inside {n : Nat} (inside : off + n ≤ frame.length) :
    frameRead frame off n = some ((frame.drop off).take n) := if_pos inside

theorem byteAt_slice {n i : Nat} (h : i < n) : byteAt ((frame.drop off).take n) i = byteAt frame (off + i) := by
  unfold byteAt
  rw [List.getD_eq_getElem?_getD, List.getD_eq_getElem?_getD, List.getElem?_take_of_lt h, List.getElem?_drop]

theorem be16_slice {n i : Nat} (h : i + 1 < n) : be16 ((frame.drop off).take n) i = be16 frame (off + i) := by
  unfold be16
  rw [byteAt_slice (by omega), byteAt_slice h, Nat.add_assoc]

theorem be32_slice {n i : Nat} (h : i + 3 < n) : be32 ((frame.drop off).take n) i = be32 frame (off + i) := by
  unfold be32
  rw [byteAt_slice (by omega), byteAt_slice (by omega), byteAt_slice (by omega), byteAt_slice h,
    Nat.add_assoc off i 1, Nat.add_assoc off i 2, Nat.add_assoc off i 3]

/-- The TCP part is taken where its header fits into the datagram. -/
theorem parseTcp_exact {ih total : Nat} (header : ih ≤ total) (inside : off + total ≤ frame.length) :
    let th := byteAt frame (off + ih + 12) >>> 4 * 4
    let out := parseTcp (frameRead frame) src port off ih total r requests
    (out.classification.taken = true ↔ 20 ≤ th ∧ ih + th ≤ total) ∧
      (20 ≤ th → ih + th ≤ total →
        out.record = { r with
          srcPort := be16 frame (off + ih)
          dstPort := be16 frame (off + ih + 2)
          seq := be32 frame (off + ih + 4)
          ack := be32 frame (off + ih + 8)
          tcpFlags := byteAt frame (off + ih + 13)
          tcpHeaderLength := th % 2 ^ 8
          tcpPayloadLength := (total - ih - th) % 2 ^ 16 } ∧
        (out.classification = .target ↔ r.src = src ∧ be16 frame (off + ih) = port)) := by
  dsimp only
  unfold parseTcp
  by_cases short : (total : Int) - ih < 20
  · rw [if_pos short]
    constructor
    · constructor
      · intro taken
        cases taken
      · intro fits
        omega
    · intro large fits
      omega
  · rw [if_neg short, frameRead_inside (by omega)]
    dsimp only
    rw [byteAt_slice (by decide), byteAt_slice (by decide), be16_slice (by decide), be16_slice (by decide),
      be32_slice (by decide), be32_slice (by decide), Nat.add_zero]
    have small := (nibbles (byteAt_lt frame (off + ih + 12))).2
    generalize byteAt frame (off + ih + 12) >>> 4 * 4 = th at small
    by_cases fits : 20 ≤ th ∧ ih + th ≤ total
    · rw [if_neg (by omega)]
      constructor
      · constructor
        · intro _
          exact fits
        · intro _
          dsimp only
          split <;> rfl
      · intro _ _
        constructor
        · rfl
        · dsimp only
          split
          · exact iff_of_true rfl (by assumption)
          · exact iff_of_false (by decide) (by assumption)
    · rw [if_pos (by omega)]
      constructor
      · constructor
        · intro taken
          cases taken
        · intro other
          exact absurd other fits
      · intro large nested
        exact absurd ⟨large, nested⟩ fits

/-- An outcome is a recorded datagram where `datagram` holds, and none of TCP elsewhere. -/
structure Classified (frame : List UInt8) (src port off : Nat) (r : Record) (datagram : Prop)
    (out : Outcome) : Prop where
  taken : out.classification.taken = true ↔ datagram
  record : datagram → out.record = received frame off r
  target : datagram → (out.classification = .target ↔
    be32 frame (off + 12) = src ∧ be16 frame (off + ipHeader frame off) = port)

private theorem classified_refused {datagram : Prop} {out : Outcome} (left : out.classification.taken = false)
    (other : ¬datagram) : Classified frame src port off r datagram out where
  taken := iff_of_false (by rw [left]; decide) other
  record is := absurd is other
  target is := absurd is other

theorem parseIp_exact (inside : off ≤ frame.length) : Classified frame src port off r (Datagram frame off)
    (parseIp (frameRead frame) frame.length src port 0x0800 off r requests) := by
  unfold parseIp
  rw [sizeSub_eq inside, if_neg (by decide)]
  by_cases room : frame.length - off < 20
  · rw [if_pos room]
    apply classified_refused rfl
    intro d
    have header := d.header
    have nested := d.nested
    have total := d.total
    omega
  · rw [if_neg room, frameRead_inside (by omega)]
    dsimp only
    have small := (nibbles (byteAt_lt frame off)).1
    have header : (byteAt frame off &&& 15) * 4 = ipHeader frame off := rfl
    rw [byteAt_slice (by decide), byteAt_slice (by decide), be16_slice (by decide), be16_slice (by decide),
      be32_slice (by decide), be32_slice (by decide), Nat.add_zero, header]
    rw [header] at small
    by_cases version : byteAt frame off >>> 4 = 4
    · rw [if_neg (not_not_intro version)]
      by_cases lengths : ipHeader frame off < 20 ∨ 60 < ipHeader frame off ∨
          be16 frame (off + 2) < ipHeader frame off ∨ frame.length - off < be16 frame (off + 2)
      · rw [if_pos lengths]
        apply classified_refused rfl
        intro d
        have header := d.header
        have nested := d.nested
        have total := d.total
        omega
      · rw [if_neg lengths]
        by_cases fragment : be16 frame (off + 6) &&& 0x3fff = 0
        · rw [if_neg (not_not_intro fragment)]
          by_cases protocol : byteAt frame (off + 9) = 6
          · rw [if_neg (not_not_intro protocol)]
            obtain ⟨taken, record⟩ := @parseTcp_exact frame src port off
              { r with
                src := be32 frame (off + 12)
                dst := be32 frame (off + 16)
                ipLength := be16 frame (off + 2)
                ipHeaderLength := ipHeader frame off % 2 ^ 8 }
              (requests ++ [(off, 20)]) (ipHeader frame off) (be16 frame (off + 2)) (by omega) (by omega)
            have thl : byteAt frame (off + ipHeader frame off + 12) >>> 4 * 4 = tcpHeader frame off := rfl
            have least := (nibbles (byteAt_lt frame (off + ipHeader frame off + 12))).2
            rw [thl] at taken record least
            constructor
            · rw [taken]
              constructor
              · rintro ⟨large, nested⟩
                exact ⟨version, by omega, fragment, protocol, large, nested, by omega⟩
              · intro d
                exact ⟨d.tcp, d.nested⟩
            · intro d
              have total := be16_lt frame (off + 2)
              rw [(record d.tcp d.nested).1, Nat.mod_eq_of_lt (show tcpHeader frame off < 2 ^ 8 by omega),
                Nat.mod_eq_of_lt (show ipHeader frame off < 2 ^ 8 by omega), Nat.mod_eq_of_lt (by omega)]
              rfl
            · intro d
              exact (record d.tcp d.nested).2
          · rw [if_pos protocol]
            apply classified_refused rfl
            intro d
            exact protocol d.protocol
        · rw [if_pos fragment]
          apply classified_refused rfl
          intro d
          exact fragment d.unfragmented
    · rw [if_pos version]
      apply classified_refused rfl
      intro d
      exact version d.version

/-- The type behind `k` VLAN tags. -/
def etherType (frame : List UInt8) (k : Nat) : Nat := be16 frame (12 + 4 * k)

def linkHeader (k : Nat) : Nat := 14 + 4 * k

/-- A frame with a TCP segment behind `k` VLAN tags, of which there are at most two. -/
structure Segment (frame : List UInt8) (k : Nat) : Prop where
  few : k ≤ 2
  tags : ∀ i < k, isTag (etherType frame i) = true
  type : etherType frame k = 0x0800
  datagram : Datagram frame (linkHeader k)

theorem datagram_room {frame : List UInt8} {off : Nat} (d : Datagram frame off) : off + 40 ≤ frame.length := by
  have header := d.header
  have tcp := d.tcp
  have nested := d.nested
  have total := d.total
  omega

/-- The outcome for a frame: taken where there is a segment, and with what is received of it. -/
structure Settled (frame : List UInt8) (src port : Nat) (out : Outcome) : Prop where
  taken : out.classification.taken = true ↔ ∃ k, Segment frame k
  record : ∀ k, Segment frame k → out.record = received frame (linkHeader k) { vlanTags := k }
  target : ∀ k, Segment frame k → (out.classification = .target ↔
    be32 frame (linkHeader k + 12) = src ∧ be16 frame (linkHeader k + ipHeader frame (linkHeader k)) = port)

theorem settled_refused {out : Outcome} (left : out.classification.taken = false) (other : ∀ k, ¬Segment frame k) :
    Settled frame src port out where
  taken := iff_of_false (by rw [left]; decide) fun ⟨k, segment⟩ => other k segment
  record k segment := absurd segment (other k)
  target k segment := absurd segment (other k)

theorem tags_le {tags k : Nat} (before : ∀ i < tags, isTag (etherType frame i) = true) (segment : Segment frame k) :
    tags ≤ k := by
  by_contra less
  have tag := before k (by omega)
  rw [segment.type] at tag
  exact absurd tag (by decide)

theorem settled_ip {tags : Nat} (inside : linkHeader tags ≤ frame.length) (count : r.vlanTags = tags) (few : tags ≤ 2)
    (before : ∀ i < tags, isTag (etherType frame i) = true) (type : isTag (etherType frame tags) = false) :
    Settled frame src port
      (parseIp (frameRead frame) frame.length src port (etherType frame tags) (linkHeader tags) r requests) := by
  have only : ∀ k, Segment frame k → k = tags := by
    intro k segment
    have least := tags_le before segment
    by_contra more
    have tag := segment.tags tags (by omega)
    rw [type] at tag
    cases tag
  by_cases ip : etherType frame tags = 0x0800
  · rw [ip]
    have exact := @parseIp_exact frame src port (linkHeader tags) r requests inside
    constructor
    · rw [exact.taken]
      constructor
      · intro d
        exact ⟨tags, few, before, ip, d⟩
      · rintro ⟨k, segment⟩
        rw [← only k segment]
        exact segment.datagram
    · intro k segment
      have here := only k segment
      subst here
      rw [exact.record segment.datagram]
      unfold received
      rw [count]
    · intro k segment
      have here := only k segment
      subst here
      exact exact.target segment.datagram
  · unfold parseIp
    rw [if_pos ip]
    apply settled_refused rfl
    intro k segment
    rw [← only k segment] at ip
    exact ip segment.type

/-- From any number of tags on, of which all were tags. -/
theorem parseTags_exact {rounds tags : Nat} (inside : linkHeader tags ≤ frame.length) (count : r.vlanTags = tags)
    (few : tags ≤ 2) (enough : 2 ≤ rounds + tags) (before : ∀ i < tags, isTag (etherType frame i) = true) :
    ∃ out, parseTags (frameRead frame) frame.length src port rounds (etherType frame tags)
      (linkHeader tags) r requests = some out ∧ Settled frame src port out := by
  induction rounds generalizing tags r requests with
  | zero =>
    unfold parseTags
    by_cases type : isTag (etherType frame tags) = false
    · rw [if_pos type]
      exact ⟨_, rfl, settled_ip inside count few before type⟩
    · rw [if_neg type, if_pos (by omega)]
      refine ⟨_, rfl, settled_refused rfl ?_⟩
      intro k segment
      have least := tags_le before segment
      have most := segment.few
      have last : k = tags := by omega
      rw [← last, segment.type] at type
      exact type (by decide)
  | succ rounds ih =>
    unfold parseTags
    by_cases type : isTag (etherType frame tags) = false
    · rw [if_pos type]
      exact ⟨_, rfl, settled_ip inside count few before type⟩
    · rw [if_neg type]
      have more : ∀ k, Segment frame k → tags < k := by
        intro k segment
        have least := tags_le before segment
        by_contra same
        have last : k = tags := by omega
        rw [← last, segment.type] at type
        exact type (by decide)
      by_cases limit : r.vlanTags = 2
      · rw [if_pos limit]
        refine ⟨_, rfl, settled_refused rfl ?_⟩
        intro k segment
        have above := more k segment
        have most := segment.few
        omega
      · rw [if_neg limit, sizeSub_eq inside]
        by_cases room : frame.length - linkHeader tags < 4
        · rw [if_pos room]
          refine ⟨_, rfl, settled_refused rfl ?_⟩
          intro k segment
          have above := more k segment
          have space := datagram_room segment.datagram
          unfold linkHeader at room space
          omega
        · rw [if_neg room, frameRead_inside (by omega)]
          dsimp only
          have next : be16 ((frame.drop (linkHeader tags)).take 4) 2 = etherType frame (tags + 1) := by
            rw [be16_slice (by decide)]
            unfold etherType linkHeader
            congr 1
            omega
          have place : linkHeader tags + 4 = linkHeader (tags + 1) := by
            unfold linkHeader
            omega
          rw [next, place]
          apply ih
          · rw [← place]
            omega
          · change (r.vlanTags + 1) % 2 ^ 8 = tags + 1
            omega
          · omega
          · omega
          · intro i hi
            obtain earlier | here := Nat.lt_succ_iff_lt_or_eq.mp hi
            · exact before i earlier
            · rw [here]
              simpa using type

theorem parse_exact (r : Record) (fresh : r.vlanTags = 0) :
    ∃ out, parse (frameRead frame) frame.length src port r = some out ∧ Settled frame src port out := by
  unfold parse
  by_cases short : frame.length < 14
  · rw [if_pos short]
    refine ⟨_, rfl, settled_refused rfl ?_⟩
    intro k segment
    have space := datagram_room segment.datagram
    omega
  · rw [if_neg short, frameRead_inside (by omega)]
    have type : be16 ((frame.drop 0).take 14) 12 = etherType frame 0 := be16_slice (by decide)
    dsimp only
    rw [type]
    apply @parseTags_exact frame src port r [(0, 14)] 256 0
    · change 14 + 4 * 0 ≤ frame.length
      omega
    · exact fresh
    · omega
    · omega
    · intro i none
      omega

end Exact

/-- `parse` asks for ranges inside the frame only, whatever its reader answers, and counts two tags at most. With a
reader of the frame it takes exactly the segments, and what it records of one nests inside the frame. -/
theorem parse_confined_exact (frame : List UInt8) (src port : Nat) (r : Record) :
    (∀ read len, ∃ out, parse read len src port { r with vlanTags := 0 } = some out ∧ Inside len out.requests ∧
        out.record.vlanTags ≤ 2) ∧
      ∃ out, parse (frameRead frame) frame.length src port { r with vlanTags := 0 } = some out ∧
        Settled frame src port out ∧
        ∀ k, Segment frame k →
          out.record.ipHeaderLength + out.record.tcpHeaderLength + out.record.tcpPayloadLength = out.record.ipLength ∧
          out.record.ipLength ≤ frame.length - linkHeader k := by
  constructor
  · intro read len
    exact parse_inside (Nat.zero_le 2)
  · obtain ⟨out, parsed, settled⟩ := @parse_exact frame src port { r with vlanTags := 0 } rfl
    refine ⟨out, parsed, settled, ?_⟩
    intro k segment
    rw [settled.record k segment]
    have nested := segment.datagram.nested
    constructor
    · change ipHeader frame (linkHeader k) + tcpHeader frame (linkHeader k) + (be16 frame (linkHeader k + 2) -
        ipHeader frame (linkHeader k) - tcpHeader frame (linkHeader k)) = be16 frame (linkHeader k + 2)
      omega
    · exact segment.datagram.total

end Mosaico.Debug.RxIngress
