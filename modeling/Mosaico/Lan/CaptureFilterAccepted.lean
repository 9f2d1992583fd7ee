import Mosaico.Lan.CaptureFilterRun

/-! The filter lets through what the parser takes. -/
namespace Mosaico.Lan

open ClassicBpf

section Filter

variable {p : Packet} {localIp peerIp port link ihl total direction tcp limit n : Nat}

theorem serverValue_eq :
    serverValue p tcp direction port = some n ↔
      load p.bytes (if direction = 1 then tcp else tcp + 2) 2 = some port ∧ n = tcp + 20 := by
  unfold serverValue
  cases load p.bytes (if direction = 1 then tcp else tcp + 2) 2 with
  | none => simp
  | some v =>
    by_cases same : v = port
    · simp [same, eq_comm]
    · simp [same]

theorem frameOkValue_eq :
    frameOkValue p tcp direction port = some n ↔
      tcp + 20 ≤ p.bytes.length ∧
        load p.bytes (if direction = 1 then tcp else tcp + 2) 2 = some port ∧ n = tcp + 20 := by
  rw [← serverValue_eq, frameOkValue, load]
  split_ifs with room
  · simp [show tcp + 20 ≤ p.bytes.length from room]
  · simp [show ¬ tcp + 20 ≤ p.bytes.length from room]

theorem lengthsValue_eq {tcpLength : Nat} :
    lengthsValue p link ihl tcpLength total direction port = some n ↔
      ¬ (total ≠ 0 ∧ total < ihl + tcpLength) ∧
        ¬ p.bytes.length < link + (if total ≠ 0 then total else ihl + tcpLength) ∧
        frameOkValue p (link + ihl) direction port = some n := by
  unfold lengthsValue frameLengthValue
  by_cases zero : total = 0
  · simp [zero]
  · simp [zero]

theorem tcpValue_eq :
    tcpValue p link ihl total direction port = some n ↔
      ∃ dataOffset, load p.bytes (link + ihl + 12) 1 = some dataOffset ∧
        20 ≤ dataOffset >>> 4 * 4 ∧
        lengthsValue p link ihl (dataOffset >>> 4 * 4) total direction port = some n := by
  unfold tcpValue
  simp [Option.bind_eq_some_iff]

theorem srcValue_eq :
    srcValue p localIp peerIp port link ihl total = some n ↔
      ∃ src dst direction, load p.bytes (link + 12) 4 = some src ∧
        load p.bytes (link + 16) 4 = some dst ∧
        directionOf src dst localIp peerIp = some direction ∧
        tcpValue p link ihl total direction port = some n := by
  unfold srcValue directionOf
  cases load p.bytes (link + 12) 4 with
  | none => simp
  | some src =>
    cases load p.bytes (link + 16) 4 with
    | none =>
      simp only [Option.bind_eq_bind, Option.bind_some, Option.bind_none]
      split_ifs <;> simp
    | some dst =>
      simp only [Option.bind_eq_bind, Option.bind_some, Option.some.injEq]
      constructor
      · intro h
        split_ifs at h with sent there received back
        · exact ⟨src, dst, 1, rfl, rfl, if_pos ⟨sent, there⟩, h⟩
        · refine ⟨src, dst, 2, rfl, rfl, ?_, h⟩
          rw [if_neg fun both => sent both.1, if_pos ⟨received, back⟩]
      · rintro ⟨_, _, direction, rfl, rfl, way, h⟩
        split_ifs at way with sent received
        · cases way
          rw [if_pos sent.1, if_pos sent.2]
          exact h
        · cases way
          -- a frame of the one host to itself would be sent here
          have other : src ≠ localIp := fun same =>
            sent ⟨same, by rw [received.2, ← same, received.1]⟩
          rw [if_neg other, if_pos received.1, if_pos received.2]
          exact h

theorem ihlOkValue_eq :
    ihlOkValue p localIp peerIp port link ihl = some n ↔
      ∃ total fragment protocol, load p.bytes (link + 2) 2 = some total ∧
        load p.bytes (link + 6) 2 = some fragment ∧ load p.bytes (link + 9) 1 = some protocol ∧
        ¬ (fragment &&& 0x3FFF ≠ 0 ∨ protocol ≠ 6) ∧
        srcValue p localIp peerIp port link ihl total = some n := by
  unfold ihlOkValue
  constructor
  · intro h
    obtain ⟨total, htotal, h⟩ := Option.bind_eq_some_iff.mp h
    obtain ⟨fragment, hfragment, h⟩ := Option.bind_eq_some_iff.mp h
    split_ifs at h with whole
    obtain ⟨protocol, hprotocol, h⟩ := Option.bind_eq_some_iff.mp h
    split_ifs at h with isTcp
    exact ⟨total, fragment, protocol, htotal, hfragment, hprotocol, by omega, h⟩
  · rintro ⟨total, fragment, protocol, htotal, hfragment, hprotocol, both, h⟩
    have whole : fragment &&& 0x3FFF = 0 := by omega
    have isTcp : protocol = 6 := by omega
    simp [htotal, hfragment, hprotocol, whole, isTcp, h]

theorem ipValue_eq :
    ipValue p localIp peerIp port link = some n ↔
      ∃ vihl, load p.bytes link 1 = some vihl ∧ ¬ (vihl >>> 4 ≠ 4 ∨ (vihl &&& 15) * 4 < 20) ∧
        ihlOkValue p localIp peerIp port link ((vihl &&& 15) * 4) = some n := by
  unfold ipValue
  constructor
  · intro h
    obtain ⟨vihl, hvihl, h⟩ := Option.bind_eq_some_iff.mp h
    split_ifs at h with four room
    exact ⟨vihl, hvihl, by omega, h⟩
  · rintro ⟨vihl, hvihl, both, h⟩
    have four : vihl >>> 4 = 4 := by omega
    have room : 5 ≤ vihl &&& 15 := by omega
    simp [hvihl, four, room, h]

/-- The same tags in front, for a reader of the whole packet. -/
theorem typeValue_eq {k : Nat} (two : 2 ≤ link) :
    typeValue p localIp peerIp port k link = some n ↔
      ∃ ether link', load p.bytes (link - 2) 2 = some ether ∧
        skipTags (load p.bytes) k ether link = some (0x0800, link') ∧
        ipValue p localIp peerIp port link' = some n := by
  induction k generalizing link with
  | zero =>
    simp only [typeValue, skipTags, Option.bind_eq_bind, Option.bind_eq_some_iff, Option.some.injEq,
      Prod.mk.injEq]
    constructor
    · rintro ⟨ether, found, h⟩
      split_ifs at h with header
      exact ⟨ether, link, found, ⟨header, rfl⟩, h⟩
    · rintro ⟨ether, _, found, ⟨header, rfl⟩, h⟩
      exact ⟨ether, found, by rw [if_pos header]; exact h⟩
  | succ k ih =>
    simp only [typeValue, skipTags, Option.bind_eq_bind, Option.bind_eq_some_iff]
    constructor
    · rintro ⟨ether, found, h⟩
      split_ifs at h with header tag
      · refine ⟨ether, link, found, ?_, h⟩
        rw [if_neg (by omega), header]
      · obtain ⟨next, link', foundNext, skipped, h⟩ := (ih (by omega)).mp h
        refine ⟨ether, link', found, ?_, h⟩
        rw [if_pos tag, show link + 2 = link + 4 - 2 by omega, foundNext]
        exact skipped
    · rintro ⟨ether, link', found, skipped, h⟩
      refine ⟨ether, found, ?_⟩
      split_ifs at skipped with tag
      · obtain ⟨next, foundNext, skipped⟩ := Option.bind_eq_some_iff.mp skipped
        rw [if_neg (by omega), if_pos tag]
        exact (ih (by omega)).mpr ⟨next, link', foundNext, skipped, h⟩
      · cases skipped
        rw [if_pos rfl]
        exact h

end Filter

/-- What the headers of a captured frame hold; its TCP header is `link + (vihl &&& 15) * 4` bytes
in. -/
structure Captured (p : Packet) (localIp peerIp port n : Nat) where
  ether : Nat
  link : Nat
  vihl : Nat
  total : Nat
  fragment : Nat
  protocol : Nat
  src : Nat
  dst : Nat
  direction : Nat
  dataOffset : Nat
  ether_eq : load p.bytes 12 2 = some ether
  tags : skipTags (load p.bytes) 2 ether 14 = some (0x0800, link)
  vihl_eq : load p.bytes link 1 = some vihl
  version : ¬ (vihl >>> 4 ≠ 4 ∨ (vihl &&& 15) * 4 < 20)
  total_eq : load p.bytes (link + 2) 2 = some total
  fragment_eq : load p.bytes (link + 6) 2 = some fragment
  protocol_eq : load p.bytes (link + 9) 1 = some protocol
  whole : ¬ (fragment &&& 0x3FFF ≠ 0 ∨ protocol ≠ 6)
  src_eq : load p.bytes (link + 12) 4 = some src
  dst_eq : load p.bytes (link + 16) 4 = some dst
  way : directionOf src dst localIp peerIp = some direction
  dataOffset_eq : load p.bytes (link + (vihl &&& 15) * 4 + 12) 1 = some dataOffset
  fixed : 20 ≤ dataOffset >>> 4 * 4
  datagram : ¬ (total ≠ 0 ∧ total < (vihl &&& 15) * 4 + dataOffset >>> 4 * 4)
  frame : ¬ p.bytes.length <
    link + (if total ≠ 0 then total else (vihl &&& 15) * 4 + dataOffset >>> 4 * 4)
  room : link + (vihl &&& 15) * 4 + 20 ≤ p.bytes.length
  server : load p.bytes (if direction = 1 then link + (vihl &&& 15) * 4
    else link + (vihl &&& 15) * 4 + 2) 2 = some port
  front : n = link + (vihl &&& 15) * 4 + 20

section Captured

variable {p : Packet} {localIp peerIp port n : Nat}

theorem typeValue_captured :
    typeValue p localIp peerIp port 2 14 = some n ↔
      Nonempty (Captured p localIp peerIp port n) := by
  simp only [typeValue_eq (show 2 ≤ 14 by omega), ipValue_eq, ihlOkValue_eq, srcValue_eq,
    tcpValue_eq, lengthsValue_eq, frameOkValue_eq]
  constructor
  · rintro ⟨ether, link, ether_eq, tags, vihl, vihl_eq, version, total, fragment, protocol,
      total_eq, fragment_eq, protocol_eq, whole, src, dst, direction, src_eq, dst_eq, way,
      dataOffset, dataOffset_eq, fixed, datagram, frame, room, server, front⟩
    exact ⟨ether, link, vihl, total, fragment, protocol, src, dst, direction, dataOffset, ether_eq,
      tags, vihl_eq, version, total_eq, fragment_eq, protocol_eq, whole, src_eq, dst_eq, way,
      dataOffset_eq, fixed, datagram, frame, room, server, front⟩
  · rintro ⟨c⟩
    exact ⟨c.ether, c.link, c.ether_eq, c.tags, c.vihl, c.vihl_eq, c.version, c.total, c.fragment,
      c.protocol, c.total_eq, c.fragment_eq, c.protocol_eq, c.whole, c.src, c.dst, c.direction,
      c.src_eq, c.dst_eq, c.way, c.dataOffset, c.dataOffset_eq, c.fixed, c.datagram, c.frame,
      c.room, c.server, c.front⟩

end Captured

section Parser

variable {p : Packet} {localIp peerIp : UInt32} {port : UInt16} {n offset size v k ether link : Nat}

/-- Inside the captured part a field reads as in the packet. -/
theorem readField_eq (inside : n ≤ p.bytes.length) :
    readField (frontReader p n) n offset size = some v ↔
      offset + size ≤ n ∧ load p.bytes offset size = some v := by
  unfold readField load
  by_cases room : offset + size ≤ n
  · rw [if_neg (by omega), if_pos (by omega), frontReader, bigEndian_take room]
    simp [room]
  · rw [if_pos (by omega)]
    simp [room]

theorem skipTags_bounds {read : Nat → Nat → Option Nat} {type link' : Nat}
    (h : skipTags read k ether link = some (type, link')) : link ≤ link' ∧ link' ≤ link + 4 * k := by
  induction k generalizing ether link with
  | zero =>
    cases h
    omega
  | succ k ih =>
    unfold skipTags at h
    split_ifs at h with tag
    · obtain ⟨next, _, h⟩ := Option.bind_eq_some_iff.mp h
      have bounds := ih h
      omega
    · cases h
      omega

/-- Tags in front of a header that is in the captured part are in it. -/
theorem skipTags_front {type link' : Nat} (inside : n ≤ p.bytes.length) (front : link' ≤ n) :
    skipTags (readField (frontReader p n) n) k ether link = some (type, link') ↔
      skipTags (load p.bytes) k ether link = some (type, link') := by
  induction k generalizing ether link with
  | zero => exact Iff.rfl
  | succ k ih =>
    unfold skipTags
    split_ifs with tag
    · constructor
      · intro h
        obtain ⟨next, found, h⟩ := Option.bind_eq_some_iff.mp h
        exact Option.bind_eq_some_iff.mpr ⟨next, ((readField_eq inside).mp found).2, ih.mp h⟩
      · intro h
        obtain ⟨next, found, h⟩ := Option.bind_eq_some_iff.mp h
        have behind := (skipTags_bounds h).1
        exact Option.bind_eq_some_iff.mpr
          ⟨next, (readField_eq inside).mpr ⟨by omega, found⟩, ih.mpr h⟩
    · exact Iff.rfl

/-- A check of the parser, whose failure skips the rest. -/
theorem refused_eq_some {α β : Type} {c : Prop} [Decidable c] {rest : β → Option α} {x : Option α}
    {v : α} : (if c then none.bind rest else x) = some v ↔ ¬c ∧ x = some v :=
  Option.ite_none_left_eq_some

theorem captured_of_parse (inside : n ≤ p.bytes.length) {header : Header}
    (h : parseHeader (frontReader p n) n p.bytes.length localIp peerIp port = some header) :
    Nonempty (Captured p localIp.toNat peerIp.toNat port.toNat n) := by
  dsimp only [parseHeader, Option.bind_eq_bind] at h
  simp only [↓refused_eq_some, ↓Option.bind_eq_some_iff, readField_eq inside] at h
  obtain ⟨-, ether, ⟨-, ether_eq⟩, ⟨type, link⟩, tags, ip, vihl, ⟨-, vihl_eq⟩, version, front,
    total, ⟨-, total_eq⟩, fragment, ⟨-, fragment_eq⟩, protocol, ⟨-, protocol_eq⟩, whole, src,
    ⟨-, src_eq⟩, dst, ⟨-, dst_eq⟩, direction, way, sport, ⟨-, sport_eq⟩, dport, ⟨-, dport_eq⟩,
    server, dataOffset, ⟨-, dataOffset_eq⟩, lengths, -⟩ := h
  simp only [not_or, not_not, Nat.not_lt, ne_eq] at ip version front whole server lengths
  subst ip
  have tags := (skipTags_front inside (by omega)).mp tags
  have port_eq : load p.bytes (if direction = 1 then link + (vihl &&& 15) * 4
      else link + (vihl &&& 15) * 4 + 2) 2 = some port.toNat := by
    rw [← server]
    split_ifs
    · exact sport_eq
    · exact dport_eq
  exact ⟨{
    ether := ether
    link := link
    vihl := vihl
    total := total
    fragment := fragment
    protocol := protocol
    src := src
    dst := dst
    direction := direction
    dataOffset := dataOffset
    ether_eq := ether_eq
    tags := tags
    vihl_eq := vihl_eq
    version := by omega
    total_eq := total_eq
    fragment_eq := fragment_eq
    protocol_eq := protocol_eq
    whole := by omega
    src_eq := src_eq
    dst_eq := dst_eq
    way := way
    dataOffset_eq := dataOffset_eq
    fixed := lengths.1
    datagram := lengths.2.1
    frame := Nat.not_lt.mpr lengths.2.2
    room := by omega
    server := port_eq
    front := front }⟩

theorem parse_of_captured (c : Captured p localIp.toNat peerIp.toNat port.toNat n) :
    (parseHeader (frontReader p n) n p.bytes.length localIp peerIp port).isSome = true := by
  have link_bounds := skipTags_bounds c.tags
  have version := c.version
  have ihl_le := (nibble_le (load_lt c.vihl_eq)).2
  have front := c.front
  have inside : n ≤ p.bytes.length := by
    have room := c.room
    omega
  have snap : n ≤ maxSnap := by
    show n ≤ 102
    omega
  have field {offset size : Nat} (h : offset + size ≤ n) :
      ∃ v, offset + size ≤ n ∧ load p.bytes offset size = some v := by
    obtain ⟨v, found⟩ := load_isSome (show offset + size ≤ p.bytes.length by omega)
    exact ⟨v, h, found⟩
  obtain ⟨sport, sport_eq⟩ := @field (c.link + (c.vihl &&& 15) * 4) 2 (by omega)
  obtain ⟨dport, dport_eq⟩ := @field (c.link + (c.vihl &&& 15) * 4 + 2) 2 (by omega)
  obtain ⟨seq, seq_eq⟩ := @field (c.link + (c.vihl &&& 15) * 4 + 4) 4 (by omega)
  obtain ⟨ack, ack_eq⟩ := @field (c.link + (c.vihl &&& 15) * 4 + 8) 4 (by omega)
  obtain ⟨low, low_eq⟩ := @field (c.link + (c.vihl &&& 15) * 4 + 13) 1 (by omega)
  obtain ⟨win, win_eq⟩ := @field (c.link + (c.vihl &&& 15) * 4 + 14) 2 (by omega)
  have server : (if c.direction = 1 then sport else dport) = port.toNat := by
    have found := c.server
    split_ifs at found ⊢
    · exact Option.some.inj (sport_eq.2.symm.trans found)
    · exact Option.some.inj (dport_eq.2.symm.trans found)
  apply Option.isSome_iff_exists.mpr
  dsimp only [parseHeader, Option.bind_eq_bind]
  simp only [↓refused_eq_some, ↓Option.bind_eq_some_iff, readField_eq inside]
  exact ⟨_, by omega, c.ether, ⟨by omega, c.ether_eq⟩, (0x0800, c.link),
    (skipTags_front inside (by omega)).mpr c.tags, fun other => other rfl, c.vihl,
    ⟨by omega, c.vihl_eq⟩, c.version, fun other => other front, c.total, ⟨by omega, c.total_eq⟩,
    c.fragment, ⟨by omega, c.fragment_eq⟩, c.protocol, ⟨by omega, c.protocol_eq⟩, c.whole, c.src,
    ⟨by omega, c.src_eq⟩, c.dst, ⟨by omega, c.dst_eq⟩, c.direction, c.way, sport, sport_eq, dport,
    dport_eq, fun other => other server, c.dataOffset, ⟨by omega, c.dataOffset_eq⟩,
    not_or.mpr ⟨Nat.not_lt.mpr c.fixed, not_or.mpr ⟨c.datagram, c.frame⟩⟩, seq, seq_eq, ack, ack_eq,
    low, low_eq, win, win_eq, rfl⟩

end Parser

section Filtered

variable {p : Packet} {n : Nat} (localIp peerIp : UInt32) (port : UInt16)

/-- The parser takes the first `n` bytes of the packet. -/
def ParserTakes (p : Packet) (n : Nat) : Prop :=
  n ≤ p.bytes.length ∧
    (parseHeader (frontReader p n) n p.bytes.length localIp peerIp port).isSome = true

theorem parserTakes_iff :
    ParserTakes localIp peerIp port p n ↔
      Nonempty (Captured p localIp.toNat peerIp.toNat port.toNat n) := by
  constructor
  · rintro ⟨inside, taken⟩
    obtain ⟨header, parsed⟩ := Option.isSome_iff_exists.mp taken
    exact captured_of_parse inside parsed
  · rintro ⟨c⟩
    have room := c.room
    have front := c.front
    exact ⟨by omega, parse_of_captured c⟩

def linkLength (p : Packet) : Option Nat := do
  let ether ← load p.bytes 12 2
  let (_, link) ← skipTags (load p.bytes) 2 ether 14
  return link

def ipHeaderLength (p : Packet) (link : Nat) : Option Nat :=
  (load p.bytes link 1).map fun vihl => (vihl &&& 15) * 4

def jumpsOf (insns : List Insn) : List (List Nat) := insns.map Insn.jumps

set_option maxRecDepth 20000 in
private theorem jumps_program (localIp peerIp port localIp' peerIp' port' : Nat) :
    jumpsOf (program localIp peerIp port) = jumpsOf (program localIp' peerIp' port') := rfl

private theorem jumps_inside :
    ∀ i : Fin 87, ∀ d ∈ (jumpsOf (program 0 0 0)).getD i [], d ≤ 255 ∧ i + 1 + d < 87 := by
  decide +kernel

/-- The filter returns the length of the headers of just those frames that the parser takes. -/
theorem filter_captures :
    ∃ insns, buildFilter localIp peerIp port = some insns ∧
      (∀ (p : Packet) (s : Regs) (n : Nat), 0 < n →
        (run p insns 0 s = n ↔ ParserTakes localIp peerIp port p n)) ∧
      (∀ (p : Packet) (s : Regs), (∀ n, ¬ ParserTakes localIp peerIp port p n) →
        run p insns 0 s = 0) ∧
      (∀ (p : Packet) (s : Regs), run p insns 0 s ≠ 0 →
        ∃ link ihl, linkLength p = some link ∧ ipHeaderLength p link = some ihl ∧
          run p insns 0 s = link + ihl + 20 ∧ run p insns 0 s ≤ maxSnap) ∧
      ∀ (i : Nat) (insn : Insn), insns[i]? = some insn → ∀ d ∈ insn.jumps,
        d ≤ 255 ∧ i + 1 + d < insns.length := by
  have result (p : Packet) (s : Regs) :
      run p (program localIp.toNat peerIp.toNat port.toNat) 0 s =
        (typeValue p localIp.toNat peerIp.toNat port.toNat 2 14).getD 0 := run_program
  refine ⟨_, buildFilter_eq localIp peerIp port, ?_, ?_, ?_, ?_⟩
  · intro p s n pos
    rw [result, parserTakes_iff, ← typeValue_captured]
    cases typeValue p localIp.toNat peerIp.toNat port.toNat 2 14 with
    | none => simp [Nat.ne_of_lt pos]
    | some m => simp
  · intro p s refused
    rw [result]
    cases found : typeValue p localIp.toNat peerIp.toNat port.toNat 2 14 with
    | none => rfl
    | some n =>
      have taken := (parserTakes_iff localIp peerIp port).mpr (typeValue_captured.mp found)
      exact absurd taken (refused n)
  · intro p s some'
    rw [result] at some' ⊢
    cases found : typeValue p localIp.toNat peerIp.toNat port.toNat 2 14 with
    | none => simp [found] at some'
    | some n =>
      obtain ⟨c⟩ := typeValue_captured.mp found
      have link_bounds := skipTags_bounds c.tags
      have ihl_le := (nibble_le (load_lt c.vihl_eq)).2
      have front := c.front
      refine ⟨c.link, (c.vihl &&& 15) * 4, ?_, ?_, front, ?_⟩
      · simp [linkLength, c.ether_eq, c.tags]
      · simp [ipHeaderLength, c.vihl_eq]
      · show n ≤ 102
        omega
  · intro i insn at_i d jump
    have inside : i < 87 := (List.getElem?_eq_some_iff.mp at_i).1
    have listed : (jumpsOf (program 0 0 0)).getD i [] = insn.jumps := by
      rw [jumps_program 0 0 0 localIp.toNat peerIp.toNat port.toNat, jumpsOf, List.getD_eq_getElem?_getD,
        List.getElem?_map, at_i]
      rfl
    exact jumps_inside ⟨i, inside⟩ d (by rw [listed]; exact jump)

end Filtered

end Mosaico.Lan
