import Mosaico.Lan.CaptureFilterAccepted

/-! `mosaico_lan_packet_headers.py`: the filter narrowed to network headers without options,
and the parser that reads no others. -/
namespace Mosaico.Lan.PacketHeaders

open ClassicBpf

abbrev maxSnap : Nat := 62

/-- Python's index: a negative one counts from the end, none is the `IndexError`. -/
def rowAt (rows : List Insn) (index : Int) : Option Insn :=
  if 0 ≤ index then rows[index.toNat]?
  else if index + rows.length < 0 then none else rows[(index + rows.length).toNat]?

def isLengthCheck (rows : List Insn) (index : Nat) : Option Bool := do
  let row ← rows[index]?
  if row.code = .jgeK ∧ row.k = 5 then
    if (← rowAt rows (index - 1)) = { code := .andK, k := 15 } then
      if (← rowAt rows (index + 1)) = { code := .lshK, k := 2 } then
        return decide ((← rowAt rows (index + 2)) = { code := .st, k := 1 })
      else return false
    else return false
  else return false

def narrow (rows : List Insn) : Option (List Insn) := do
  let found ← (List.range rows.length).filterM (isLengthCheck rows)
  match found with
  | [index] =>
    let row ← rows[index]?
    return rows.set index { row with code := .jeqK }
  | _ => none

def buildFilter (localIp peerIp : UInt32) (port : UInt16) : Option (List Insn) := do
  narrow (← Lan.buildFilter localIp peerIp port)

def parseHeader (reader : Nat → Nat → Nat) (caplen wireLen : Nat) (localIp peerIp : UInt32)
    (port : UInt16) : Option Header := do
  if ¬ (54 ≤ caplen ∧ caplen ≤ maxSnap) then none
  let (ether, link) ← skipTags (fun offset size => some (reader offset size)) 2 (reader 12 2) 14
  if ether ≠ 0x0800 ∨ reader link 1 ≠ 0x45 then none
  Lan.parseHeader reader caplen wireLen localIp peerIp port

section Code

variable (localIp peerIp port : Nat)

def ipCode : List Insn :=
  { code := .ldxMem } :: { code := .ldBInd } :: { code := .andK, k := 0xF0 } ::
  { code := .jeqK, jt := 0, jf := 63, k := 0x40 } :: { code := .ldBInd } ::
  { code := .andK, k := 15 } :: { code := .jeqK, jt := 0, jf := 60, k := 5 } ::
  ihlOkCode localIp peerIp port

def base14Code : List Insn :=
  { code := .ldImm, k := 14 } :: { code := .st } :: { code := .ja, k := 6 } ::
  { code := .ldImm, k := 18 } :: { code := .st } :: { code := .ja, k := 3 } ::
  { code := .ldImm, k := 22 } :: { code := .st } :: { code := .ja } :: ipCode localIp peerIp port

def program : List Insn :=
  { code := .ldHAbs, k := 12 } :: { code := .jeqK, jt := 8, jf := 0, k := 0x0800 } ::
  { code := .jeqK, jt := 1, jf := 0, k := 0x8100 } :: { code := .jeqK, jt := 0, jf := 82, k := 0x88A8 } ::
  { code := .ldHAbs, k := 16 } :: { code := .jeqK, jt := 7, jf := 0, k := 0x0800 } ::
  { code := .jeqK, jt := 1, jf := 0, k := 0x8100 } :: { code := .jeqK, jt := 0, jf := 78, k := 0x88A8 } ::
  { code := .ldHAbs, k := 20 } :: { code := .jeqK, jt := 6, jf := 76, k := 0x0800 } ::
  base14Code localIp peerIp port

set_option maxRecDepth 20000 in
/-- One row is the length check, and it alone is changed. -/
theorem narrow_program : narrow (Lan.program localIp peerIp port) = some (program localIp peerIp port) := by
  rfl

end Code

section Runs

variable {p : Packet} {localIp peerIp port link : Nat} {s : Regs}

def ipValue (p : Packet) (localIp peerIp port link : Nat) : Option Nat := do
  let vihl ← load p.bytes link 1
  if vihl >>> 4 = 4 then
    if vihl &&& 15 = 5 then ihlOkValue p localIp peerIp port link ((vihl &&& 15) * 4) else none
  else none

theorem run_ip (hlink : s.mem 0 = link) (link_le : link ≤ 22) :
    run p (ipCode localIp peerIp port) 0 s = (ipValue p localIp peerIp port link).getD 0 := by
  simp only [ipCode, run, Regs.load, hlink, Nat.add_zero, ipValue]
  cases found : load p.bytes link 1 with
  | none => rfl
  | some v =>
    have byte : v < 256 := load_lt found
    have ihl_le := (nibble_le byte).2
    have shifted : word ((v &&& 15) <<< 2) = (v &&& 15) * 4 := by
      rw [Nat.shiftLeft_eq]
      exact Nat.mod_eq_of_lt (by omega)
    simp only [Option.elim_some, Option.bind_eq_bind, Option.bind_some, version_four byte]
    by_cases four : v >>> 4 = 4
    · rw [if_pos four, if_pos four]
      simp only [run, Nat.add_zero, found, Option.elim_some]
      by_cases five : v &&& 15 = 5
      · rw [if_pos five, if_pos five]
        exact run_ihlOk rfl hlink shifted link_le ihl_le
      · rw [if_neg five, if_neg five]
        rfl
    · rw [if_neg four, if_neg four]
      rfl

/-- Up to `n` tags, with `ip` for the header behind them. -/
def taggedValue (p : Packet) (ip : Nat → Option Nat) : Nat → Nat → Option Nat
  | 0, link => do
    let ether ← load p.bytes (link - 2) 2
    if ether = 0x0800 then ip link else none
  | n + 1, link => do
    let ether ← load p.bytes (link - 2) 2
    if ether = 0x0800 then ip link
    else if ether = 0x8100 ∨ ether = 0x88A8 then taggedValue p ip n (link + 4)
    else none

theorem run_base14 {skip : Nat} (h : skip = 0 ∧ link = 14 ∨ skip = 3 ∧ link = 18 ∨ skip = 6 ∧ link = 22) :
    run p (base14Code localIp peerIp port) skip s = (ipValue p localIp peerIp port link).getD 0 := by
  obtain ⟨rfl, rfl⟩ | ⟨rfl, rfl⟩ | ⟨rfl, rfl⟩ := h
  · exact run_ip rfl (by omega)
  · exact run_ip rfl (by omega)
  · exact run_ip rfl (by omega)

private theorem getD_tagged (ip : Nat → Option Nat) (n : Nat) :
    (taggedValue p ip (n + 1) link).getD 0 =
      (load p.bytes (link - 2) 2).elim 0 fun ether =>
        if ether = 0x0800 then (ip link).getD 0
        else if ether = 0x8100 ∨ ether = 0x88A8 then (taggedValue p ip n (link + 4)).getD 0
        else 0 := by
  rw [taggedValue]
  cases load p.bytes (link - 2) 2 with
  | none => rfl
  | some ether =>
    simp only [Option.bind_eq_bind, Option.bind_some, Option.elim_some]
    split_ifs <;> rfl

theorem run_vlan2 :
    run p ({ code := .ldHAbs, k := 20 } :: { code := .jeqK, jt := 6, jf := 76, k := 0x0800 } ::
      base14Code localIp peerIp port) 0 s = (taggedValue p (ipValue p localIp peerIp port) 0 22).getD 0 := by
  simp only [run, taggedValue]
  cases load p.bytes 20 2 with
  | none => rfl
  | some ether =>
    simp only [Option.elim_some, Option.bind_eq_bind, Option.bind_some]
    by_cases header : ether = 0x0800
    · simp only [if_pos header]
      exact run_base14 (.inr (.inr ⟨rfl, rfl⟩))
    · simp only [if_neg header]
      rfl

theorem run_program :
    run p (program localIp peerIp port) 0 s = (taggedValue p (ipValue p localIp peerIp port) 2 14).getD 0 := by
  have vlan1 (s : Regs) :
      run p ({ code := .ldHAbs, k := 16 } :: { code := .jeqK, jt := 5 + 2, k := 0x0800 } ::
        { code := .jeqK, jt := 1, k := 0x8100 } :: { code := .jeqK, jf := 78, k := 0x88A8 } ::
        { code := .ldHAbs, k := 20 } :: { code := .jeqK, jt := 6, jf := 76, k := 0x0800 } ::
        base14Code localIp peerIp port) 0 s =
        (taggedValue p (ipValue p localIp peerIp port) 1 18).getD 0 := by
    rw [getD_tagged]
    apply run_tags
    · exact fun s => run_base14 (.inr (.inl ⟨rfl, rfl⟩))
    · exact fun s => run_vlan2
    · exact fun s => rfl
  rw [getD_tagged]
  apply run_tags
  · exact fun s => run_base14 (.inl ⟨rfl, rfl⟩)
  · exact vlan1
  · exact fun s => rfl

end Runs

section Accepted

variable {p : Packet} {localIp peerIp port link n : Nat}

theorem taggedValue_eq {ip : Nat → Option Nat} {k : Nat} (two : 2 ≤ link) :
    taggedValue p ip k link = some n ↔
      ∃ ether link', load p.bytes (link - 2) 2 = some ether ∧
        skipTags (load p.bytes) k ether link = some (0x0800, link') ∧ ip link' = some n := by
  induction k generalizing link with
  | zero =>
    simp only [taggedValue, skipTags, Option.bind_eq_bind, Option.bind_eq_some_iff, Option.some.injEq,
      Prod.mk.injEq]
    constructor
    · rintro ⟨ether, found, h⟩
      split_ifs at h with header
      exact ⟨ether, link, found, ⟨header, rfl⟩, h⟩
    · rintro ⟨ether, _, found, ⟨header, rfl⟩, h⟩
      exact ⟨ether, found, by rw [if_pos header]; exact h⟩
  | succ k ih =>
    simp only [taggedValue, skipTags, Option.bind_eq_bind, Option.bind_eq_some_iff]
    constructor
    · rintro ⟨ether, found, h⟩
      split_ifs at h with header tag
      · refine ⟨ether, link, found, ?_, h⟩
        rw [if_neg (by omega), header]
      · obtain ⟨next, link', foundNext, skipped, h⟩ := (ih (by omega)).mp h
        refine ⟨ether, link', found, ?_, h⟩
        rw [if_pos tag, show link + 2 = link + 4 - 2 by omega, foundNext]
        exact skipped
    · rintro ⟨ether, link', found, skipped, h⟩
      refine ⟨ether, found, ?_⟩
      split_ifs at skipped with tag
      · obtain ⟨next, foundNext, skipped⟩ := Option.bind_eq_some_iff.mp skipped
        rw [if_neg (by omega), if_pos tag]
        exact (ih (by omega)).mpr ⟨next, link', foundNext, skipped, h⟩
      · cases skipped
        rw [if_pos rfl]
        exact h

/-- The byte of a header without options. -/
private theorem plain_byte {v : Nat} (h : v < 256) : v >>> 4 = 4 ∧ v &&& 15 = 5 ↔ v = 0x45 := by
  have all : ∀ b : Fin 256, b.val >>> 4 = 4 ∧ b.val &&& 15 = 5 ↔ b.val = 0x45 := by decide +kernel
  exact all ⟨v, h⟩

/-- The narrowed header value is the old one where the header has no options. -/
theorem ipValue_iff : ipValue p localIp peerIp port link = some n ↔
    Lan.ipValue p localIp peerIp port link = some n ∧ load p.bytes link 1 = some 0x45 := by
  unfold ipValue Lan.ipValue
  cases found : load p.bytes link 1 with
  | none => simp
  | some v =>
    have plain := plain_byte (load_lt found)
    simp only [Option.bind_eq_bind, Option.bind_some, Option.some_inj]
    rw [← plain]
    by_cases four : v >>> 4 = 4
    · by_cases five : v &&& 15 = 5
      · rw [if_pos four, if_pos five, if_pos four, if_pos (Nat.le_of_eq five.symm)]
        exact ⟨fun h => ⟨h, four, five⟩, fun h => h.1⟩
      · rw [if_pos four, if_neg five]
        exact ⟨nofun, fun h => absurd h.2.2 five⟩
    · rw [if_neg four]
      exact ⟨nofun, fun h => absurd h.2.1 four⟩

/-- The narrowed filter captures the frames of the old one whose header has no options. -/
theorem taggedValue_captured : taggedValue p (ipValue p localIp peerIp port) 2 14 = some n ↔
    ∃ c : Captured p localIp peerIp port n, c.vihl = 0x45 := by
  rw [taggedValue_eq (by omega)]
  constructor
  · rintro ⟨ether, link, found, tags, h⟩
    obtain ⟨old, plain⟩ := ipValue_iff.mp h
    obtain ⟨c⟩ := typeValue_captured.mp ((typeValue_eq (by omega)).mpr ⟨ether, link, found, tags, old⟩)
    have sameEther := Option.some.inj (c.ether_eq.symm.trans found)
    have sameLink := Option.some.inj (c.tags.symm.trans (sameEther ▸ tags))
    have link_eq : c.link = link := congrArg Prod.snd sameLink
    exact ⟨c, Option.some.inj (c.vihl_eq.symm.trans (link_eq ▸ plain))⟩
  · rintro ⟨c, plain⟩
    obtain ⟨ether, link, found, tags, old⟩ := (typeValue_eq (by omega)).mp (typeValue_captured.mpr ⟨c⟩)
    have sameEther := Option.some.inj (c.ether_eq.symm.trans found)
    have sameLink := Option.some.inj (c.tags.symm.trans (sameEther ▸ tags))
    have link_eq : c.link = link := congrArg Prod.snd sameLink
    refine ⟨ether, link, found, tags, ipValue_iff.mpr ⟨old, ?_⟩⟩
    rw [← link_eq, c.vihl_eq, plain]

end Accepted

section Parser

variable {p : Packet} {n : Nat} {reader other : Nat → Nat → Nat} {caplen wireLen : Nat} {localIp peerIp : UInt32}
variable {port : UInt16}

theorem skipTags_congr {read read' : Nat → Nat → Option Nat} {k ether link : Nat}
    (same : ∀ offset, offset < link + 4 * k → read offset 2 = read' offset 2) :
    skipTags read k ether link = skipTags read' k ether link := by
  induction k generalizing ether link with
  | zero => rfl
  | succ k ih =>
    rw [skipTags, skipTags, same (link + 2) (by omega)]
    split
    · have rest (next : Nat) : skipTags read k next (link + 4) = skipTags read' k next (link + 4) :=
        ih fun offset before => same offset (by omega)
      simp only [rest]
    · rfl

/-- Whoever reads the tags inside the frame reads the same. -/
private theorem skipTags_inside {k ether link : Nat} {read : Nat → Nat → Option Nat}
    (total : ∀ offset size, (read offset size).isSome = true) :
    ∃ type link', skipTags read k ether link = some (type, link') := by
  induction k generalizing ether link with
  | zero => exact ⟨ether, link, rfl⟩
  | succ k ih =>
    rw [skipTags]
    split
    · obtain ⟨next, found⟩ := Option.isSome_iff_exists.mp (total (link + 2) 2)
      rw [found]
      exact ih
    · exact ⟨ether, link, rfl⟩

theorem parseHeader_some {header : Header} :
    parseHeader reader caplen wireLen localIp peerIp port = some header ↔
      (54 ≤ caplen ∧ caplen ≤ maxSnap) ∧ ∃ link,
        skipTags (fun offset size => some (reader offset size)) 2 (reader 12 2) 14 = some (0x0800, link) ∧
          reader link 1 = 0x45 ∧ Lan.parseHeader reader caplen wireLen localIp peerIp port = some header := by
  obtain ⟨type, link, found⟩ := @skipTags_inside 2 (reader 12 2) 14
    (fun offset size => some (reader offset size)) fun _ _ => rfl
  rw [parseHeader]
  by_cases snap : 54 ≤ caplen ∧ caplen ≤ maxSnap
  · rw [if_neg (not_not.mpr snap)]
    simp only [found, Option.bind_eq_bind, Option.bind_some]
    by_cases plain : type ≠ 0x0800 ∨ reader link 1 ≠ 0x45
    · rw [if_pos plain]
      refine ⟨nofun, ?_⟩
      rintro ⟨_, other, same, first, _⟩
      cases same
      exact absurd plain (by simp [first])
    · rw [if_neg plain]
      rw [not_or, not_not, not_not] at plain
      refine ⟨fun parsed => ⟨snap, link, by rw [plain.1], plain.2, parsed⟩, ?_⟩
      rintro ⟨_, _, _, _, parsed⟩
      exact parsed
  · rw [if_pos snap]
    exact ⟨nofun, fun parsed => absurd parsed.1 snap⟩

/-- The parser reads nothing outside of the frame. -/
theorem parseHeader_congr (same : ∀ offset size, offset + size ≤ caplen → reader offset size = other offset size) :
    parseHeader reader caplen wireLen localIp peerIp port = parseHeader other caplen wireLen localIp peerIp port := by
  apply Option.ext
  intro header
  rw [parseHeader_some, parseHeader_some]
  refine and_congr_right fun snap => exists_congr fun link => ?_
  have first := same 12 2 (by omega)
  have tags := @skipTags_congr (fun offset size => some (reader offset size))
    (fun offset size => some (other offset size)) 2 (other 12 2) 14
    fun offset before => congrArg some (same offset 2 (by omega))
  have fields : readField reader caplen = readField other caplen := by
    funext offset size
    rw [readField, readField]
    split
    · rfl
    · rw [same offset size (by omega)]
  have old : Lan.parseHeader reader caplen wireLen localIp peerIp port =
      Lan.parseHeader other caplen wireLen localIp peerIp port := by
    rw [Lan.parseHeader, Lan.parseHeader, fields]
  rw [first, tags, old]
  refine and_congr_right fun found => ?_
  have bounds := skipTags_bounds found
  rw [same link 1 (by omega)]

/-- The narrowed parser takes the first `n` bytes of the packet. -/
def ParserTakes (localIp peerIp : UInt32) (port : UInt16) (p : Packet) (n : Nat) : Prop :=
  n ≤ p.bytes.length ∧
    (parseHeader (frontReader p n) n p.bytes.length localIp peerIp port).isSome = true

private theorem load_front {offset size : Nat} (within : offset + size ≤ n) (inside : n ≤ p.bytes.length) :
    load p.bytes offset size = some (frontReader p n offset size) := by
  rw [load, if_pos (by omega), frontReader, bigEndian_take within]

theorem parserTakes_iff : ParserTakes localIp peerIp port p n ↔
    ∃ c : Captured p localIp.toNat peerIp.toNat port.toNat n, c.vihl = 0x45 := by
  have tags (inside : n ≤ p.bytes.length) (long : 54 ≤ n) (ether : Nat) :
      skipTags (fun offset size => some (frontReader p n offset size)) 2 ether 14 =
        skipTags (load p.bytes) 2 ether 14 :=
    skipTags_congr fun offset before => (load_front (by omega) inside).symm
  constructor
  · rintro ⟨inside, taken⟩
    obtain ⟨header, parsed⟩ := Option.isSome_iff_exists.mp taken
    obtain ⟨snap, link, found, plain, old⟩ := parseHeader_some.mp parsed
    obtain ⟨c⟩ := captured_of_parse inside old
    have ether : c.ether = frontReader p n 12 2 :=
      Option.some.inj (c.ether_eq.symm.trans (load_front (by omega) inside))
    rw [tags inside snap.1, ← ether] at found
    have bounds := skipTags_bounds found
    have same : c.link = link := congrArg Prod.snd (Option.some.inj (c.tags.symm.trans found))
    have byte := c.vihl_eq
    rw [same, load_front (by omega) inside, plain] at byte
    exact ⟨c, (Option.some.inj byte).symm⟩
  · rintro ⟨c, plain⟩
    have room := c.room
    have front := c.front
    have bounds := skipTags_bounds c.tags
    rw [plain] at room front
    have whole : n = c.link + 40 := front
    have inside : n ≤ p.bytes.length := by omega
    refine ⟨inside, ?_⟩
    obtain ⟨header, old⟩ := Option.isSome_iff_exists.mp (parse_of_captured c)
    apply Option.isSome_iff_exists.mpr
    refine ⟨header, parseHeader_some.mpr ⟨⟨by omega, by show n ≤ 62; omega⟩, c.link, ?_, ?_, old⟩⟩
    · rw [tags inside (by omega), ← Option.some.inj (c.ether_eq.symm.trans (load_front (by omega) inside))]
      exact c.tags
    · exact (Option.some.inj ((load_front (by omega) inside).symm.trans c.vihl_eq)).trans plain

/-- The narrowed filter returns `n > 0` for just the packets whose first `n` bytes the narrowed
parser takes. -/
theorem buildFilter_takes (localIp peerIp : UInt32) (port : UInt16) :
    ∃ insns, buildFilter localIp peerIp port = some insns ∧ ∀ (p : Packet) (s : Regs),
      run p insns 0 s ≤ maxSnap ∧ ∀ n, 0 < n → (run p insns 0 s = n ↔ ParserTakes localIp peerIp port p n) := by
  refine ⟨program localIp.toNat peerIp.toNat port.toNat, ?_, fun p s => ?_⟩
  · rw [buildFilter, buildFilter_eq]
    exact narrow_program _ _ _
  · rw [run_program]
    have short {n : Nat} (c : Captured p localIp.toNat peerIp.toNat port.toNat n) (plain : c.vihl = 0x45) :
        n ≤ maxSnap := by
      have front := c.front
      have bounds := skipTags_bounds c.tags
      rw [plain] at front
      have whole : n = c.link + 40 := front
      show n ≤ 62
      omega
    cases found : taggedValue p (ipValue p localIp.toNat peerIp.toNat port.toNat) 2 14 with
    | none =>
      refine ⟨Nat.zero_le _, fun n positive => ?_⟩
      rw [parserTakes_iff, ← taggedValue_captured, found]
      exact ⟨fun zero => absurd zero (Nat.ne_of_lt positive), nofun⟩
    | some m =>
      obtain ⟨c, plain⟩ := taggedValue_captured.mp found
      refine ⟨short c plain, fun n _ => ?_⟩
      rw [parserTakes_iff, ← taggedValue_captured, found, Option.getD_some, Option.some_inj]

end Parser

end Mosaico.Lan.PacketHeaders
