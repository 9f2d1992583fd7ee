import Mosaico.Lan.CaptureFilter

/-! What the assembled filter computes, label by label from the last to the first. -/
namespace Mosaico.Lan

open ClassicBpf

section Code

def acceptCode : List Insn :=
  [{ code := .txa }, { code := .addK, k := 20 }, { code := .retA }, { code := .retK }]

def serverCode (port : Nat) : List Insn :=
  { code := .ldHInd } :: { code := .jeqK, jt := 2, jf := 5, k := port } ::
  { code := .ldHInd, k := 2 } :: { code := .jeqK, jt := 0, jf := 3, k := port } :: acceptCode

def frameOkCode (port : Nat) : List Insn :=
  { code := .ldMem } :: { code := .ldxMem, k := 1 } :: { code := .addX } :: { code := .tax } ::
  { code := .ldBInd, k := 19 } :: { code := .ldMem, k := 3 } ::
  { code := .jeqK, jt := 0, jf := 2, k := 1 } :: serverCode port

def frameLengthCode (port : Nat) : List Insn :=
  { code := .ldLen } :: { code := .jgeX, jt := 0, jf := 14 } :: frameOkCode port

def lengthKnownCode (port : Nat) : List Insn :=
  { code := .jgeX, jt := 0, jf := 24 } :: { code := .ldMem } :: { code := .ldxMem, k := 2 } ::
  { code := .addX } :: { code := .tax } :: { code := .ja, k := 3 } :: { code := .ldMem } ::
  { code := .addX } :: { code := .tax } :: frameLengthCode port

def tcpLenCode (port : Nat) : List Insn :=
  { code := .st, k := 4 } :: { code := .ldxMem, k := 1 } :: { code := .addX } :: { code := .tax } ::
  { code := .ldMem, k := 2 } :: { code := .jeqK, jt := 6, jf := 0 } :: lengthKnownCode port

def tcpCode (port : Nat) : List Insn :=
  { code := .ldMem } :: { code := .ldxMem, k := 1 } :: { code := .addX } :: { code := .tax } ::
  { code := .ldBInd, k := 12 } :: { code := .andK, k := 0xF0 } :: { code := .rshK, k := 2 } ::
  { code := .jgeK, jt := 0, jf := 31, k := 20 } :: tcpLenCode port

variable (localIp peerIp port : Nat)

def srcCode : List Insn :=
  { code := .ldWInd, k := 12 } :: { code := .jeqK, jt := 1, jf := 0, k := localIp } ::
  { code := .jeqK, jt := 5, jf := 48, k := peerIp } :: { code := .ldWInd, k := 16 } ::
  { code := .jeqK, jt := 0, jf := 46, k := peerIp } :: { code := .ldImm, k := 1 } ::
  { code := .st, k := 3 } :: { code := .ja, k := 4 } :: { code := .ldWInd, k := 16 } ::
  { code := .jeqK, jt := 0, jf := 41, k := localIp } :: { code := .ldImm, k := 2 } ::
  { code := .st, k := 3 } :: tcpCode port

def ihlOkCode : List Insn :=
  { code := .lshK, k := 2 } :: { code := .st, k := 1 } :: { code := .ldHInd, k := 2 } ::
  { code := .st, k := 2 } :: { code := .ldHInd, k := 6 } :: { code := .andK, k := 0x3FFF } ::
  { code := .jeqK, jt := 0, jf := 53 } :: { code := .ldBInd, k := 9 } ::
  { code := .jeqK, jt := 0, jf := 51, k := 6 } :: srcCode localIp peerIp port

def ipCode : List Insn :=
  { code := .ldxMem } :: { code := .ldBInd } :: { code := .andK, k := 0xF0 } ::
  { code := .jeqK, jt := 0, jf := 63, k := 0x40 } :: { code := .ldBInd } ::
  { code := .andK, k := 15 } :: { code := .jgeK, jt := 0, jf := 60, k := 5 } ::
  ihlOkCode localIp peerIp port

def base14Code : List Insn :=
  { code := .ldImm, k := 14 } :: { code := .st } :: { code := .ja, k := 6 } ::
  { code := .ldImm, k := 18 } :: { code := .st } :: { code := .ja, k := 3 } ::
  { code := .ldImm, k := 22 } :: { code := .st } :: { code := .ja } :: ipCode localIp peerIp port

def program : List Insn :=
  { code := .ldHAbs, k := 12 } :: { code := .jeqK, jt := 8, jf := 0, k := 0x0800 } ::
  { code := .jeqK, jt := 1, jf := 0, k := 0x8100 } :: { code := .jeqK, jt := 0, jf := 82, k := 0x88A8 } ::
  { code := .ldHAbs, k := 16 } :: { code := .jeqK, jt := 7, jf := 0, k := 0x0800 } ::
  { code := .jeqK, jt := 1, jf := 0, k := 0x8100 } :: { code := .jeqK, jt := 0, jf := 78, k := 0x88A8 } ::
  { code := .ldHAbs, k := 20 } :: { code := .jeqK, jt := 6, jf := 76, k := 0x0800 } ::
  base14Code localIp peerIp port

end Code

section Assembly

def rowsOf : List Line → List Row
  | [] => []
  | .label _ :: rest => rowsOf rest
  | .emit row :: rest => row :: rowsOf rest

def labelsOf : Nat → List Line → List (Label × Nat)
  | _, [] => []
  | n, .label name :: rest => (name, n) :: labelsOf n rest
  | n, .emit _ :: rest => labelsOf (n + 1) rest

private theorem lookup_none {labels : List (Label × Nat)} {name : Label} (h : name ∉ labels.map Prod.fst) :
    labels.lookup name = none := by
  induction labels with
  | nil => rfl
  | cons first labels ih =>
    simp only [List.map_cons, List.mem_cons, not_or] at h
    have other : (name == first.1) = false := beq_eq_false_iff_ne.mpr h.1
    rw [List.lookup_cons, other]
    exact ih h.2

/-- Lines whose labels are new and apart are all taken. -/
theorem take_lines (lines : List Line) (a : Assembler)
    (new : ((a.labels.map Prod.fst).reverse ++ (labelsOf a.rows.length lines).map Prod.fst).Nodup) :
    lines.foldlM Assembler.take a = some {
      rows := a.rows ++ rowsOf lines
      labels := (labelsOf a.rows.length lines).reverse ++ a.labels } := by
  induction lines generalizing a with
  | nil => simp [rowsOf, labelsOf]
  | cons line rest ih =>
    cases line with
    | label name =>
      have fresh : name ∉ a.labels.map Prod.fst := by
        intro mem
        have apart := (List.nodup_append.mp new).2.2 name (List.mem_reverse.mpr mem) name
          (by simp [labelsOf])
        exact apart rfl
      have next := ih { a with labels := (name, a.rows.length) :: a.labels } (by
        simpa [labelsOf] using new)
      rw [List.foldlM_cons, Assembler.take, lookup_none fresh]
      simpa [rowsOf, labelsOf] using next
    | emit row =>
      have next := ih { a with rows := a.rows ++ [row] } (by simpa [labelsOf] using new)
      rw [List.foldlM_cons, Assembler.take]
      simpa [rowsOf, labelsOf] using next

def places : List (Label × Nat) :=
  [(.tag0, 2), (.tag0ad, 3), (.vlan1, 4), (.tag1, 6), (.tag1ad, 7), (.vlan2, 8), (.base14, 10),
    (.base18, 13), (.base22, 16), (.ip, 19), (.ihl, 23), (.ihlOk, 26), (.proto, 33), (.src, 35),
    (.srcPeer, 37), (.fromLocal, 38), (.outbound, 40), (.fromPeer, 43), (.inbound, 45), (.tcp, 47),
    (.tcpLen, 55), (.lengthKnown, 61), (.totalOk, 62), (.lengthUnknown, 67), (.frameLength, 70),
    (.frameOk, 72), (.serverSrc, 79), (.serverDst, 81), (.accept, 83), (.reject, 86)]

set_option maxRecDepth 20000 in
private theorem resolve_filterLines (localIp peerIp port : Nat) :
    resolveAll places.reverse 0 (rowsOf (filterLines localIp peerIp port)) =
      some (program localIp peerIp port) := by
  rfl

set_option maxRecDepth 20000 in
/-- The labels resolve to these distances. -/
theorem buildFilter_eq (localIp peerIp : UInt32) (port : UInt16) :
    buildFilter localIp peerIp port = some (program localIp.toNat peerIp.toNat port.toNat) := by
  have apart : (places.map Prod.fst).Nodup := by decide
  have taken := take_lines (filterLines localIp.toNat peerIp.toNat port.toNat) {} apart
  have resolved := resolve_filterLines localIp.toNat peerIp.toNat port.toNat
  rw [buildFilter, assemble, taken]
  exact resolved

end Assembly

section Runs

variable {p : Packet} {s : Regs} {link ihl total direction port localIp peerIp : Nat}

def serverValue (p : Packet) (tcp direction port : Nat) : Option Nat := do
  let server ← load p.bytes (if direction = 1 then tcp else tcp + 2) 2
  if server = port then some (tcp + 20) else none

theorem run_server {tcp : Nat} (hx : s.x = tcp) (small : tcp + 20 < 2 ^ 32) :
    run p (serverCode port) (if direction = 1 then 0 else 2) s =
      (serverValue p tcp direction port).getD 0 := by
  subst hx
  have accepted (v : Nat) : run p acceptCode 0 (s.load v) = s.x + 20 := Nat.mod_eq_of_lt small
  unfold serverValue
  by_cases sent : direction = 1
  · rw [if_pos sent, if_pos sent]
    cases found : load p.bytes s.x 2 with
    | none =>
      simp only [serverCode, run, found, Nat.add_zero]
      rfl
    | some v =>
      simp only [serverCode, run, found, Nat.add_zero, Option.elim_some, Option.bind_eq_bind,
        Option.bind_some]
      by_cases same : v = port
      · simp only [if_pos same]
        exact accepted v
      · simp only [if_neg same]
        rfl
  · rw [if_neg sent, if_neg sent]
    cases found : load p.bytes (s.x + 2) 2 with
    | none =>
      simp only [serverCode, run, found]
      rfl
    | some v =>
      simp only [serverCode, run, found, Option.elim_some, Option.bind_eq_bind, Option.bind_some]
      by_cases same : v = port
      · simp only [if_pos same]
        exact accepted v
      · simp only [if_neg same]
        rfl

def frameOkValue (p : Packet) (tcp direction port : Nat) : Option Nat := do
  let _ ← load p.bytes (tcp + 19) 1
  serverValue p tcp direction port

theorem run_frameOk (hlink : s.mem 0 = link) (hihl : s.mem 1 = ihl) (hdir : s.mem 3 = direction)
    (small : link + ihl + 20 < 2 ^ 32) :
    run p (frameOkCode port) 0 s = (frameOkValue p (link + ihl) direction port).getD 0 := by
  have sum : word (link + ihl) = link + ihl := Nat.mod_eq_of_lt (by omega)
  simp only [frameOkCode, run, Regs.load, hlink, hihl, hdir, sum, frameOkValue]
  cases load p.bytes (link + ihl + 19) 1 with
  | none => rfl
  | some v =>
    simp only [Option.elim_some, Option.bind_eq_bind, Option.bind_some]
    exact run_server rfl small

def frameLengthValue (p : Packet) (limit tcp direction port : Nat) : Option Nat :=
  if limit ≤ p.bytes.length then frameOkValue p tcp direction port else none

theorem run_frameLength {limit : Nat} (hx : s.x = limit) (hlink : s.mem 0 = link)
    (hihl : s.mem 1 = ihl) (hdir : s.mem 3 = direction) (small : link + ihl + 20 < 2 ^ 32) :
    run p (frameLengthCode port) 0 s =
      (frameLengthValue p limit (link + ihl) direction port).getD 0 := by
  simp only [frameLengthCode, run, Regs.load, hx, frameLengthValue]
  by_cases room : limit ≤ p.bytes.length
  · rw [if_pos room, if_pos room]
    exact run_frameOk hlink hihl hdir small
  · rw [if_neg room, if_neg room]
    rfl

def lengthsValue (p : Packet) (link ihl tcpLength total direction port : Nat) : Option Nat :=
  if total = 0 then
    frameLengthValue p (link + (ihl + tcpLength)) (link + ihl) direction port
  else if ihl + tcpLength ≤ total then
    frameLengthValue p (link + total) (link + ihl) direction port
  else none

theorem run_tcpLen {tcpLength : Nat} (ha : s.a = tcpLength) (hlink : s.mem 0 = link)
    (hihl : s.mem 1 = ihl) (htotal : s.mem 2 = total) (hdir : s.mem 3 = direction)
    (link_le : link ≤ 22) (ihl_le : ihl ≤ 60) (tcpLength_le : tcpLength ≤ 60)
    (total_lt : total < 65536) :
    run p (tcpLenCode port) 0 s =
      (lengthsValue p link ihl tcpLength total direction port).getD 0 := by
  subst ha
  have headers : word (s.a + ihl) = ihl + s.a := by
    rw [word, Nat.mod_eq_of_lt (by omega), Nat.add_comm]
  have unknown : word (link + (ihl + s.a)) = link + (ihl + s.a) :=
    Nat.mod_eq_of_lt (by omega)
  have known : word (link + total) = link + total := Nat.mod_eq_of_lt (by omega)
  have apart {k : Nat} (h : k ≠ 4) : Function.update s.mem 4 s.a k = s.mem k :=
    Function.update_of_ne h _ _
  have at0 := (apart (show 0 ≠ 4 by omega)).trans hlink
  have at1 := (apart (show 1 ≠ 4 by omega)).trans hihl
  have at2 := (apart (show 2 ≠ 4 by omega)).trans htotal
  have at3 := (apart (show 3 ≠ 4 by omega)).trans hdir
  simp only [tcpLenCode, run, Regs.load, at1, at2, lengthsValue]
  by_cases none' : total = 0
  · rw [if_pos none', if_pos none']
    simp only [lengthKnownCode, run, at0, headers, unknown]
    exact run_frameLength rfl at0 at1 at3 (by omega)
  · rw [if_neg none', if_neg none']
    simp only [lengthKnownCode, run, headers]
    by_cases room : ihl + s.a ≤ total
    · rw [if_pos room, if_pos room]
      simp only [run, at0, at2, known]
      exact run_frameLength rfl at0 at1 at3 (by omega)
    · rw [if_neg room, if_neg room]
      rfl

private theorem high_nibble {v : Nat} (h : v < 256) : (v &&& 0xF0) >>> 2 = v >>> 4 * 4 := by
  have all : ∀ b : Fin 256, (b.val &&& 0xF0) >>> 2 = b.val >>> 4 * 4 := by decide +kernel
  exact all ⟨v, h⟩

theorem version_four {v : Nat} (h : v < 256) : v &&& 0xF0 = 0x40 ↔ v >>> 4 = 4 := by
  have all : ∀ b : Fin 256, b.val &&& 0xF0 = 0x40 ↔ b.val >>> 4 = 4 := by decide +kernel
  exact all ⟨v, h⟩

theorem nibble_le {v : Nat} (h : v < 256) : v >>> 4 * 4 ≤ 60 ∧ (v &&& 15) * 4 ≤ 60 := by
  have all : ∀ b : Fin 256, b.val >>> 4 * 4 ≤ 60 ∧ (b.val &&& 15) * 4 ≤ 60 := by decide +kernel
  exact all ⟨v, h⟩

def tcpValue (p : Packet) (link ihl total direction port : Nat) : Option Nat := do
  let dataOffset ← load p.bytes (link + ihl + 12) 1
  if 20 ≤ dataOffset >>> 4 * 4 then
    lengthsValue p link ihl (dataOffset >>> 4 * 4) total direction port
  else none

theorem run_tcp (hlink : s.mem 0 = link) (hihl : s.mem 1 = ihl) (htotal : s.mem 2 = total)
    (hdir : s.mem 3 = direction) (link_le : link ≤ 22) (ihl_le : ihl ≤ 60)
    (total_lt : total < 65536) :
    run p (tcpCode port) 0 s = (tcpValue p link ihl total direction port).getD 0 := by
  have sum : word (link + ihl) = link + ihl := Nat.mod_eq_of_lt (by omega)
  simp only [tcpCode, run, Regs.load, hlink, hihl, sum, tcpValue]
  cases found : load p.bytes (link + ihl + 12) 1 with
  | none => rfl
  | some v =>
    have byte : v < 256 := load_lt found
    simp only [Option.elim_some, Option.bind_eq_bind, Option.bind_some, high_nibble byte]
    by_cases room : 20 ≤ v >>> 4 * 4
    · rw [if_pos room, if_pos room]
      exact run_tcpLen rfl hlink hihl htotal hdir link_le ihl_le (nibble_le byte).1 total_lt
    · rw [if_neg room, if_neg room]
      rfl

def srcValue (p : Packet) (localIp peerIp port link ihl total : Nat) : Option Nat := do
  let src ← load p.bytes (link + 12) 4
  if src = localIp then do
    let dst ← load p.bytes (link + 16) 4
    if dst = peerIp then tcpValue p link ihl total 1 port else none
  else if src = peerIp then do
    let dst ← load p.bytes (link + 16) 4
    if dst = localIp then tcpValue p link ihl total 2 port else none
  else none

theorem run_src (hx : s.x = link) (hlink : s.mem 0 = link) (hihl : s.mem 1 = ihl)
    (htotal : s.mem 2 = total) (link_le : link ≤ 22) (ihl_le : ihl ≤ 60)
    (total_lt : total < 65536) :
    run p (srcCode localIp peerIp port) 0 s =
      (srcValue p localIp peerIp port link ihl total).getD 0 := by
  have kept (d : Nat) {k : Nat} (h : k ≠ 3) : Function.update s.mem 3 d k = s.mem k :=
    Function.update_of_ne h _ _
  have tcp (a x d : Nat) :
      run p (tcpCode port) 0 { a := a, x := x, mem := Function.update s.mem 3 d } =
        (tcpValue p link ihl total d port).getD 0 := by
    have at0 := (kept d (show 0 ≠ 3 by omega)).trans hlink
    have at1 := (kept d (show 1 ≠ 3 by omega)).trans hihl
    have at2 := (kept d (show 2 ≠ 3 by omega)).trans htotal
    have at3 := Function.update_self 3 d s.mem
    exact run_tcp at0 at1 at2 at3 link_le ihl_le total_lt
  simp only [srcCode, run, Regs.load, hx, srcValue]
  cases load p.bytes (link + 12) 4 with
  | none => rfl
  | some src =>
    simp only [Option.elim_some, Option.bind_eq_bind, Option.bind_some]
    by_cases sent : src = localIp
    · rw [if_pos sent, if_pos sent]
      simp only [run, Regs.load]
      cases load p.bytes (link + 16) 4 with
      | none => rfl
      | some dst =>
        simp only [Option.elim_some, Option.bind_some]
        by_cases same : dst = peerIp
        · simp only [if_pos same]
          exact tcp 1 link 1
        · simp only [if_neg same]
          rfl
    · rw [if_neg sent, if_neg sent]
      simp only [run]
      by_cases received : src = peerIp
      · rw [if_pos received, if_pos received]
        simp only [run, Regs.load]
        cases load p.bytes (link + 16) 4 with
        | none => rfl
        | some dst =>
          simp only [Option.elim_some, Option.bind_some]
          by_cases same : dst = localIp
          · simp only [if_pos same]
            exact tcp 2 link 2
          · simp only [if_neg same]
            rfl
      · rw [if_neg received, if_neg received]
        rfl

def ihlOkValue (p : Packet) (localIp peerIp port link ihl : Nat) : Option Nat := do
  let total ← load p.bytes (link + 2) 2
  let fragment ← load p.bytes (link + 6) 2
  if fragment &&& 0x3FFF = 0 then do
    let protocol ← load p.bytes (link + 9) 1
    if protocol = 6 then srcValue p localIp peerIp port link ihl total else none
  else none

theorem run_ihlOk (hx : s.x = link) (hlink : s.mem 0 = link) (ha : word (s.a <<< 2) = ihl)
    (link_le : link ≤ 22) (ihl_le : ihl ≤ 60) :
    run p (ihlOkCode localIp peerIp port) 0 s =
      (ihlOkValue p localIp peerIp port link ihl).getD 0 := by
  simp only [ihlOkCode, run, Regs.load, hx, ha, ihlOkValue]
  cases found : load p.bytes (link + 2) 2 with
  | none => rfl
  | some total =>
    have total_lt : total < 65536 := load_lt found
    simp only [Option.elim_some, Option.bind_eq_bind, Option.bind_some]
    cases load p.bytes (link + 6) 2 with
    | none => rfl
    | some fragment =>
      simp only [Option.elim_some, Option.bind_some]
      by_cases whole : fragment &&& 0x3FFF = 0
      · rw [if_pos whole, if_pos whole]
        simp only [run]
        cases load p.bytes (link + 9) 1 with
        | none => rfl
        | some protocol =>
          simp only [Option.elim_some, Option.bind_some]
          by_cases isTcp : protocol = 6
          · rw [if_pos isTcp, if_pos isTcp]
            exact run_src rfl hlink rfl rfl link_le ihl_le total_lt
          · rw [if_neg isTcp, if_neg isTcp]
            rfl
      · rw [if_neg whole, if_neg whole]
        rfl

def ipValue (p : Packet) (localIp peerIp port link : Nat) : Option Nat := do
  let vihl ← load p.bytes link 1
  if vihl >>> 4 = 4 then
    if 5 ≤ vihl &&& 15 then ihlOkValue p localIp peerIp port link ((vihl &&& 15) * 4) else none
  else none

theorem run_ip (hlink : s.mem 0 = link) (link_le : link ≤ 22) :
    run p (ipCode localIp peerIp port) 0 s = (ipValue p localIp peerIp port link).getD 0 := by
  simp only [ipCode, run, Regs.load, hlink, Nat.add_zero, ipValue]
  cases found : load p.bytes link 1 with
  | none => rfl
  | some v =>
    have byte : v < 256 := load_lt found
    have ihl_le := (nibble_le byte).2
    have shifted : word ((v &&& 15) <<< 2) = (v &&& 15) * 4 := by
      rw [Nat.shiftLeft_eq]
      exact Nat.mod_eq_of_lt (by omega)
    simp only [Option.elim_some, Option.bind_eq_bind, Option.bind_some, version_four byte]
    by_cases four : v >>> 4 = 4
    · rw [if_pos four, if_pos four]
      simp only [run, Nat.add_zero, found, Option.elim_some]
      by_cases room : 5 ≤ v &&& 15
      · rw [if_pos room, if_pos room]
        exact run_ihlOk rfl hlink shifted link_le ihl_le
      · rw [if_neg room, if_neg room]
        rfl
    · rw [if_neg four, if_neg four]
      rfl

/-- Up to `n` tags, each with the type of what follows two bytes behind it. -/
def typeValue (p : Packet) (localIp peerIp port : Nat) : Nat → Nat → Option Nat
  | 0, link => do
    let ether ← load p.bytes (link - 2) 2
    if ether = 0x0800 then ipValue p localIp peerIp port link else none
  | n + 1, link => do
    let ether ← load p.bytes (link - 2) 2
    if ether = 0x0800 then ipValue p localIp peerIp port link
    else if ether = 0x8100 ∨ ether = 0x88A8 then typeValue p localIp peerIp port n (link + 4)
    else none

theorem run_base14 {skip : Nat} (h : skip = 0 ∧ link = 14 ∨ skip = 3 ∧ link = 18 ∨
    skip = 6 ∧ link = 22) :
    run p (base14Code localIp peerIp port) skip s = (ipValue p localIp peerIp port link).getD 0 := by
  obtain ⟨rfl, rfl⟩ | ⟨rfl, rfl⟩ | ⟨rfl, rfl⟩ := h
  · exact run_ip rfl (by omega)
  · exact run_ip rfl (by omega)
  · exact run_ip rfl (by omega)

/-- A type sends the run to the header behind it, to one more tag or to the reject. -/
theorem run_tags {rest : List Insn} {offset base jf header next : Nat}
    (hbase : ∀ s, run p rest base s = header) (hnext : ∀ s, run p rest 0 s = next)
    (hreject : ∀ s, run p rest jf s = 0) :
    run p ({ code := .ldHAbs, k := offset } :: { code := .jeqK, jt := base + 2, k := 0x0800 } ::
      { code := .jeqK, jt := 1, k := 0x8100 } :: { code := .jeqK, jf := jf, k := 0x88A8 } :: rest)
      0 s = (load p.bytes offset 2).elim 0 fun ether =>
        if ether = 0x0800 then header
        else if ether = 0x8100 ∨ ether = 0x88A8 then next else 0 := by
  simp only [run]
  cases load p.bytes offset 2 with
  | none => rfl
  | some ether =>
    simp only [Option.elim_some]
    by_cases header : ether = 0x0800
    · simp only [if_pos header, run]
      exact hbase _
    · simp only [if_neg header, run]
      by_cases first : ether = 0x8100
      · simp only [if_pos first, if_pos (Or.inl first), run]
        exact hnext _
      · simp only [if_neg first, run]
        by_cases second : ether = 0x88A8
        · simp only [if_pos second, if_pos (Or.inr second)]
          exact hnext _
        · simp only [if_neg second, if_neg (not_or.mpr ⟨first, second⟩)]
          exact hreject _

theorem run_vlan2 :
    run p ({ code := .ldHAbs, k := 20 } :: { code := .jeqK, jt := 6, jf := 76, k := 0x0800 } ::
      base14Code localIp peerIp port) 0 s = (typeValue p localIp peerIp port 0 22).getD 0 := by
  simp only [run, typeValue]
  cases load p.bytes 20 2 with
  | none => rfl
  | some ether =>
    simp only [Option.elim_some, Option.bind_eq_bind, Option.bind_some]
    by_cases header : ether = 0x0800
    · simp only [if_pos header]
      exact run_base14 (.inr (.inr ⟨rfl, rfl⟩))
    · simp only [if_neg header]
      rfl

private theorem getD_types {n : Nat} :
    (typeValue p localIp peerIp port (n + 1) link).getD 0 =
      (load p.bytes (link - 2) 2).elim 0 fun ether =>
        if ether = 0x0800 then (ipValue p localIp peerIp port link).getD 0
        else if ether = 0x8100 ∨ ether = 0x88A8 then
          (typeValue p localIp peerIp port n (link + 4)).getD 0
        else 0 := by
  rw [typeValue]
  cases load p.bytes (link - 2) 2 with
  | none => rfl
  | some ether =>
    simp only [Option.bind_eq_bind, Option.bind_some, Option.elim_some]
    split_ifs <;> rfl

theorem run_program :
    run p (program localIp peerIp port) 0 s = (typeValue p localIp peerIp port 2 14).getD 0 := by
  have vlan1 (s : Regs) :
      run p ({ code := .ldHAbs, k := 16 } :: { code := .jeqK, jt := 5 + 2, k := 0x0800 } ::
        { code := .jeqK, jt := 1, k := 0x8100 } :: { code := .jeqK, jf := 78, k := 0x88A8 } ::
        { code := .ldHAbs, k := 20 } :: { code := .jeqK, jt := 6, jf := 76, k := 0x0800 } ::
        base14Code localIp peerIp port) 0 s = (typeValue p localIp peerIp port 1 18).getD 0 := by
    rw [getD_types]
    apply run_tags
    · exact fun s => run_base14 (.inr (.inl ⟨rfl, rfl⟩))
    · exact fun s => run_vlan2
    · exact fun s => rfl
  rw [getD_types]
  apply run_tags
  · exact fun s => run_base14 (.inl ⟨rfl, rfl⟩)
  · exact vlan1
  · exact fun s => rfl

end Runs

end Mosaico.Lan
