import Mosaico.Library.ZeroRuns
import Mosaico.Host.GaugeTraceCodec

/-! The storage envelope of a trace blob: rows as differences to the row before, zeros as runs.
Every access of `unpack` is checked, one outside of a buffer is `none`. -/
namespace Mosaico.Host.GaugeTrace.StorageCodec

open ByteFields ZeroRuns

abbrev headerSize : Nat := 16
abbrev magic : Nat := 0x32435447

structure Packed where
  bytes : Blob
  size : Nat

inductive Error where
  | none
  | length
  | format
  | crc
  deriving DecidableEq

/-- The checksum of the first `k` bytes without its own field. -/
def frameCrcFrom (b : Blob) : Nat → UInt32
  | 0 => 0xffffffff
  | k + 1 => if 12 ≤ k ∧ k < 16 then frameCrcFrom b k else crcByte (frameCrcFrom b k) (byteAt b k)

def frameCrc (p : Packed) : Nat := (~~~ frameCrcFrom p.bytes p.size).toNat

def delta (b : Blob) (count i : Nat) : UInt8 :=
  if 32 + recordSize ≤ i ∧ i < 32 + count * recordSize then byteAt b i ^^^ byteAt b (i - recordSize)
  else byteAt b i

section Pack

variable (d : Nat → UInt8)

def runLength (zero : Bool) (input run : Nat) : Nat :=
  if run < 128 ∧ input + run < blobSize ∧ (d (input + run) == 0) = zero then
    runLength zero input (run + 1)
  else run
termination_by 128 - run

def copyLiterals (input output : Nat) (out : Blob) : Nat → Blob
  | 0 => out
  | run + 1 => put (copyLiterals input output out run) (output + run) (d (input + run)).toNat 1

theorem le_runLength (zero : Bool) (input run : Nat) : run ≤ runLength d zero input run := by
  fun_induction runLength d zero input run with
  | case1 run more ih => exact Nat.le_trans (Nat.le_succ run) ih
  | case2 run last => exact Nat.le_refl run

/-- The outer loop; `none` when the stream would not be smaller. -/
def packRuns (input output : Nat) (out : Blob) : Option (Nat × Blob) :=
  if input < blobSize then
    let zero := d input == 0
    let run := runLength d zero input 1
    let need := 1 + if zero then 0 else run
    if output + need ≥ blobSize then none
    else
      let tagged := put out output (token zero run).toNat 1
      packRuns (input + run) (output + need)
        (if zero then tagged else copyLiterals d input (output + 1) tagged run)
  else some (output, out)
termination_by blobSize - input
decreasing_by
  have some_ := le_runLength d (d input == 0) input 1
  omega

end Pack

def header (output : Nat) : List (Nat × Nat) :=
  [(4, magic), (1, 1), (1, 1), (2, blobSize), (2, output - headerSize), (2, 0)]

/-- `out` is the buffer that the caller has used before. -/
def pack (canonical : Blob) (out : Packed) : Packed :=
  let count := get canonical 8 2
  let packed := if count ≤ capacity then packRuns (delta canonical count) 0 headerSize out.bytes
    else none
  match packed with
  | none => ⟨canonical, blobSize⟩
  | some (output, bytes) =>
    let framed := putAll bytes 0 (header output)
    ⟨put framed 12 (frameCrc ⟨framed, output⟩) 4, output⟩

def load (p : Packed) (i : Nat) : Option UInt8 :=
  if i < p.size ∧ i < blobSize then some (byteAt p.bytes i) else none

def field (p : Packed) (i len : Nat) : Option Nat :=
  if i + len ≤ p.size ∧ i + len ≤ blobSize then some (get p.bytes i len) else none

def frameChecksum (p : Packed) : Option Nat :=
  if p.size ≤ blobSize then some (frameCrc p) else none

def loadOut (c : Blob) (i : Nat) : Option UInt8 := if i < blobSize then some (byteAt c i) else none

def store (c : Blob) (i : Nat) (v : UInt8) : Option Blob :=
  if i < blobSize then some (put c i v.toNat 1) else none

def zeroRun (c : Blob) (output : Nat) : Nat → Option Blob
  | 0 => some c
  | run + 1 => (store c output 0).bind fun c => zeroRun c (output + 1) run

def literalRun (p : Packed) (input : Nat) (c : Blob) (output : Nat) : Nat → Option (Bool × Blob)
  | 0 => some (true, c)
  | run + 1 => (load p input).bind fun value =>
    if value = 0 then some (false, c)
    else (store c output value).bind fun c => literalRun p (input + 1) c (output + 1) run

/-- The loop over the tokens, with the length that was written. -/
def expand (p : Packed) (input output : Nat) (c : Blob) : Option (Error × Nat × Blob) :=
  if input < p.size then
    (load p input).bind fun t =>
      let run := ZeroRuns.run t
      if run > blobSize - output then some (.length, output, c)
      else if isZero t then
        (zeroRun c output run).bind fun c => expand p (input + 1) (output + run) c
      else if run > p.size - (input + 1) then some (.length, output, c)
      else (literalRun p (input + 1) c output run).bind fun read =>
        if read.1 then expand p (input + 1 + run) (output + run) read.2
        else some (.format, output, read.2)
  else some (.none, output, c)
termination_by p.size - input

def undeltaAt (c : Blob) (i : Nat) : Option Blob :=
  (loadOut c i).bind fun value =>
    (loadOut c (i - recordSize)).bind fun before => store c i (value ^^^ before)

def undelta (count : Nat) (c : Blob) : Option Blob :=
  (List.range' (32 + recordSize) (count * recordSize - recordSize)).foldlM undeltaAt c

def closed (c : Blob) : Option (Error × Blob) :=
  some (if crcMatches c (blobSize - 4) then .none else .crc, c)

def unpackVerbatim (p : Packed) (c : Blob) : Option (Error × Blob) :=
  (field p 0 4).bind fun stored => if stored ≠ 0x31544447 then some (.format, c) else closed p.bytes

def unpackRows (error : Error) (output : Nat) (c : Blob) : Option (Error × Blob) :=
  if error ≠ .none then some (error, c)
  else if output ≠ blobSize then some (.length, c)
  else if get c 8 2 > capacity then some (.format, c)
  else (undelta (get c 8 2) c).bind closed

def unpackTokens (p : Packed) (c : Blob) : Option (Error × Blob) :=
  (field p 12 4).bind fun stored => (frameChecksum p).bind fun computed =>
    if stored ≠ computed then some (.crc, c)
    else (expand p headerSize 0 c).bind fun read => unpackRows read.1 read.2.1 read.2.2

def unpackFrame (p : Packed) (c : Blob) : Option (Error × Blob) :=
  (field p 0 4).bind fun stored => (field p 4 1).bind fun version =>
    (field p 5 1).bind fun codec => (field p 10 2).bind fun reserved =>
      if stored ≠ magic ∨ version ≠ 1 ∨ codec ≠ 1 ∨ reserved ≠ 0 then some (.format, c)
      else (field p 6 2).bind fun size => (field p 8 2).bind fun length =>
        if size ≠ blobSize ∨ length ≠ p.size - headerSize then some (.length, c)
        else unpackTokens p c

def unpack (p : Packed) (canonical : Blob) : Option (Error × Blob) :=
  if p.size > blobSize ∨ p.size < headerSize then some (.length, canonical)
  else if p.size = blobSize then unpackVerbatim p canonical
  else unpackFrame p canonical

section Packing

variable {d : Nat → UInt8}

theorem runLength_spec {zero : Bool} {input run : Nat} (few : run ≤ 128)
    (inside : input + run ≤ blobSize) (same : ∀ j, j < run → (d (input + j) == 0) = zero) :
    runLength d zero input run ≤ 128 ∧ input + runLength d zero input run ≤ blobSize ∧
      ∀ j, j < runLength d zero input run → (d (input + j) == 0) = zero := by
  fun_induction runLength d zero input run with
  | case1 run more ih =>
    apply ih more.1 more.2.1
    intro j hj
    by_cases earlier : j < run
    · exact same j earlier
    · rw [show j = run by omega]
      exact more.2.2
  | case2 run last => exact ⟨few, inside, same⟩

/-- A run ends at its limit, with the bytes or before a byte of the other kind. -/
theorem runLength_ends {zero : Bool} {input run : Nat} (few : run ≤ 128) :
    runLength d zero input run = 128 ∨ blobSize ≤ input + runLength d zero input run ∨
      (d (input + runLength d zero input run) == 0) ≠ zero := by
  fun_induction runLength d zero input run with
  | case1 run more ih => exact ih more.1
  | case2 run last =>
    rw [not_and_or, not_and_or] at last
    obtain limit | inside | other := last
    · exact .inl (by omega)
    · exact .inr (.inl (Nat.not_lt.mp inside))
    · exact .inr (.inr other)

theorem byteAt_copyLiterals (input output : Nat) (out : Blob) (run : Nat) {i : Nat}
    (inside : output + run ≤ blobSize) :
    byteAt (copyLiterals d input output out run) i =
      if output ≤ i ∧ i < output + run then d (input + (i - output)) else byteAt out i := by
  induction run with
  | zero => rw [copyLiterals, if_neg (by omega)]
  | succ run ih =>
    have earlier := ih (by omega)
    rw [copyLiterals]
    by_cases here : i = output + run
    · rw [here, byteAt_put, if_pos (by omega), if_pos (by omega), if_pos (by omega), Nat.sub_self,
        Nat.add_sub_cancel_left]
      simp [digit]
    · rw [byteAt_put_of_not_mem _ _ _ _ _ (by omega), earlier]
      congr 1
      apply propext
      omega

private theorem byteAt_token (out : Blob) (zero : Bool) (run : Nat) {output i : Nat}
    (inside : output < blobSize) :
    byteAt (put out output (token zero run).toNat 1) i =
      if i = output then token zero run else byteAt out i := by
  by_cases here : i = output
  · rw [here, byteAt_put, if_pos inside, if_pos (by omega), if_pos rfl, Nat.sub_self]
    simp [digit]
  · rw [byteAt_put_of_not_mem _ _ _ _ _ (by omega), if_neg here]

/-- One run of `packRuns`: the bytes before it stay, and it is a token of the stream. -/
theorem packRuns_step {input output : Nat} (out : Blob)
    (room : output + (1 + if d input == 0 then 0 else runLength d (d input == 0) input 1) < blobSize) :
    let zero := d input == 0
    let run := runLength d zero input 1
    let tagged := put out output (token zero run).toNat 1
    let next := if zero then tagged else copyLiterals d input (output + 1) tagged run
    (∀ i, i < output → byteAt next i = byteAt out i) ∧ byteAt next output = token zero run ∧
      (zero = false → ∀ j, j < run → byteAt next (output + 1 + j) = d (input + j)) := by
  intro zero run tagged next
  have first : byteAt tagged output = token zero run := by
    rw [byteAt_token out zero run (by omega), if_pos rfl]
  have before : ∀ i, i < output → byteAt tagged i = byteAt out i := by
    intro i hi
    rw [byteAt_token out zero run (by omega), if_neg (by omega)]
  cases isZero_ : zero with
  | true =>
    have same : next = tagged := if_pos isZero_
    rw [same]
    exact ⟨before, isZero_ ▸ first, nofun⟩
  | false =>
    have same : next = copyLiterals d input (output + 1) tagged run :=
      if_neg (by rw [isZero_]; exact Bool.false_ne_true)
    have fits : output + 1 + run ≤ blobSize := by
      have need : output + (1 + run) < blobSize := by
        simpa only [show (d input == 0) = false from isZero_, Bool.false_eq_true, if_false, run,
          zero] using room
      omega
    rw [same]
    refine ⟨fun i hi => ?_, ?_, fun _ j hj => ?_⟩
    · rw [byteAt_copyLiterals _ _ _ _ fits, if_neg (by omega), before i hi]
    · rw [byteAt_copyLiterals _ _ _ _ fits, if_neg (by omega), first, isZero_]
    · rw [byteAt_copyLiterals _ _ _ _ fits, if_pos (by omega), Nat.add_sub_cancel_left]

theorem runLength_first {input : Nat} (more : input < blobSize) :
    runLength d (d input == 0) input 1 ≤ 128 ∧ input + runLength d (d input == 0) input 1 ≤ blobSize ∧
      ∀ j, j < runLength d (d input == 0) input 1 → (d (input + j) == 0) = (d input == 0) := by
  refine runLength_spec (by decide) more fun j hj => ?_
  rw [show j = 0 by omega, Nat.add_zero]

/-- The first run of the bytes may be taken off any stream of them. -/
theorem packed_first {input : Nat} (more : input < blobSize) {stream : List UInt8}
    (codes : Codes stream (span d input (blobSize - input))) :
    let run := runLength d (d input == 0) input 1
    ∃ shorter, Codes shorter (span d (input + run) (blobSize - (input + run))) ∧
      cost (d input == 0) run + shorter.length ≤ stream.length := by
  intro run
  obtain ⟨few, within_, same⟩ := runLength_first (d := d) more
  have some_ : 1 ≤ run := le_runLength d (d input == 0) input 1
  rw [show blobSize - input = run + (blobSize - (input + run)) by omega, span_add] at codes
  have length : (span d input run).length = run := length_span input run
  have kinds : ∀ v ∈ span d input run, (v == 0) = (d input == 0) := by
    intro v hv
    obtain ⟨j, hj, rfl⟩ := mem_span hv
    exact same j hj
  have long : (span d input run).length = 128 ∨
      ∀ v ∈ (span d (input + run) (blobSize - (input + run))).head?, (v == 0) ≠ (d input == 0) := by
    rw [length]
    have ends : run = 128 ∨ blobSize ≤ input + run ∨ (d (input + run) == 0) ≠ (d input == 0) :=
      runLength_ends (by decide)
    obtain limit | last | other := ends
    · exact .inl limit
    · rw [show blobSize - (input + run) = 0 by omega]
      exact .inr nofun
    · by_cases last : blobSize - (input + run) = 0
      · rw [last]
        exact .inr nofun
      · refine .inr fun v hv => ?_
        rw [show blobSize - (input + run) = blobSize - (input + run) - 1 + 1 by omega, span_succ] at hv
        cases hv
        exact other
  obtain ⟨shorter, rest, fewer⟩ := codes.maximal (by omega) kinds long
  rw [length] at fewer
  exact ⟨shorter, rest, fewer⟩

/-- The stream that is written codes the rest of the bytes. -/
theorem packRuns_spec {input output last : Nat} {out bytes : Blob}
    (h : packRuns d input output out = some (last, bytes)) (inside : input ≤ blobSize)
    (room : output < blobSize) :
    output ≤ last ∧ last < blobSize ∧ (∀ i, i < output → byteAt bytes i = byteAt out i) ∧
      Codes (span (byteAt bytes) output (last - output)) (span d input (blobSize - input)) := by
  fun_induction packRuns d input output out with
  | case1 input output out more zero run need full => cases h
  | case2 input output out more zero run need fits tagged ih =>
    have spec : run ≤ 128 ∧ input + run ≤ blobSize ∧ ∀ j, j < run → (d (input + j) == 0) = zero :=
      runLength_first more
    obtain ⟨few, within_, same⟩ := spec
    have some_ : 1 ≤ run := le_runLength d zero input 1
    have step := packRuns_step out (Nat.lt_of_not_ge fits)
    dsimp only at step
    obtain ⟨kept, tag, values⟩ := step
    obtain ⟨later, short, agree, rest⟩ := ih h within_ (by omega)
    have first : byteAt bytes output = token zero run := by
      rw [agree output (by omega)]
      exact tag
    refine ⟨by omega, short, fun i hi => (agree i (by omega)).trans (kept i hi), ?_⟩
    rw [show blobSize - input = run + (blobSize - (input + run)) by omega, span_add]
    cases isZero_ : zero with
    | true =>
      have short_ : need = 1 := by simp [need, isZero_]
      rw [short_] at rest later
      have zeros : span d input run = List.replicate run 0 :=
        span_const fun j hj => by simpa [isZero_] using same j hj
      rw [show last - output = last - (output + 1) + 1 by omega, span_succ, first, isZero_, zeros]
      exact .zeros some_ few rest
    | false =>
      have long : need = 1 + run := by simp [need, isZero_]
      rw [long, ← Nat.add_assoc] at rest
      have literals : span (byteAt bytes) (output + 1) run = span d input run := by
        apply span_congr
        intro j hj
        rw [agree _ (by omega)]
        exact values isZero_ j hj
      rw [show last - output = run + (last - (output + 1 + run)) + 1 by omega, span_succ, first,
        isZero_, span_add, literals]
      nth_rewrite 1 [← length_span (f := d) input run]
      apply Codes.literals
      · rwa [length_span]
      · rwa [length_span]
      · intro v hv
        obtain ⟨j, hj, rfl⟩ := mem_span hv
        simpa [isZero_] using same j hj
      · exact rest
  | case3 input output out done =>
    have made := Option.some.inj h
    rw [Prod.mk.injEq] at made
    obtain ⟨rfl, rfl⟩ := made
    refine ⟨le_rfl, room, fun _ _ => rfl, ?_⟩
    rw [Nat.sub_self, show blobSize - input = 0 by omega]
    exact .done

/-- Where the stream would not be smaller than the blob, no other stream of the bytes is. -/
theorem packRuns_none {input output : Nat} {out : Blob} (full : packRuns d input output out = none)
    (inside : input ≤ blobSize) {stream : List UInt8}
    (codes : Codes stream (span d input (blobSize - input))) : blobSize ≤ output + stream.length := by
  fun_induction packRuns d input output out generalizing stream with
  | case1 input output out more zero run need =>
    rename_i large
    obtain ⟨shorter, -, fewer⟩ := packed_first more codes
    change cost zero run + shorter.length ≤ stream.length at fewer
    change blobSize ≤ output + cost zero run at large
    omega
  | case2 =>
    rename_i input output out more zero run need fits tagged ih
    obtain ⟨shorter, rest, fewer⟩ := packed_first more codes
    change cost zero run + shorter.length ≤ stream.length at fewer
    have within_ := (runLength_first (d := d) more).2.1
    have later := ih full within_ rest
    change blobSize ≤ output + cost zero run + shorter.length at later
    omega
  | case3 input output out done => cases full

end Packing

section Expanding

variable {p : Packed}

theorem store_spec (c : Blob) {i : Nat} (v : UInt8) (h : i < blobSize) :
    ∃ next, store c i v = some next ∧ ∀ j, byteAt next j = if j = i then v else byteAt c j := by
  refine ⟨put c i v.toNat 1, if_pos h, fun j => ?_⟩
  by_cases here : j = i
  · rw [here, byteAt_put, if_pos h, if_pos (by omega), if_pos rfl, Nat.sub_self]
    simp [digit]
  · rw [byteAt_put_of_not_mem _ _ _ _ _ (by omega), if_neg here]

theorem zeroRun_spec (c : Blob) {output run : Nat} (room : output + run ≤ blobSize) :
    ∃ next, zeroRun c output run = some next ∧
      ∀ i, byteAt next i = if output ≤ i ∧ i < output + run then 0 else byteAt c i := by
  induction run generalizing c output with
  | zero => exact ⟨c, rfl, fun i => (if_neg (by omega)).symm⟩
  | succ run ih =>
    obtain ⟨stored, written, bytes⟩ := store_spec c 0 (show output < blobSize by omega)
    obtain ⟨next, done, rest⟩ := ih stored (show output + 1 + run ≤ blobSize by omega)
    refine ⟨next, by rw [zeroRun, written, Option.bind_some, done], fun i => ?_⟩
    rw [rest, bytes]
    split_ifs <;> first | rfl | omega

/-- The literals that are there are copied, when none of them is zero. -/
theorem literalRun_spec (c : Blob) {input output run : Nat} (small : p.size ≤ blobSize)
    (there : input + run ≤ p.size) (room : output + run ≤ blobSize) :
    ∃ read next, literalRun p input c output run = some (read, next) ∧
      ((∀ j, j < run → byteAt p.bytes (input + j) ≠ 0) → read = true ∧
        ∀ i, byteAt next i = if output ≤ i ∧ i < output + run then
          byteAt p.bytes (input + (i - output)) else byteAt c i) := by
  induction run generalizing c input output with
  | zero => exact ⟨true, c, rfl, fun _ => ⟨rfl, fun i => (if_neg (by omega)).symm⟩⟩
  | succ run ih =>
    have value : load p input = some (byteAt p.bytes input) := if_pos (by omega)
    by_cases zero : byteAt p.bytes input = 0
    · refine ⟨false, c, by rw [literalRun, value, Option.bind_some, if_pos zero], fun nonzero => ?_⟩
      exact absurd zero (nonzero 0 (Nat.succ_pos run))
    · obtain ⟨stored, written, bytes⟩ := store_spec c (byteAt p.bytes input)
        (show output < blobSize by omega)
      obtain ⟨read, next, done, rest⟩ := ih stored (show input + 1 + run ≤ p.size by omega)
        (show output + 1 + run ≤ blobSize by omega)
      refine ⟨read, next, ?_, fun nonzero => ?_⟩
      · rw [literalRun, value, Option.bind_some, if_neg zero, written, Option.bind_some, done]
      · obtain ⟨all, copied⟩ := rest fun j hj => by
          have later := nonzero (j + 1) (Nat.succ_lt_succ hj)
          rwa [← Nat.add_assoc, Nat.add_right_comm] at later
        refine ⟨all, fun i => ?_⟩
        rw [copied, bytes]
        by_cases here : i = output
        · rw [here, if_neg (by omega), if_pos rfl, if_pos (by omega), Nat.sub_self, Nat.add_zero]
        · rw [if_neg here]
          by_cases later : output + 1 ≤ i ∧ i < output + 1 + run
          · rw [if_pos later, if_pos (by omega),
              show input + 1 + (i - (output + 1)) = input + (i - output) by omega]
          · rw [if_neg later, if_neg (by omega)]

theorem expand_safe (small : p.size ≤ blobSize) (input : Nat) {output : Nat}
    (room : output ≤ blobSize) (c : Blob) : ∃ out, expand p input output c = some out := by
  induction left : p.size - input using Nat.strong_induction_on generalizing input output c with
  | _ left ih =>
    rw [expand]
    split
    · rename_i more
      have value : load p input = some (byteAt p.bytes input) := if_pos (by omega)
      rw [value, Option.bind_some]
      dsimp only
      split
      · exact ⟨_, rfl⟩
      rename_i fits
      split
      · obtain ⟨next, done, -⟩ := zeroRun_spec c
          (show output + run (byteAt p.bytes input) ≤ blobSize by omega)
        rw [done, Option.bind_some]
        exact ih _ (by omega) _ (by omega) _ rfl
      split
      · exact ⟨_, rfl⟩
      · rename_i there
        obtain ⟨read, next, done, -⟩ := literalRun_spec c small
          (show input + 1 + run (byteAt p.bytes input) ≤ p.size by omega)
          (show output + run (byteAt p.bytes input) ≤ blobSize by omega)
        rw [done, Option.bind_some]
        split
        · exact ih _ (by omega) _ (by omega) _ rfl
        · exact ⟨_, rfl⟩
    · exact ⟨_, rfl⟩

private theorem span_head {input : Nat} {t : UInt8} {stream : List UInt8}
    (h : span (byteAt p.bytes) input (p.size - input) = t :: stream) :
    input < p.size ∧ byteAt p.bytes input = t ∧
      span (byteAt p.bytes) (input + 1) (p.size - (input + 1)) = stream := by
  have length := congrArg List.length h
  rw [length_span, List.length_cons] at length
  rw [show p.size - input = p.size - (input + 1) + 1 by omega, span_succ, List.cons.injEq] at h
  exact ⟨by omega, h.1, h.2⟩

/-- The bytes that a stream codes are written one behind the other. -/
theorem expand_codes (small : p.size ≤ blobSize) {stream bytes : List UInt8}
    (codes : Codes stream bytes) {input output : Nat} (c : Blob)
    (here : span (byteAt p.bytes) input (p.size - input) = stream)
    (room : output + bytes.length ≤ blobSize) :
    ∃ next, expand p input output c = some (.none, output + bytes.length, next) ∧
      span (byteAt next) output bytes.length = bytes ∧
      ∀ i, i < output → byteAt next i = byteAt c i := by
  induction codes generalizing input output c with
  | done =>
    have length := congrArg List.length here
    rw [length_span, List.length_nil] at length
    refine ⟨c, ?_, rfl, fun _ _ => rfl⟩
    rw [expand, if_neg (by omega), List.length_nil, Nat.add_zero]
  | @zeros n stream bytes some_ few rest ih =>
    obtain ⟨more, tag, later⟩ := span_head here
    rw [List.length_append, List.length_replicate] at room
    have value : load p input = some (byteAt p.bytes input) := if_pos (by omega)
    obtain ⟨filled, done, zeros⟩ := zeroRun_spec c (show output + n ≤ blobSize by omega)
    obtain ⟨next, expanded, same, kept⟩ := ih filled later
      (show output + n + bytes.length ≤ blobSize by omega)
    refine ⟨next, ?_, ?_, fun i hi => ?_⟩
    · rw [expand, if_pos more, value, Option.bind_some, tag]
      dsimp only
      rw [run_token true some_ few, isZero_token true some_ few, if_neg (by omega), if_pos rfl, done,
        Option.bind_some, expanded, List.length_append, List.length_replicate, Nat.add_assoc]
    · rw [List.length_append, List.length_replicate, span_add, same]
      congr 1
      apply span_const
      intro i hi
      rw [kept _ (by omega), zeros, if_pos (by omega)]
    · rw [kept i (by omega), zeros, if_neg (by omega)]
  | @literals values stream bytes some_ few nonzero rest ih =>
    obtain ⟨more, tag, later⟩ := span_head here
    rw [List.length_append] at room
    have length := congrArg List.length later
    rw [length_span, List.length_append] at length
    rw [show p.size - (input + 1) = values.length + (p.size - (input + 1 + values.length)) by omega,
      span_add] at later
    obtain ⟨literals, beyond⟩ := List.append_inj later (length_span _ _)
    have value : load p input = some (byteAt p.bytes input) := if_pos (by omega)
    obtain ⟨read, copied, done, spec⟩ := literalRun_spec c small
      (show input + 1 + values.length ≤ p.size by omega)
      (show output + values.length ≤ blobSize by omega)
    have all : ∀ j, j < values.length → byteAt p.bytes (input + 1 + j) ≠ 0 := by
      intro j hj
      apply nonzero
      rw [← literals]
      exact List.mem_map.mpr ⟨input + 1 + j, List.mem_range'_1.mpr (by omega), rfl⟩
    obtain ⟨accepted, there⟩ := spec all
    obtain ⟨next, expanded, same, kept⟩ := ih copied beyond
      (show output + values.length + bytes.length ≤ blobSize by omega)
    refine ⟨next, ?_, ?_, fun i hi => ?_⟩
    · rw [expand, if_pos more, value, Option.bind_some, tag]
      dsimp only
      rw [run_token false some_ few, isZero_token false some_ few, if_neg (by omega),
        if_neg Bool.false_ne_true, if_neg (by omega), done, Option.bind_some, if_pos accepted, expanded,
        List.length_append, Nat.add_assoc]
    · rw [List.length_append, span_add, same]
      congr 1
      nth_rewrite 2 [← literals]
      apply span_congr
      intro i hi
      rw [kept _ (by omega), there, if_pos (by omega), Nat.add_sub_cancel_left]
    · rw [kept i (by omega), there, if_neg (by omega)]

theorem undeltaAt_spec (c : Blob) {i : Nat} (h : i < blobSize) :
    ∃ next, undeltaAt c i = some next ∧ ∀ j, byteAt next j =
      if j = i then byteAt c i ^^^ byteAt c (i - recordSize) else byteAt c j := by
  obtain ⟨next, stored, bytes⟩ := store_spec c (byteAt c i ^^^ byteAt c (i - recordSize)) h
  refine ⟨next, ?_, bytes⟩
  rw [undeltaAt, loadOut, if_pos h, Option.bind_some, loadOut, if_pos (by omega), Option.bind_some,
    stored]

/-- The rows up to a byte are restored, those behind it are differences still. -/
theorem undelta_run (c : Blob) {k : Nat} (room : 32 + recordSize + k ≤ blobSize) :
    ∃ next, (List.range' (32 + recordSize) k).foldlM undeltaAt c = some next ∧
      ∀ b count, (∀ i, byteAt c i = delta b count i) →
        (k = 0 ∨ recordSize + k ≤ count * recordSize) → ∀ i, byteAt next i =
          if i < 32 + recordSize + k then byteAt b i else delta b count i := by
  induction k with
  | zero =>
    refine ⟨c, rfl, fun b count differences _ i => ?_⟩
    rw [differences]
    split
    · rename_i early
      rw [delta, if_neg (by omega)]
    · rfl
  | succ k ih =>
    obtain ⟨before, run_, rest⟩ := ih (by omega)
    obtain ⟨next, done, bytes⟩ := undeltaAt_spec before
      (show 32 + recordSize + k < blobSize by omega)
    refine ⟨next, ?_, fun b count differences inside i => ?_⟩
    · rw [List.range'_1_concat, List.foldlM_append, run_]
      simpa using done
    · have rows : recordSize + (k + 1) ≤ count * recordSize := by omega
      have values := rest b count differences (.inr (by omega))
      rw [bytes]
      by_cases here : i = 32 + recordSize + k
      · rw [if_pos here, values, if_neg (by omega), values, if_pos (by simp only [recordSize]; omega),
          delta, if_pos (by omega), if_pos (by omega), UInt8.xor_assoc, UInt8.xor_self, UInt8.xor_zero,
          here]
      · rw [if_neg here, values]
        split_ifs <;> first | rfl | omega

theorem undelta_safe (c : Blob) {count : Nat} (h : count ≤ capacity) :
    ∃ next, undelta count c = some next := by
  have room : 32 + recordSize + (count * recordSize - recordSize) ≤ blobSize := by
    rw [blobSize_eq]
    simp only [recordSize, capacity] at *
    omega
  obtain ⟨next, done, -⟩ := undelta_run c room
  exact ⟨next, done⟩

theorem undelta_delta (b c : Blob) {count : Nat} (h : count ≤ capacity)
    (differences : ∀ i, byteAt c i = delta b count i) : undelta count c = some b := by
  have room : 32 + recordSize + (count * recordSize - recordSize) ≤ blobSize := by
    rw [blobSize_eq]
    simp only [recordSize, capacity] at *
    omega
  obtain ⟨next, done, rest⟩ := undelta_run c room
  rw [undelta, done]
  apply congrArg some
  apply ext_byteAt
  intro i hi
  rw [rest b count differences (by simp only [recordSize]; omega)]
  split
  · rfl
  · rw [delta, if_neg (by omega)]

end Expanding

section Frame

theorem frameCrcFrom_congr {a b : Blob} {k : Nat}
    (h : ∀ i, i < k → i < 12 ∨ 16 ≤ i → byteAt a i = byteAt b i) :
    frameCrcFrom a k = frameCrcFrom b k := by
  induction k with
  | zero => rfl
  | succ k ih =>
    have earlier := ih fun i hi => h i (by omega)
    rw [frameCrcFrom, frameCrcFrom, earlier]
    split
    · rfl
    · rw [h k (by omega) (by omega)]

theorem header_width (output : Nat) : width (header output) = 12 := by simp [width, header]

theorem header_fits {output : Nat} (h : output < blobSize) :
    ∀ f ∈ header output, f.2 < 256 ^ f.1 := by
  rw [blobSize_eq] at h
  intro f mem
  simp only [header, List.mem_cons, List.not_mem_nil, or_false] at mem
  rcases mem with rfl | rfl | rfl | rfl | rfl | rfl
  case inr.inr.inr.inr.inl =>
    dsimp only
    omega
  all_goals decide

def frame (bytes : Blob) (output : Nat) : Packed :=
  let framed := putAll bytes 0 (header output)
  ⟨put framed 12 (frameCrc ⟨framed, output⟩) 4, output⟩

variable {bytes : Blob} {output : Nat}

theorem byteAt_frame {i : Nat} (h : 16 ≤ i) : byteAt (frame bytes output).bytes i = byteAt bytes i := by
  rw [frame, byteAt_put_of_not_mem _ _ _ _ _ (by omega), byteAt_putAll_of_not_mem]
  exact .inr (by rw [header_width]; omega)

theorem getAll_frame (room : output < blobSize) :
    getAll (frame bytes output).bytes 0 ((header output).map Prod.fst) =
      (header output).map Prod.snd := by
  have fits : 0 + width (header output) ≤ blobSize := by
    rw [header_width, blobSize_eq]
    omega
  rw [← getAll_putAll bytes 0 (header output) fits (header_fits room)]
  apply getAll_congr
  intro i _ hi
  rw [frame, byteAt_put_of_not_mem]
  exact .inl (by simpa [header] using hi)

theorem get_frame_crc : get (frame bytes output).bytes 12 4 = frameCrc (frame bytes output) := by
  have same : frameCrcFrom (frame bytes output).bytes output =
      frameCrcFrom (putAll bytes 0 (header output)) output := by
    apply frameCrcFrom_congr
    intro i _ outside
    exact byteAt_put_of_not_mem _ _ _ _ _ (by omega)
  have value : frameCrc (frame bytes output) = frameCrc ⟨putAll bytes 0 (header output), output⟩ := by
    rw [frameCrc, frameCrc]
    exact congrArg (fun c => (~~~ c).toNat) same
  have small : frameCrc ⟨putAll bytes 0 (header output), output⟩ < 256 ^ 4 := UInt32.toNat_lt_size _
  rw [value, frame, get_put _ _ _ _ (by rw [blobSize_eq]; omega) small]

end Frame

theorem pack_eq (canonical : Blob) (out : Packed) :
    pack canonical out =
        match (if get canonical 8 2 ≤ capacity then
          packRuns (delta canonical (get canonical 8 2)) 0 headerSize out.bytes else none) with
        | none => ⟨canonical, blobSize⟩
        | some (output, bytes) => frame bytes output := rfl

theorem field_inside {p : Packed} (small : p.size ≤ blobSize) {i len : Nat} (h : i + len ≤ p.size) :
    field p i len = some (get p.bytes i len) := if_pos ⟨h, by omega⟩

theorem unpackRows_safe (error : Error) (output : Nat) (c : Blob) :
    ∃ out, unpackRows error output c = some out := by
  unfold unpackRows
  split
  · exact ⟨_, rfl⟩
  split
  · exact ⟨_, rfl⟩
  split
  · exact ⟨_, rfl⟩
  · rename_i few
    obtain ⟨next, restored⟩ := undelta_safe c (Nat.le_of_not_lt few)
    rw [restored, Option.bind_some]
    exact ⟨_, rfl⟩

theorem unpackFrame_safe {p : Packed} (c : Blob) (small : p.size ≤ blobSize) (long : 16 ≤ p.size) :
    ∃ out, unpackFrame p c = some out := by
  obtain ⟨read, expanded⟩ := expand_safe small headerSize (Nat.zero_le blobSize) c
  rw [unpackFrame, field_inside small (by omega), Option.bind_some, field_inside small (by omega),
    Option.bind_some, field_inside small (by omega), Option.bind_some, field_inside small (by omega),
    Option.bind_some]
  split
  · exact ⟨_, rfl⟩
  rw [field_inside small (by omega), Option.bind_some, field_inside small (by omega),
    Option.bind_some]
  split
  · exact ⟨_, rfl⟩
  rw [unpackTokens, field_inside small (by omega), Option.bind_some, frameChecksum, if_pos small,
    Option.bind_some]
  split
  · exact ⟨_, rfl⟩
  · rw [expanded, Option.bind_some]
    exact unpackRows_safe _ _ _

theorem unpack_safe (p : Packed) (c : Blob) : ∃ out, unpack p c = some out := by
  unfold unpack
  split
  · exact ⟨_, rfl⟩
  rename_i inside
  simp only [headerSize, not_or, Nat.not_lt] at inside
  split
  · rw [unpackVerbatim, field_inside inside.1 (by omega), Option.bind_some]
    split
    · exact ⟨_, rfl⟩
    · exact ⟨_, rfl⟩
  · exact unpackFrame_safe c inside.1 inside.2

theorem closed_eq {b : Blob} (h : crcMatches b (blobSize - 4) = true) :
    closed b = some (.none, b) := by
  rw [closed, if_pos h]

private theorem unpackVerbatim_whole {b : Blob} (c : Blob) (known : get b 0 4 = 0x31544447)
    (checksum : crcMatches b (blobSize - 4) = true) :
    unpackVerbatim ⟨b, blobSize⟩ c = some (.none, b) := by
  have stored : field ⟨b, blobSize⟩ 0 4 = some (get b 0 4) :=
    field_inside (le_refl blobSize) (show 0 + 4 ≤ blobSize by rw [blobSize_eq]; omega)
  rw [unpackVerbatim, stored, Option.bind_some, if_neg (not_not.mpr known), closed_eq checksum]

/-- What `packRuns` has coded is what `unpackFrame` gives. -/
theorem unpackFrame_frame {b bytes : Blob} {output : Nat} (c : Blob)
    (few : get b 8 2 ≤ capacity) (checksum : crcMatches b (blobSize - 4) = true)
    (long : headerSize ≤ output) (room : output < blobSize)
    (codes : Codes (span (byteAt bytes) headerSize (output - headerSize))
      (span (delta b (get b 8 2)) 0 blobSize)) :
    unpackFrame (frame bytes output) c = some (.none, b) := by
  have small : (frame bytes output).size ≤ blobSize := Nat.le_of_lt room
  have values := @getAll_frame bytes output room
  simp only [header, List.map_cons, List.map_nil, getAll, Nat.zero_add, Nat.reduceAdd,
    List.cons.injEq, and_true] at values
  obtain ⟨stored, version, codec, size, length, reserved⟩ := values
  have stream : span (byteAt (frame bytes output).bytes) headerSize
      ((frame bytes output).size - headerSize) =
        span (byteAt bytes) headerSize (output - headerSize) :=
    span_congr fun i _ => byteAt_frame (Nat.le_add_right headerSize i)
  have whole : 0 + (span (delta b (get b 8 2)) 0 blobSize).length ≤ blobSize := by
    rw [length_span, Nat.zero_add]
  obtain ⟨next, expanded, same, -⟩ := expand_codes small codes c stream whole
  rw [length_span, Nat.zero_add] at expanded
  rw [length_span] at same
  have differences : ∀ i, byteAt next i = delta b (get b 8 2) i := by
    intro i
    by_cases inside : i < blobSize
    · simpa only [Nat.zero_add] using span_apply same inside
    · have few_ : get b 8 2 ≤ 64 := few
      rw [blobSize_eq] at inside
      rw [byteAt_of_le next (by rw [blobSize_eq]; omega), delta, if_neg, byteAt_of_le b]
      · rw [blobSize_eq]
        omega
      · simp only [recordSize]
        omega
  have count : get next 8 2 = get b 8 2 := by
    apply get_congr
    intro i first last
    rw [differences, delta, if_neg (by simp only [recordSize]; omega)]
  have restored := undelta_delta b next few differences
  have fits : 16 ≤ (frame bytes output).size := long
  have length_ : (frame bytes output).size - headerSize = output - headerSize := rfl
  rw [unpackFrame, field_inside small (by omega), Option.bind_some, field_inside small (by omega),
    Option.bind_some, field_inside small (by omega), Option.bind_some, field_inside small (by omega),
    Option.bind_some, stored, version, codec, reserved, if_neg (by decide),
    field_inside small (by omega), Option.bind_some, field_inside small (by omega), Option.bind_some,
    size, length, length_, if_neg (by simp only [ne_eq, not_true, or_false, not_false_eq_true])]
  rw [unpackTokens, field_inside small (by omega), Option.bind_some, frameChecksum, if_pos small,
    Option.bind_some, get_frame_crc, if_neg (not_not.mpr rfl), expanded, Option.bind_some]
  rw [unpackRows, if_neg (not_not.mpr rfl), if_neg (not_not.mpr rfl), count, if_neg (Nat.not_lt.mpr few),
    restored, Option.bind_some, closed_eq checksum]

theorem unpack_pack (b c : Blob) (out : Packed) (known : get b 0 4 = 0x31544447)
    (checksum : crcMatches b (blobSize - 4) = true) : unpack (pack b out) c = some (.none, b) := by
  rw [pack_eq]
  split
  · have fits : ¬ (blobSize > blobSize ∨ blobSize < headerSize) := by
      rw [blobSize_eq]
      decide
    rw [unpack, if_neg fits, if_pos rfl, unpackVerbatim_whole c known checksum]
  · rename_i output bytes packed
    split at packed
    · rename_i few
      obtain ⟨long, room, -, codes⟩ :=
        packRuns_spec packed (Nat.zero_le blobSize) (by rw [blobSize_eq]; decide)
      have size : (frame bytes output).size = output := rfl
      rw [unpack, size, if_neg (by simp only [headerSize] at *; omega), if_neg (by omega)]
      exact unpackFrame_frame c few checksum long room codes
    · cases packed

/-- A packed blob is smaller, or it is the blob. -/
private theorem pack_size (b : Blob) (out : Packed) :
    (pack b out).size < blobSize ∨ pack b out = ⟨b, blobSize⟩ := by
  rw [pack_eq]
  split
  · exact .inr rfl
  · rename_i output bytes packed
    split at packed
    · exact .inl (packRuns_spec packed (Nat.zero_le blobSize) (by rw [blobSize_eq]; decide)).2.1
    · cases packed

/-- The blob is kept as it is only where no stream of its rows is smaller. -/
private theorem pack_verbatim {b : Blob} {out : Packed} (few : get b 8 2 ≤ capacity)
    (verbatim : (pack b out).size = blobSize) {stream : List UInt8}
    (codes : Codes stream (span (delta b (get b 8 2)) 0 blobSize)) :
    blobSize ≤ headerSize + stream.length := by
  rw [pack_eq, if_pos few] at verbatim
  split at verbatim
  · rename_i full
    exact packRuns_none full (Nat.zero_le blobSize) codes
  · rename_i output bytes packed
    have smaller := (packRuns_spec packed (Nat.zero_le blobSize) (by rw [blobSize_eq]; decide)).2.1
    exact absurd verbatim (Nat.ne_of_lt smaller)

/-- Packing loses nothing, never grows and keeps the blob only where no stream is smaller, and unpacking stays inside
its buffers on every input. -/
theorem storage_codec :
    (∀ (b : Blob) (out : Packed), get b 0 4 = 0x31544447 → crcMatches b (blobSize - 4) = true →
      ∀ c, unpack (pack b out) c = some (.none, b)) ∧
    (∀ (b : Blob) (out : Packed), (pack b out).size ≤ blobSize ∧
      ((pack b out).size < blobSize ∨ pack b out = ⟨b, blobSize⟩)) ∧
    (∀ (b : Blob) (out : Packed), get b 8 2 ≤ capacity → (pack b out).size = blobSize →
      ∀ stream, Codes stream (span (delta b (get b 8 2)) 0 blobSize) → blobSize ≤ headerSize + stream.length) ∧
    ∀ (p : Packed) (c : Blob), (unpack p c).isSome = true := by
  refine ⟨?_, ?_, fun b out few verbatim stream => pack_verbatim few verbatim, ?_⟩
  · intro b out known checksum c
    exact unpack_pack b c out known checksum
  · intro b out
    have size := pack_size b out
    constructor
    · rcases size with smaller | verbatim
      · exact Nat.le_of_lt smaller
      · rw [verbatim]
    · exact size
  · intro p c
    exact Option.isSome_iff_exists.mpr (unpack_safe p c)

def twoRows : Model :=
  (Model.push {} { boot := 1, flags := 1, soc := 40, voltageMv := 3600 }).push
    { boot := 1, flags := 33, soc := 39, voltageMv := 3590, rawCoulombMah := 1200 }

private theorem twoRows_known : get (encodeInto twoRows) 0 4 = 0x31544447 ∧
    crcMatches (encodeInto twoRows) (blobSize - 4) = true := by
  have values := getAll_header twoRows ⟨by decide, by decide⟩
  simp only [Model.header, List.map_cons, List.map_nil, getAll, List.cons.injEq] at values
  exact ⟨values.1, crcMatches_closeCrc _ _ (by rw [blobSize_eq])⟩

theorem twoRows_packed :
    unpack (pack (encodeInto twoRows) ⟨zero blobSize, 0⟩) (zero blobSize) = some (.none, encodeInto twoRows) :=
  storage_codec.1 _ _ twoRows_known.1 twoRows_known.2 _

end Mosaico.Host.GaugeTrace.StorageCodec
