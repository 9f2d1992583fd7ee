import Mathlib.Data.List.Forall2
import Mosaico.Lan.PacketFilter
import Mathlib.Algebra.Group.Nat.Defs
import Mathlib.Algebra.Group.Int.Defs

/-! `parse_batch` of `mosaico_lan_packet_headers.py`: the records of one receive, all or none. -/
namespace Mosaico.Lan.PacketHeaders

open ClassicBpf

abbrev maxBatch : Nat := 65536

/-- The size of a `BpfHeader` with its padding; 18 bytes of it are read. -/
abbrev headerSize : Nat := 20

def localText : String := "192.168.1.154"

def octet (text : List Char) : Option Nat :=
  let value := text.foldl (fun v c => v * 10 + (c.toNat - 48)) 0
  if text ≠ [] ∧ text.length ≤ 3 ∧ text.all Char.isDigit ∧ (text = ['0'] ∨ text.head? ≠ some '0') ∧
      value ≤ 255 then some value
  else none

def ipv4Address (text : String) : Option UInt32 := do
  match ← (text.toList.splitOn '.').mapM octet with
  | [a, b, c, d] => return UInt32.ofNat (((a * 256 + b) * 256 + c) * 256 + d)
  | _ => none

def privateIpv4 (text : String) : Option UInt32 := do
  let address ← ipv4Address text
  let n := address.toNat
  if ¬ (n >>> 24 = 10 ∨ n >>> 20 = 0xAC1 ∨ n >>> 16 = 0xC0A8) ∨ n &&& 255 = 0 ∨ n &&& 255 = 255 then none
  return address

structure Config where
  localAddress : String
  peer : String
  port : Int
  ttl : Int
  outputAbsolute : Bool

def validateConfig (config : Config) : Option Unit := do
  let localIp ← privateIpv4 config.localAddress
  if some localIp ≠ ipv4Address localText then none
  else
    let peerIp ← privateIpv4 config.peer
    if some peerIp = ipv4Address localText then none
    else if ¬ (1024 ≤ config.port ∧ config.port ≤ 65535) then none
    else if ¬ (1 ≤ config.ttl ∧ config.ttl ≤ 120) then none
    else if config.outputAbsolute = false then none
    else some ()

structure Metadata where
  header : Header
  epochSec : Int
  epochUs : Int
  deriving DecidableEq, Repr

def little (bytes : List UInt8) (offset size : Nat) : Nat :=
  ((bytes.drop offset).take size).foldr (fun b v => b.toNat + 256 * v) 0

def signed32 (v : Nat) : Int := if v < 2 ^ 31 then v else (v : Int) - 2 ^ 32

structure Fields where
  sec : Int
  usec : Int
  caplen : Nat
  datalen : Nat
  hdrlen : Nat

/-- `struct.unpack_from("<iiIIH", buffer, offset)`. -/
def unpackFrom (buffer : List UInt8) (offset : Nat) : Fields :=
  { sec := signed32 (little buffer offset 4)
    usec := signed32 (little buffer (offset + 4) 4)
    caplen := little buffer (offset + 8) 4
    datalen := little buffer (offset + 12) 4
    hdrlen := little buffer (offset + 16) 2 }

def wordAlign (size : Nat) : Nat := (size + 3) / 4 * 4

theorem wordAlign_ge (size : Nat) : size ≤ wordAlign size := by
  rw [wordAlign]
  omega

theorem wordAlign_mod (size : Nat) : wordAlign size % 4 = 0 ∧ wordAlign size ≤ size + 3 := by
  rw [wordAlign]
  omega

/-- The slice of the buffer behind `start`, without bounds of its own. -/
def sliceReader (buffer : List UInt8) (start position size : Nat) : Nat :=
  bigEndian ((buffer.drop (start + position)).take size)

section Batch

variable (localIp peerIp : UInt32) (port : UInt16)

def batchRows (buffer : List UInt8) (received offset : Nat) : Option (List Metadata) :=
  if offset < received then
    if received - offset < headerSize then none
    else
      let f := unpackFrom buffer offset
      if f.hdrlen < headerSize ∨ ¬ (0 ≤ f.usec ∧ f.usec < 1000000) then none
      else if maxSnap < f.caplen ∨ received < offset + f.hdrlen + f.caplen ∨
          received < offset + wordAlign (f.hdrlen + f.caplen) then none
      else do
        let header ← parseHeader (sliceReader buffer (offset + f.hdrlen)) f.caplen f.datalen localIp peerIp port
        let rows ← batchRows buffer received (offset + wordAlign (f.hdrlen + f.caplen))
        return { header, epochSec := f.sec, epochUs := f.usec } :: rows
  else some []
termination_by received - offset
decreasing_by
  rename_i more _ valid _
  have long : 20 ≤ (unpackFrom buffer offset).hdrlen := Nat.le_of_not_lt (not_or.mp valid).1
  have aligned := wordAlign_ge ((unpackFrom buffer offset).hdrlen + (unpackFrom buffer offset).caplen)
  show received - (offset + wordAlign ((unpackFrom buffer offset).hdrlen + (unpackFrom buffer offset).caplen)) < _
  omega

end Batch

def parseBatch (buffer : List UInt8) (received : Int) (config : Config) : Option (List Metadata) := do
  validateConfig config
  if received < 0 ∨ (min buffer.length maxBatch : Nat) < received then none
  let localIp ← ipv4Address config.localAddress
  let peerIp ← ipv4Address config.peer
  batchRows localIp peerIp (UInt16.ofNat config.port.toNat) buffer received.toNat 0

structure Record where
  header : List UInt8
  frame : List UInt8
  padding : List UInt8

def Record.bytes (r : Record) : List UInt8 := r.header ++ (r.frame ++ r.padding)

section Records

variable (localIp peerIp : UInt32) (port : UInt16)

def recordMetadata (header frame : List UInt8) : Option Metadata :=
  let f := unpackFrom header 0
  if 0 ≤ f.usec ∧ f.usec < 1000000 then
    (parseHeader (sliceReader frame 0) frame.length f.datalen localIp peerIp port).map fun parsed =>
      { header := parsed, epochSec := f.sec, epochUs := f.usec }
  else none

/-- The record announces its own sizes, is aligned with up to three bytes, and is accepted. -/
structure Record.Holds (r : Record) (metadata : Metadata) : Prop where
  header : headerSize ≤ r.header.length
  hdrlen : (unpackFrom r.header 0).hdrlen = r.header.length
  caplen : (unpackFrom r.header 0).caplen = r.frame.length
  padding : r.padding.length ≤ 3 ∧ (r.header.length + r.frame.length + r.padding.length) % 4 = 0
  metadata : recordMetadata localIp peerIp port r.header r.frame = some metadata

variable {localIp peerIp port} {front mid tail buffer header frame : List UInt8} {offset received : Nat}

theorem slice_inside {k n : Nat} (within : k + n ≤ mid.length) :
    ((front ++ (mid ++ tail)).drop (front.length + k)).take n = (mid.drop k).take n := by
  rw [List.drop_append, List.drop_of_length_le (by omega), List.nil_append, Nat.add_sub_cancel_left,
    List.drop_append_of_le_length (by omega), List.take_append_of_le_length (by rw [List.length_drop]; omega)]

/-- The fields of a record are read from its header. -/
theorem unpackFrom_inside (whole : headerSize ≤ mid.length) :
    unpackFrom (front ++ (mid ++ tail)) front.length = unpackFrom mid 0 := by
  have long : 20 ≤ mid.length := whole
  have field {k n : Nat} (within : k + n ≤ 20) :
      little (front ++ (mid ++ tail)) (front.length + k) n = little mid (0 + k) n := by
    rw [little, little, slice_inside (by omega), Nat.zero_add]
  have first : little (front ++ (mid ++ tail)) front.length 4 = little mid 0 4 := @field 0 4 (by omega)
  rw [unpackFrom, unpackFrom, first, field (by omega), field (by omega), field (by omega), field (by omega)]

/-- A frame reads the same in the buffer as alone. -/
theorem parseHeader_inside {wireLen : Nat} :
    parseHeader (sliceReader (front ++ (mid ++ tail)) front.length) mid.length wireLen localIp peerIp port =
      parseHeader (sliceReader mid 0) mid.length wireLen localIp peerIp port := by
  apply parseHeader_congr
  intro offset size within
  rw [sliceReader, sliceReader, slice_inside within, Nat.zero_add]

theorem Record.Holds.aligned {r : Record} {metadata : Metadata} (holds : r.Holds localIp peerIp port metadata) :
    wordAlign (r.header.length + r.frame.length) = r.bytes.length := by
  have padding := holds.padding
  rw [wordAlign, Record.bytes, List.length_append, List.length_append]
  omega

/-- The parts of an accepted record's metadata. -/
theorem recordMetadata_some {metadata : Metadata} :
    recordMetadata localIp peerIp port header frame = some metadata ↔
      (0 ≤ (unpackFrom header 0).usec ∧ (unpackFrom header 0).usec < 1000000) ∧
        ∃ parsed, parseHeader (sliceReader frame 0) frame.length (unpackFrom header 0).datalen localIp peerIp port =
          some parsed ∧
          metadata =
            { header := parsed, epochSec := (unpackFrom header 0).sec, epochUs := (unpackFrom header 0).usec } := by
  rw [recordMetadata]
  split
  · rename_i valid
    rw [Option.map_eq_some_iff]
    constructor
    · rintro ⟨parsed, found, same⟩
      exact ⟨valid, parsed, found, same.symm⟩
    · rintro ⟨_, parsed, found, same⟩
      exact ⟨parsed, found, same.symm⟩
  · rename_i invalid
    exact ⟨nofun, fun both => absurd both.1 invalid⟩

/-- One turn of the loop. -/
theorem batchRows_step (more : offset < received) {rows : List Metadata} :
    batchRows localIp peerIp port buffer received offset = some rows ↔
      headerSize ≤ received - offset ∧ headerSize ≤ (unpackFrom buffer offset).hdrlen ∧
        (0 ≤ (unpackFrom buffer offset).usec ∧ (unpackFrom buffer offset).usec < 1000000) ∧
        (unpackFrom buffer offset).caplen ≤ maxSnap ∧
        offset + (unpackFrom buffer offset).hdrlen + (unpackFrom buffer offset).caplen ≤ received ∧
        offset + wordAlign ((unpackFrom buffer offset).hdrlen + (unpackFrom buffer offset).caplen) ≤ received ∧
        ∃ parsed rest, parseHeader (sliceReader buffer (offset + (unpackFrom buffer offset).hdrlen))
            (unpackFrom buffer offset).caplen (unpackFrom buffer offset).datalen localIp peerIp port = some parsed ∧
          batchRows localIp peerIp port buffer received
            (offset + wordAlign ((unpackFrom buffer offset).hdrlen + (unpackFrom buffer offset).caplen)) = some rest ∧
          rows = { header := parsed, epochSec := (unpackFrom buffer offset).sec,
                   epochUs := (unpackFrom buffer offset).usec } :: rest := by
  rw [batchRows, if_pos more]
  by_cases room : received - offset < headerSize
  · rw [if_pos room]
    exact ⟨nofun, fun all => absurd room (Nat.not_lt.mpr all.1)⟩
  · rw [if_neg room]
    dsimp only
    by_cases bad : (unpackFrom buffer offset).hdrlen < headerSize ∨
        ¬ (0 ≤ (unpackFrom buffer offset).usec ∧ (unpackFrom buffer offset).usec < 1000000)
    · rw [if_pos bad]
      refine ⟨nofun, fun all => ?_⟩
      rcases bad with short | time
      · exact absurd short (Nat.not_lt.mpr all.2.1)
      · exact absurd all.2.2.1 time
    · rw [if_neg bad]
      rw [not_or, not_not] at bad
      by_cases outside : maxSnap < (unpackFrom buffer offset).caplen ∨
          received < offset + (unpackFrom buffer offset).hdrlen + (unpackFrom buffer offset).caplen ∨
          received < offset + wordAlign ((unpackFrom buffer offset).hdrlen + (unpackFrom buffer offset).caplen)
      · rw [if_pos outside]
        refine ⟨nofun, fun all => ?_⟩
        have inside := all.2.2.2
        rcases outside with long | frame | record
        · exact absurd long (Nat.not_lt.mpr inside.1)
        · exact absurd frame (Nat.not_lt.mpr inside.2.1)
        · exact absurd record (Nat.not_lt.mpr inside.2.2.1)
      · rw [if_neg outside]
        rw [not_or, not_or] at outside
        simp only [Option.bind_eq_bind, Option.bind_eq_some_iff, Option.pure_def, Option.some_inj]
        constructor
        · rintro ⟨parsed, found, rest, tail, same⟩
          exact ⟨Nat.le_of_not_lt room, Nat.le_of_not_lt bad.1, bad.2, Nat.le_of_not_lt outside.1,
            Nat.le_of_not_lt outside.2.1, Nat.le_of_not_lt outside.2.2, parsed, rest, found, tail, same.symm⟩
        · rintro ⟨_, _, _, _, _, _, parsed, rest, found, tail, same⟩
          exact ⟨parsed, found, rest, tail, same.symm⟩

/-- Records that hold are read off, whatever stands around them. -/
theorem batchRows_records {records : List Record} {rows : List Metadata}
    (hold : List.Forall₂ (Record.Holds localIp peerIp port) records rows) (front tail : List UInt8) :
    batchRows localIp peerIp port (front ++ (records.flatMap Record.bytes ++ tail))
      (front.length + (records.flatMap Record.bytes).length) front.length = some rows := by
  induction hold generalizing front with
  | nil =>
    rw [batchRows, if_neg (by simp)]
  | @cons r metadata records rows holds rest ih =>
    obtain ⟨valid, parsed, found, same⟩ := recordMetadata_some.mp holds.metadata
    have snap := (parseHeader_some.mp found).1.2
    have long : 20 ≤ r.header.length := holds.header
    have aligned := holds.aligned
    have total : r.bytes.length = r.header.length + (r.frame.length + r.padding.length) := by
      rw [Record.bytes, List.length_append, List.length_append]
    have size : ((r :: records).flatMap Record.bytes).length =
        r.bytes.length + (records.flatMap Record.bytes).length := by
      rw [List.flatMap_cons, List.length_append]
    obtain ⟨more, hmore⟩ : ∃ more, more = records.flatMap Record.bytes ++ tail := ⟨_, rfl⟩
    have layout : front ++ ((r :: records).flatMap Record.bytes ++ tail) =
        front ++ (r.header ++ (r.frame ++ (r.padding ++ more))) := by
      rw [hmore, List.flatMap_cons, Record.bytes]
      simp only [List.append_assoc]
    have fields : unpackFrom (front ++ (r.header ++ (r.frame ++ (r.padding ++ more)))) front.length =
        unpackFrom r.header 0 := unpackFrom_inside holds.header
    rw [layout]
    refine (batchRows_step (by omega)).mpr ?_
    rw [fields, holds.hdrlen, holds.caplen, aligned]
    refine ⟨by show 20 ≤ _; omega, holds.header, valid, snap, by omega, by omega, parsed, rows, ?_, ?_, ?_⟩
    · have inside := @parseHeader_inside localIp peerIp port (front ++ r.header) r.frame (r.padding ++ more)
        (unpackFrom r.header 0).datalen
      rw [List.length_append, List.append_assoc] at inside
      exact inside.trans found
    · have later := ih (front ++ r.bytes)
      rw [List.length_append, ← hmore, Record.bytes] at later
      simp only [List.append_assoc] at later
      rw [size, ← Nat.add_assoc]
      exact later
    · rw [same]

private theorem split_at {n : Nat} (inside : n ≤ buffer.length) :
    ∃ front back, buffer = front ++ back ∧ front.length = n :=
  ⟨buffer.take n, buffer.drop n, (List.take_append_drop n buffer).symm, List.length_take_of_le inside⟩

/-- The record that one turn of the loop reads. -/
theorem record_at {metadata : Metadata} {parsed : Header} (whole : received ≤ buffer.length)
    (long : headerSize ≤ (unpackFrom buffer offset).hdrlen)
    (time : 0 ≤ (unpackFrom buffer offset).usec ∧ (unpackFrom buffer offset).usec < 1000000)
    (fits : offset + wordAlign ((unpackFrom buffer offset).hdrlen + (unpackFrom buffer offset).caplen) ≤ received)
    (found : parseHeader (sliceReader buffer (offset + (unpackFrom buffer offset).hdrlen))
      (unpackFrom buffer offset).caplen (unpackFrom buffer offset).datalen localIp peerIp port = some parsed)
    (same : metadata = { header := parsed, epochSec := (unpackFrom buffer offset).sec,
                         epochUs := (unpackFrom buffer offset).usec }) :
    ∃ r : Record, r.Holds localIp peerIp port metadata ∧
      r.bytes.length = wordAlign ((unpackFrom buffer offset).hdrlen + (unpackFrom buffer offset).caplen) ∧
      (buffer.take received).drop offset = r.bytes ++ (buffer.take received).drop (offset + r.bytes.length) := by
  generalize hf : unpackFrom buffer offset = f at *
  have grows := wordAlign_ge (f.hdrlen + f.caplen)
  have aligned := wordAlign_mod (f.hdrlen + f.caplen)
  have minimum : 20 ≤ f.hdrlen := long
  obtain ⟨front, behind, rfl, place⟩ := split_at (show offset ≤ buffer.length by omega)
  rw [List.length_append, place] at whole
  obtain ⟨header, behindHeader, rfl, headerLength⟩ := split_at (show f.hdrlen ≤ behind.length by omega)
  rw [List.length_append, headerLength] at whole
  obtain ⟨frame, behindFrame, rfl, frameLength⟩ := split_at (show f.caplen ≤ behindHeader.length by omega)
  rw [List.length_append, frameLength] at whole
  obtain ⟨padding, tail, rfl, paddingLength⟩ :=
    split_at (show wordAlign (f.hdrlen + f.caplen) - (f.hdrlen + f.caplen) ≤ behindFrame.length by omega)
  have fields : f = unpackFrom header 0 := by
    rw [← hf, ← place]
    exact unpackFrom_inside (by show 20 ≤ _; omega)
  have size : (Record.bytes ⟨header, frame, padding⟩).length = wordAlign (f.hdrlen + f.caplen) := by
    rw [Record.bytes, List.length_append, List.length_append]
    show header.length + (frame.length + padding.length) = _
    omega
  refine ⟨⟨header, frame, padding⟩, ⟨headerLength ▸ long, ?_, ?_, ?_, ?_⟩, size, ?_⟩
  · exact (congrArg Fields.hdrlen fields.symm).trans headerLength.symm
  · exact (congrArg Fields.caplen fields.symm).trans frameLength.symm
  · dsimp only
    omega
  · have inside := @parseHeader_inside localIp peerIp port (front ++ header) frame (padding ++ tail) f.datalen
    rw [List.length_append, place, List.append_assoc, frameLength, headerLength] at inside
    have alone := inside.symm.trans found
    rw [← frameLength] at alone
    rw [fields] at time alone same
    exact recordMetadata_some.mpr ⟨time, parsed, alone, same⟩
  · have parts : front ++ (header ++ (frame ++ (padding ++ tail))) =
        (front ++ Record.bytes ⟨header, frame, padding⟩) ++ tail := by
      rw [Record.bytes]
      simp only [List.append_assoc]
    have taken : (front ++ (header ++ (frame ++ (padding ++ tail)))).take received =
        front ++ (Record.bytes ⟨header, frame, padding⟩ ++
          tail.take (received - (front ++ Record.bytes ⟨header, frame, padding⟩).length)) := by
      rw [parts, List.take_append, List.take_of_length_le (by rw [List.length_append]; omega), List.append_assoc]
    rw [taken, ← place, List.drop_left, ← List.append_assoc, ← List.length_append, List.drop_left]

theorem records_batchRows {rows : List Metadata} (whole : received ≤ buffer.length) (start : offset ≤ received)
    (read : batchRows localIp peerIp port buffer received offset = some rows) :
    ∃ records, (buffer.take received).drop offset = records.flatMap Record.bytes ∧
      List.Forall₂ (Record.Holds localIp peerIp port) records rows := by
  generalize left : received - offset = n
  induction n using Nat.strongRecOn generalizing offset rows with
  | ind n ih =>
    by_cases more : offset < received
    · obtain ⟨_, long, time, _, _, fits, parsed, rest, found, tail, same⟩ := (batchRows_step more).mp read
      obtain ⟨r, holds, size, parts⟩ := record_at whole long time fits found rfl
      have grows := wordAlign_ge ((unpackFrom buffer offset).hdrlen + (unpackFrom buffer offset).caplen)
      have minimum : 20 ≤ (unpackFrom buffer offset).hdrlen := long
      obtain ⟨records, bytes, hold⟩ := ih _ (by omega) fits tail rfl
      refine ⟨r :: records, ?_, ?_⟩
      · rw [List.flatMap_cons, ← bytes, ← size]
        exact parts
      · rw [same]
        exact .cons holds hold
    · rw [batchRows, if_neg more] at read
      cases read
      refine ⟨[], ?_, .nil⟩
      rw [List.flatMap_nil, List.drop_eq_nil_iff, List.length_take]
      omega

theorem batchRows_iff {rows : List Metadata} (whole : received ≤ buffer.length) :
    batchRows localIp peerIp port buffer received 0 = some rows ↔
      ∃ records, buffer.take received = records.flatMap Record.bytes ∧
        List.Forall₂ (Record.Holds localIp peerIp port) records rows := by
  constructor
  · intro read
    have found := records_batchRows whole (Nat.zero_le _) read
    rwa [List.drop_zero] at found
  · rintro ⟨records, bytes, hold⟩
    have read := batchRows_records hold [] (buffer.drop received)
    rw [List.nil_append, ← bytes, List.take_append_drop, List.length_nil, Nat.zero_add,
      List.length_take_of_le whole] at read
    exact read

end Records

/-- The numbers of a configuration that is accepted. -/
structure Config.Accepted (config : Config) (localIp peerIp : UInt32) (port : UInt16) : Prop where
  valid : validateConfig config = some ()
  localIp : ipv4Address config.localAddress = some localIp
  peerIp : ipv4Address config.peer = some peerIp
  port : port = UInt16.ofNat config.port.toNat

theorem parseBatch_iff {buffer : List UInt8} {received : Int} {config : Config} {rows : List Metadata} :
    parseBatch buffer received config = some rows ↔ ∃ localIp peerIp port, config.Accepted localIp peerIp port ∧
      0 ≤ received ∧ received ≤ (min buffer.length maxBatch : Nat) ∧ ∃ records,
        buffer.take received.toNat = records.flatMap Record.bytes ∧
          List.Forall₂ (Record.Holds localIp peerIp port) records rows := by
  rw [parseBatch]
  cases valid : validateConfig config with
  | none =>
    refine ⟨nofun, ?_⟩
    rintro ⟨_, _, _, accepted, _⟩
    cases valid.symm.trans accepted.valid
  | some u =>
    simp only [Option.bind_eq_bind, Option.bind_some]
    by_cases outside : received < 0 ∨ (min buffer.length maxBatch : Nat) < received
    · rw [if_pos outside]
      refine ⟨nofun, ?_⟩
      rintro ⟨_, _, _, _, positive, inside, _⟩
      omega
    · rw [if_neg outside]
      have whole : received.toNat ≤ buffer.length := by omega
      simp only [Option.bind_eq_some_iff, batchRows_iff whole]
      constructor
      · rintro ⟨localIp, hlocal, peerIp, hpeer, records, bytes, hold⟩
        exact ⟨localIp, peerIp, _, ⟨valid, hlocal, hpeer, rfl⟩, by omega, by omega, records, bytes, hold⟩
      · rintro ⟨localIp, peerIp, port, accepted, _, _, records, bytes, hold⟩
        rw [accepted.port] at hold
        exact ⟨localIp, accepted.localIp, peerIp, accepted.peerIp, records, bytes, hold⟩

private theorem privateIpv4_address {text : String} {address : UInt32} (h : privateIpv4 text = some address) :
    ipv4Address text = some address := by
  rw [privateIpv4] at h
  obtain ⟨found, parsed, h⟩ := Option.bind_eq_some_iff.mp h
  dsimp only at h
  split at h
  · cases h
  · cases h
    exact parsed

/-- What is accepted has its numbers. -/
theorem accepted_of_valid {config : Config} (valid : validateConfig config = some ()) :
    ∃ localIp peerIp port, config.Accepted localIp peerIp port := by
  have checked := valid
  rw [validateConfig] at checked
  obtain ⟨localIp, hlocal, checked⟩ := Option.bind_eq_some_iff.mp checked
  split at checked
  · cases checked
  · obtain ⟨peerIp, hpeer, _⟩ := Option.bind_eq_some_iff.mp checked
    exact ⟨localIp, peerIp, _, valid, privateIpv4_address hlocal, privateIpv4_address hpeer, rfl⟩

/-- The same records as far as header, frame and size go. -/
def Record.Alike (r r' : Record) : Prop :=
  r.header = r'.header ∧ r.frame = r'.frame ∧ r.padding.length = r'.padding.length

theorem Record.Holds.alike {localIp peerIp : UInt32} {port : UInt16} {r r' : Record} {metadata : Metadata}
    (holds : r.Holds localIp peerIp port metadata) (same : r.Alike r') : r'.Holds localIp peerIp port metadata := by
  obtain ⟨header, frame, padding⟩ := same
  refine ⟨header ▸ holds.header, ?_, ?_, ?_, ?_⟩
  · rw [← header]
    exact holds.hdrlen
  · rw [← header, ← frame]
    exact holds.caplen
  · rw [← header, ← frame, ← padding]
    exact holds.padding
  · rw [← header, ← frame]
    exact holds.metadata

private theorem alike_hold {localIp peerIp : UInt32} {port : UInt16} {records records' : List Record}
    {rows : List Metadata} (hold : List.Forall₂ (Record.Holds localIp peerIp port) records rows)
    (same : List.Forall₂ Record.Alike records records') :
    List.Forall₂ (Record.Holds localIp peerIp port) records' rows := by
  induction hold generalizing records' with
  | nil =>
    cases same
    exact .nil
  | cons holds rest ih =>
    cases same with
    | cons alike others => exact .cons (holds.alike alike) (ih others)

/-- A batch is parsed into the metadata of its records or refused; what stands in the padding and
behind the received bytes plays no part; and the narrowed filter captures what the parser takes. -/
theorem parse_batch_exact (config : Config) :
    (∀ (buffer : List UInt8) (received : Int) (rows : List Metadata),
      parseBatch buffer received config = some rows ↔ ∃ localIp peerIp port, config.Accepted localIp peerIp port ∧
        0 ≤ received ∧ received ≤ (min buffer.length maxBatch : Nat) ∧ ∃ records,
          buffer.take received.toNat = records.flatMap Record.bytes ∧
            List.Forall₂ (Record.Holds localIp peerIp port) records rows) ∧
    (validateConfig config = some () → ∃ localIp peerIp port, config.Accepted localIp peerIp port) ∧
    ∀ localIp peerIp port, config.Accepted localIp peerIp port →
      (∀ (records records' : List Record) (rows : List Metadata) (tail : List UInt8),
        List.Forall₂ (Record.Holds localIp peerIp port) records rows → List.Forall₂ Record.Alike records records' →
        (records'.flatMap Record.bytes).length ≤ maxBatch →
        parseBatch (records'.flatMap Record.bytes ++ tail) (records'.flatMap Record.bytes).length config =
          some rows) ∧
      ∃ insns, buildFilter localIp peerIp port = some insns ∧ ∀ (p : Packet) (s : Regs),
        run p insns 0 s ≤ maxSnap ∧ ∀ n, 0 < n → (run p insns 0 s = n ↔ ParserTakes localIp peerIp port p n) := by
  refine ⟨fun buffer received rows => parseBatch_iff, accepted_of_valid, ?_⟩
  intro localIp peerIp port accepted
  refine ⟨?_, buildFilter_takes localIp peerIp port⟩
  intro records records' rows tail hold same short
  refine parseBatch_iff.mpr ⟨localIp, peerIp, port, accepted, by omega, ?_, records', ?_, alike_hold hold same⟩
  · rw [List.length_append]
    omega
  · rw [Int.toNat_natCast, List.take_left]

section Sample

def sampleConfig : Config :=
  { localAddress := localText, peer := "192.168.1.20", port := 4000, ttl := 60, outputAbsolute := true }

def localBytes : List UInt8 := [192, 168, 1, 154]

def peerBytes : List UInt8 := [192, 168, 1, 20]

theorem sampleConfig_accepted : sampleConfig.Accepted 0xC0A8019A 0xC0A80114 4000 :=
  ⟨by decide +kernel, by decide +kernel, by decide +kernel, rfl⟩

def segment (src dst sport dport : List UInt8) : List UInt8 :=
  List.replicate 12 0 ++ [8, 0] ++ [0x45, 0, 0, 40, 0, 0, 0, 0, 64, 6, 0, 0] ++ src ++ dst ++ sport ++ dport ++
    [0, 0, 0, 1, 0, 0, 0, 2, 0x50, 0x10, 0, 64, 0, 0, 0, 0]

def recordHeader (sec : UInt8) : List UInt8 := [sec, 0, 0, 0, 7, 0, 0, 0, 54, 0, 0, 0, 54, 0, 0, 0, 20, 0, 0, 0]

def sent (padding : List UInt8) : Record := ⟨recordHeader 1, segment localBytes peerBytes [15, 160] [1, 187], padding⟩

def received (padding : List UInt8) : Record :=
  ⟨recordHeader 2, segment peerBytes localBytes [1, 187] [15, 160], padding⟩

private theorem sample_holds {r : Record}
      (whole : (decide (headerSize ≤ r.header.length) && (unpackFrom r.header 0).hdrlen == r.header.length &&
      (unpackFrom r.header 0).caplen == r.frame.length && decide (r.padding.length ≤ 3) &&
      (r.header.length + r.frame.length + r.padding.length) % 4 == 0 &&
      (recordMetadata 0xC0A8019A 0xC0A80114 4000 r.header r.frame).isSome) = true) :
    ∃ metadata, r.Holds 0xC0A8019A 0xC0A80114 4000 metadata := by
  simp only [Bool.and_eq_true, decide_eq_true_eq, beq_iff_eq] at whole
  obtain ⟨⟨⟨⟨⟨header, hdrlen⟩, caplen⟩, short⟩, aligned⟩, parsed⟩ := whole
  obtain ⟨metadata, parsed⟩ := Option.isSome_iff_exists.mp parsed
  exact ⟨metadata, header, hdrlen, caplen, ⟨short, aligned⟩, parsed⟩

/-- A segment and its answer, with other padding than they were built with and a byte behind them. -/
theorem parse_batch_exact_two : ∃ a b,
    parseBatch ([sent [3, 4], received [5, 6]].flatMap Record.bytes ++ [7]) 152 sampleConfig = some [a, b] := by
  obtain ⟨-, -, exact_⟩ := parse_batch_exact sampleConfig
  obtain ⟨a, first⟩ := sample_holds (r := sent [0, 0]) (by decide +kernel)
  obtain ⟨b, second⟩ := sample_holds (r := received [0, 0]) (by decide +kernel)
  have parsed := (exact_ _ _ _ sampleConfig_accepted).1 [sent [0, 0], received [0, 0]] [sent [3, 4], received [5, 6]]
    [a, b] [7] (.cons first (.cons second .nil)) (.cons ⟨rfl, rfl, rfl⟩ (.cons ⟨rfl, rfl, rfl⟩ .nil))
      (by decide +kernel)
  exact ⟨a, b, parsed⟩

end Sample

end Mosaico.Lan.PacketHeaders
