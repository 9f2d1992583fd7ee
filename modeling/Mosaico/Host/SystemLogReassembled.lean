import Mosaico.Host.SystemLogExported

/-! Over the concatenated pages every context goes to its reading and every candidate gets its
whole name, wherever the pages were cut. -/
namespace Mosaico.Host.SystemLogExport

open ByteFields PackedWords Nand.StoreModel Nand.LogModel SystemLog

section Contexts

variable {m m' : Moment} {units : Tag} {r : Record} {boot : Nat}

theorem joined (v : UInt64) : (low v).toNat ||| (high v).toNat <<< 32 = v.toNat := by
  have lt := v.toNat_lt
  have lowPart : (low v).toNat = v.toNat % 2 ^ 32 := by simp [low]
  have highPart : (high v).toNat = v.toNat / 2 ^ 32 := by
    simp only [high, UInt64.toNat_toUInt32, UInt64.toNat_shiftRight]
    have shift : (32 : UInt64).toNat % 64 = 32 := rfl
    rw [shift, Nat.shiftRight_eq_div_pow, Nat.mod_eq_of_lt (by omega)]
  rw [lowPart, highPart, Nat.or_comm,
    ← Nat.shiftLeft_add_eq_or_of_lt (Nat.mod_lt _ (by decide)), Nat.shiftLeft_eq]
  omega

private theorem signed_toInt (v : Int64) : signed 64 v.toUInt64.toNat = v.toInt := by
  have lt := v.toUInt64.toNat_lt
  have top : v.toUInt64.toNat.testBit 63 = decide (2 ^ 63 ≤ v.toUInt64.toNat) := by
    rw [Nat.testBit_eq_decide_div_mod_eq]
    apply decide_eq_decide.mpr
    omega
  have value : v.toInt = if 2 * v.toUInt64.toNat < 2 ^ 64 then (v.toUInt64.toNat : Int)
      else (v.toUInt64.toNat : Int) - 2 ^ 64 := by
    exact BitVec.toInt_eq_toNat_cond v.toBitVec
  rw [signed, top, value]
  by_cases negative : 2 ^ 63 ≤ v.toUInt64.toNat
  · rw [if_pos (decide_eq_true negative), if_neg (by omega)]
  · rw [if_neg (by simpa using negative), if_pos (by omega)]

/-- A context record is decoded to the units it was made of. -/
theorem unitContextOf_args (ms : UInt64) (clock : Option UInt64) :
    unitContextOf ((unitContext units ms clock).args.toList.map UInt32.toNat) = unitsOf units := by
  have args : (unitContext units ms clock).args.toList.map UInt32.toNat =
      [(low units.factor.toUInt64).toNat, (high units.factor.toUInt64).toNat,
        (low units.epoch).toNat, (high units.epoch).toNat, (low units.generation).toNat,
        (high units.generation).toNat, (if units.verified then (1 : UInt32) else 0).toNat,
        units.phase.toUInt32.toNat, 1, 0, 0] := rfl
  rw [args, unitContextOf, unitsOf]
  simp only [arg, List.getD_cons_zero, List.getD_cons_succ, joined, signed_toInt,
    UInt8.toNat_toUInt32]
  cases units.verified <;> rfl

/-- No reading has the time that stands for none. -/
private theorem sampled_ne (us : UInt64) : us / 1000 ≠ UInt64.ofNat (2 ^ 64 - 1) := by
  intro h
  have lt := us.toNat_lt
  have same := congrArg UInt64.toNat h
  rw [UInt64.toNat_div] at same
  have divisor : (1000 : UInt64).toNat = 1000 := rfl
  have largest : (UInt64.ofNat (2 ^ 64 - 1)).toNat = 2 ^ 64 - 1 := rfl
  rw [divisor, largest] at same
  omega

/-- A reading that can have a context. -/
structure IsReading (r : Record) : Prop where
  takes : takesUnits r.type.code = true
  sampled : r.monotonicMs ≠ UInt64.ofNat (2 ^ 64 - 1)

theorem gauge_isReading (m : Moment) (s : GaugeSnapshot) : IsReading (gaugeRecord m s) := by
  have sampled := sampled_ne s.sampledUs
  unfold gaugeRecord
  by_cases phase : s.phase = explicitPhase
  · simp only [if_pos phase, record, if_neg sampled]
    exact ⟨rfl, sampled⟩
  · simp only [if_neg phase, record, if_neg sampled, Record.withoutEpoch]
    exact ⟨rfl, sampled⟩

theorem engine_isReading (m : Moment) (s : EngineSnapshot) : IsReading (engineRecord m s) := by
  have sampled := sampled_ne s.sampledUs
  unfold engineRecord
  by_cases phase : s.phase = explicitPhase
  · simp only [if_pos phase, record, if_neg sampled]
    exact ⟨rfl, sampled⟩
  · simp only [if_neg phase, record, if_neg sampled, Record.withoutEpoch]
    exact ⟨rfl, sampled⟩

end Contexts

section Units

variable {boot : Nat} {row : Row} {rows rest : List Row} {previous : Option Row}

def Settled (previous : Option Row) : Prop := ∀ p, previous = some p → p.typeId ≠ 14

/-- A record that neither takes a context nor is one. -/
def Quiet (row : Row) : Prop := takesUnits row.typeId = false ∧ row.typeId ≠ 14

theorem attachUnits_of_not {row : Row} (h : takesUnits row.typeId = false) :
    attachUnits previous row = row := by
  rw [attachUnits, h]
  rfl

theorem attach_quiet (quiet : ∀ row ∈ rows, Quiet row) (settled : Settled previous) :
    ∃ last, Settled last ∧
      attachUnitContexts previous (rows ++ rest) = rows ++ attachUnitContexts last rest := by
  induction rows generalizing previous with
  | nil => exact ⟨previous, settled, rfl⟩
  | cons row rows ih =>
    have here := quiet row List.mem_cons_self
    have next : Settled (some row) := fun p h => Option.some.inj h ▸ here.2
    obtain ⟨last, settled', rest_eq⟩ := ih (fun r mem => quiet r (List.mem_cons_of_mem _ mem)) next
    refine ⟨last, settled', ?_⟩
    rw [List.cons_append, attachUnitContexts, attachUnits_of_not here.1]
    simp only [rest_eq, List.cons_append]

theorem attach_pair {context reading : Row} {c : UnitContext} (kind : context.typeId = 14)
    (own : context.unitContext = some c) (nextOnly : c.nextRecordOnly = true)
    (boot : context.pageBoot = reading.pageBoot) (time : context.monotonicMs = reading.monotonicMs)
    (takes : takesUnits reading.typeId = true) :
    attachUnitContexts previous (context :: reading :: rest) =
      context :: { reading with
        unitContext := some c, physicalUnitsVerified := some (unitsVerified c) } ::
        attachUnitContexts (some { reading with
          unitContext := some c, physicalUnitsVerified := some (unitsVerified c) }) rest := by
  have quiet : takesUnits context.typeId = false := by rw [kind]; rfl
  have handed : contextFrom (some context) reading = some c := by
    simp [contextFrom, kind, own, nextOnly, boot, time]
  rw [attachUnitContexts, attachUnits_of_not quiet]
  simp only [attachUnitContexts, attachUnits, takes, handed, if_true, Option.map_some]

end Units

section Items

variable {boot : Nat}

/-- Where a record is in the pages. -/
structure Cell where
  seq : Nat
  index : Nat
  record : Record

def cellRow (boot : Nat) (c : Cell) : Row := rowOf c.seq boot c.index (rawOf c.record)

def Row.noted (row : Row) : Raw × Option UnitContext :=
  (row.raw, if takesUnits row.typeId then row.unitContext else none)

def Exported.noted (e : Exported) : Raw × Option UnitContext := (e.raw, e.units)

theorem quiet_of_plain {kind : Kind} (h : kind.plain = true) :
    takesUnits kind.code = false ∧ kind.code ≠ 14 ∧ kind.code ≠ 16 := by
  cases kind
  all_goals first | exact absurd h (by decide) | decide

theorem noted_quiet {row : Row} (h : takesUnits row.typeId = false) :
    row.noted = (row.raw, none) := by
  rw [Row.noted, h]
  rfl

/-- The records of a candidate are none that units matter for. -/
theorem candidateGroup_types {m : Moment} {e : DerpCandidate} {group : List Record}
    (h : candidateGroup m e = some group) :
    ∀ r ∈ group, r.type = .derpCandidate ∨ r.type = .derpCandidateName := by
  unfold candidateGroup derpCandidateRecords at h
  dsimp only at h
  split at h
  · cases h
  · cases h
    intro r mem
    obtain ⟨r', mem', rfl⟩ := List.mem_map.mp mem
    obtain rfl | chunk := List.mem_cons.mp mem'
    · exact .inl rfl
    · obtain ⟨c, _, rfl⟩ := List.mem_map.mp chunk
      exact .inr rfl

def contextRecord (m : Moment) (units : Tag) (r : Record) : Record :=
  { record m .unitContext r.monotonicMs with
    args := (unitContext units (record m .unitContext r.monotonicMs).monotonicMs m.clock).args }

theorem contextRecord_time {m : Moment} {units : Tag} {r : Record} (reading : IsReading r) :
    (contextRecord m units r).monotonicMs = r.monotonicMs := if_neg reading.sampled

private theorem contextRecord_row {m : Moment} {units : Tag} {r : Record} {c : Cell}
    (h : c.record = contextRecord m units r) :
    (cellRow boot c).unitContext = some (unitsOf units) := by
  rw [cellRow, h, ← unitContextOf_args (record m .unitContext r.monotonicMs).monotonicMs m.clock]
  rfl

private theorem exportedPair_noted {m : Moment} {units : Tag} {r : Record} (reading : IsReading r) :
    (exportedPair m units r).map Exported.noted =
      [(rawOf (contextRecord m units r), none), (rawOf r, some (unitsOf units))] := by
  have other : r.type ≠ .unitContext := by
    intro same
    have takes := reading.takes
    rw [same] at takes
    cases takes
  have second : (if r.type = .unitContext then none else some (unitsOf units)) =
    some (unitsOf units) := if_neg other
  rw [exportedPair, show withUnits m units r = [contextRecord m units r, r] from rfl]
  simp only [List.map_cons, List.map_nil, Exported.noted, second]
  rfl

theorem attach_reading {previous : Option Row} {cells rest : List Cell} {m : Moment} {units : Tag}
    {r : Record} (reading : IsReading r) (here : cells.map Cell.record = withUnits m units r) :
    ∃ first second, Settled (some second) ∧
      [first.noted, second.noted] = (exportedPair m units r).map Exported.noted ∧
      attachUnitContexts previous ((cells ++ rest).map (cellRow boot)) =
        first :: second :: attachUnitContexts (some second) (rest.map (cellRow boot)) := by
  obtain ⟨c, cells', rfl, context, tail⟩ := List.map_eq_cons_iff.mp here
  obtain ⟨c', cells'', rfl, own, none'⟩ := List.map_eq_cons_iff.mp tail
  rw [List.map_eq_nil_iff] at none'
  subst none'
  have context : c.record = contextRecord m units r := context
  have kind : (cellRow boot c).typeId = 14 := by
    rw [cellRow, context]
    rfl
  have time : (cellRow boot c).monotonicMs = (cellRow boot c').monotonicMs := by
    rw [cellRow, cellRow, context, own]
    exact congrArg UInt64.toNat (contextRecord_time reading)
  have takes : takesUnits (cellRow boot c').typeId = true := by
    rw [cellRow, own]
    exact reading.takes
  have boots : (cellRow boot c).pageBoot = (cellRow boot c').pageBoot := rfl
  have attached := @attach_pair (rest.map (cellRow boot)) previous _ _ _ kind
    (contextRecord_row context) rfl boots time takes
  refine ⟨_, _, ?_, ?_, attached⟩
  · intro p same
    rw [← Option.some.inj same]
    intro context
    have kind : (cellRow boot c').typeId = 14 := context
    rw [kind] at takes
    cases takes
  · have quiet : takesUnits (cellRow boot c).typeId = false := by
      rw [kind]
      rfl
    rw [exportedPair_noted reading, noted_quiet quiet, ← context, ← own]
    simp only [Row.noted, takes, if_true]
    rfl

/-- The rows of records that units do not matter for stay as they are. -/
theorem attach_others {previous : Option Row} {cells rest : List Cell} {records : List Record}
    (here : cells.map Cell.record = records)
    (quiet : ∀ r ∈ records, takesUnits r.type.code = false ∧ r.type.code ≠ 14)
    (settled : Settled previous) :
    ∃ last, Settled last ∧ (cells.map (cellRow boot)).map Row.noted =
        records.map (fun r => (rawOf r, none)) ∧
      attachUnitContexts previous ((cells ++ rest).map (cellRow boot)) =
        cells.map (cellRow boot) ++ attachUnitContexts last (rest.map (cellRow boot)) := by
  subst here
  have rows : ∀ row ∈ cells.map (cellRow boot), Quiet row := by
    intro row mem
    obtain ⟨c, mem', rfl⟩ := List.mem_map.mp mem
    exact quiet c.record (List.mem_map_of_mem mem')
  obtain ⟨last, settled', attached⟩ := @attach_quiet _ (rest.map (cellRow boot)) previous rows settled
  refine ⟨last, settled', ?_, ?_⟩
  · rw [List.map_map, List.map_map]
    apply List.map_congr_left
    intro c mem
    exact noted_quiet (rows _ (List.mem_map_of_mem mem)).1
  · rw [List.map_append]
    exact attached

/-- After the first pass every reading has the context it was enqueued with. -/
theorem attach_items {items : List Item} {cells : List Cell} {previous : Option Row}
    (order : cells.map Cell.record = items.flatMap Item.records) (settled : Settled previous) :
    (attachUnitContexts previous (cells.map (cellRow boot))).map Row.noted =
      (items.flatMap exportedOf).map Exported.noted := by
  induction items generalizing cells previous with
  | nil =>
    rw [List.flatMap_nil, List.map_eq_nil_iff] at order
    subst order
    rfl
  | cons item items ih =>
    rw [List.flatMap_cons, List.map_eq_append_iff] at order
    obtain ⟨here, rest, rfl, own, order⟩ := order
    rw [List.flatMap_cons, List.map_append (f := Exported.noted)]
    have ofPair {m : Moment} {units : Tag} {r : Record} (reading : IsReading r)
        (own : here.map Cell.record = withUnits m units r) :
        (attachUnitContexts previous ((here ++ rest).map (cellRow boot))).map Row.noted =
          (exportedPair m units r).map Exported.noted ++
            (items.flatMap exportedOf).map Exported.noted := by
      obtain ⟨first, second, settled', noted, attached⟩ :=
        attach_reading reading own
      rw [attached, List.map_cons, List.map_cons, ih order settled', ← noted]
      rfl
    have ofOthers {records : List Record} (own : here.map Cell.record = records)
        (quiet : ∀ r ∈ records, takesUnits r.type.code = false ∧ r.type.code ≠ 14) :
        (attachUnitContexts previous ((here ++ rest).map (cellRow boot))).map Row.noted =
          records.map (fun r => (rawOf r, none)) ++
            (items.flatMap exportedOf).map Exported.noted := by
      obtain ⟨last, settled', noted, attached⟩ := attach_others own quiet settled
      rw [attached, List.map_append, noted, ih order settled']
    cases item with
    | plain r kind =>
      have codes := quiet_of_plain kind
      apply ofOthers own
      intro r' mem
      rw [List.mem_singleton.mp mem]
      exact ⟨codes.1, codes.2.1⟩
    | gauge m m' s => exact ofPair (gauge_isReading m' s) own
    | engine m m' s => exact ofPair (engine_isReading m' s) own
    | candidate m e =>
      cases found : candidateGroup m e with
      | none =>
        rw [Item.records, found] at own
        rw [exportedOf, found]
        exact ofOthers own (fun r mem => absurd mem List.not_mem_nil)
      | some group =>
        rw [Item.records, found] at own
        have quiet : ∀ r ∈ group, takesUnits r.type.code = false ∧ r.type.code ≠ 14 := by
          intro r mem
          obtain type | type := candidateGroup_types found r mem
          · rw [type]
            decide
          · rw [type]
            decide
        rw [exportedOf, found, ofOthers own quiet]
        simp only [Option.map_some, Option.getD_some, exportedGroup, List.map_map]
        rfl

end Items

section Names

variable {boot : Nat} {m : Moment} {e : DerpCandidate}

def stamp (m : Moment) (e : DerpCandidate) (r : Record) : Record :=
  { r with
    epoch := (record m .derpCandidate e.monotonicMs).epoch
    flags := r.flags ||| (record m .derpCandidate e.monotonicMs).flags }

def word (e : DerpCandidate) : Nat :=
  (e.candidateLen.toUInt32 ||| if e.candidateTruncated then 0x10000 else 0).toNat

theorem candidateGroup_eq {group : List Record} (h : candidateGroup m e = some group) :
    group = stamp m e e.head :: (List.range e.chunks).map (fun c => stamp m e (e.chunk c)) ∧
      e.candidateLen.toNat ≤ 127 ∧ e.stage.toNat ≤ 4 := by
  unfold candidateGroup derpCandidateRecords at h
  dsimp only at h
  split at h
  · cases h
  · rename_i shape
    simp only [not_or] at shape
    obtain ⟨-, len, -, stage, -⟩ := shape
    refine ⟨?_, ?_, ?_⟩
    · rw [← Option.some.inj h]
      exact congrArg (List.cons _) List.map_map
    · exact UInt16.le_iff_toNat_le.mp (UInt16.not_lt.mp len)
    · exact UInt8.le_iff_toNat_le.mp (UInt8.not_lt.mp stage)

theorem stamped_version (h : r.flags = 0x100) : versionOne (rawOf (stamp m e r)).flags = true := by
  have flags : (rawOf (stamp m e r)).flags =
      ((0x100 : UInt16) ||| if m.clock.isSome then 1 else 0).toNat := by
    rw [← h]
    rfl
  rw [flags]
  cases m.clock.isSome <;> rfl

theorem word_length (h : e.candidateLen.toNat ≤ 127) :
    word e &&& 65535 = e.candidateLen.toNat ∧ (word e).testBit 16 = e.candidateTruncated := by
  have plain : word e = e.candidateLen.toNat ||| if e.candidateTruncated then 2 ^ 16 else 0 := by
    rw [word, UInt32.toNat_or]
    cases e.candidateTruncated <;> rfl
  have small : e.candidateLen.toNat < 2 ^ 16 := by omega
  rw [plain]
  constructor
  · have low : (if e.candidateTruncated then 2 ^ 16 else 0) % 2 ^ 16 = 0 := by
      cases e.candidateTruncated <;> rfl
    rw [show 65535 = 2 ^ 16 - 1 from rfl, Nat.and_two_pow_sub_one_eq_mod, Nat.or_mod_two_pow, low,
      Nat.or_zero, Nat.mod_eq_of_lt small]
  · rw [Nat.testBit_or, Nat.testBit_lt_two_pow small, Bool.false_or]
    cases e.candidateTruncated
    · exact Nat.zero_testBit 16
    · exact Nat.testBit_two_pow_self

theorem head_args :
    (rawOf (stamp m e e.head)).args = [e.seq.toNat, e.attemptId.toNat,
      (halves e.region e.port).toNat, (e.nodeIndex.toUInt32 ||| e.family.toUInt32 <<< 16 |||
        e.source.toUInt32 <<< 20 ||| e.stage.toUInt32 <<< 24 ||| e.flags <<< 28).toNat,
      e.result.toUInt32.toNat, e.error.toUInt32.toNat, e.elapsedMs.toNat] ++
      (packAll (byteAt e.address) 0 4).map UInt32.toNat := by
  have list : (stamp m e e.head).args.toList = [e.seq, e.attemptId, halves e.region e.port,
      e.nodeIndex.toUInt32 ||| e.family.toUInt32 <<< 16 ||| e.source.toUInt32 <<< 20 |||
        e.stage.toUInt32 <<< 24 ||| e.flags <<< 28, e.result.toUInt32, e.error.toUInt32,
      e.elapsedMs] ++ packAll (byteAt e.address) 0 4 := rfl
  rw [rawOf, list, List.map_append]
  rfl

theorem head_truncated (stage : e.stage.toNat ≤ 4) :
    (derpOf (rawOf (stamp m e e.head)).args).candidateTruncated = e.candidateTruncated := by
  have node : e.nodeIndex.toNat.testBit 29 = false :=
    Nat.testBit_lt_two_pow (Nat.lt_trans e.nodeIndex.toNat_lt (by decide))
  have family : e.family.toNat.testBit 13 = false :=
    Nat.testBit_lt_two_pow (Nat.lt_trans e.family.toNat_lt (by decide))
  have source : e.source.toNat.testBit 9 = false :=
    Nat.testBit_lt_two_pow (Nat.lt_trans e.source.toNat_lt (by decide))
  have stage : e.stage.toNat.testBit 5 = false := Nat.testBit_lt_two_pow (by omega)
  have flags : e.flags.toNat.testBit 1 = e.candidateTruncated := by
    rw [DerpCandidate.flags]
    cases e.errnoValid <;> cases e.candidateTruncated <;> rfl
  have shifted (v : UInt32) (k : UInt32) (n : Nat) (hk : k.toNat % 32 = n) (hn : n ≤ 29) :
      (v <<< k).toNat.testBit 29 = v.toNat.testBit (29 - n) := by
    rw [UInt32.toNat_shiftLeft, hk, Nat.testBit_mod_two_pow, Nat.testBit_shiftLeft]
    simp [hn]
  rw [head_args, derpOf]
  simp only [arg, List.cons_append, List.getD_cons_succ, List.getD_cons_zero, UInt32.toNat_or,
    Nat.testBit_or, shifted _ 16 16 rfl (by decide), shifted _ 20 20 rfl (by decide),
    shifted _ 24 24 rfl (by decide), shifted _ 28 28 rfl (by decide), UInt8.toNat_toUInt32,
    UInt16.toNat_toUInt32, node, family, source, stage, flags, Bool.false_or]

theorem chunk_args (c : Nat) (h : c < 2 ^ 32) :
    (rawOf (stamp m e (e.chunk c))).args = e.seq.toNat :: c :: word e ::
      (packAll e.nameByte (c * 32) 8).map UInt32.toNat := by
  have index : (UInt32.ofNat c).toNat = c := UInt32.toNat_ofNat_of_lt' h
  have list : (stamp m e (e.chunk c)).args.toList = e.seq :: UInt32.ofNat c ::
      (e.candidateLen.toUInt32 ||| if e.candidateTruncated then 0x10000 else 0) ::
        packAll e.nameByte (c * 32) 8 := rfl
  rw [rawOf, list, List.map_cons, List.map_cons, List.map_cons, index, word]

/-- Rows of one boot, decoded and not attached to yet. -/
def Fresh (boot : Nat) (row : Row) : Prop :=
  row.pageBoot = boot ∧ row.derpCandidate =
    if row.typeId = 16 ∧ versionOne row.flags then some (derpOf row.args) else none

/-- The chunks are taken in order, each with its 32 bytes. -/
theorem nameParts_eq {row : Row} {rows : List Row} (rest : List Row) {j n : Nat} (small : j + n ≤ 2 ^ 32)
    (time : row.monotonicMs = e.monotonicMs.toNat)
    (chunks : rows.map Row.raw = (List.range' j n).map fun c => rawOf (stamp m e (e.chunk c)))
    (boots : ∀ next ∈ rows, next.pageBoot = row.pageBoot) :
    nameParts row e.seq.toNat (word e) n j (rows ++ rest) =
      (List.range' j n).map fun c => (List.range' (c * 32) 32).map e.nameByte := by
  induction n generalizing j rows with
  | zero => rfl
  | succ n ih =>
    rw [List.range'_succ, List.map_cons] at chunks
    obtain ⟨next, rows', rfl, raw, tail⟩ := List.map_eq_cons_iff.mp chunks
    have type : next.typeId = 17 := congrArg Raw.typeId raw
    have version : versionOne next.flags = true := by
      have flags : next.flags = (rawOf (stamp m e (e.chunk j))).flags := congrArg Raw.flags raw
      rw [flags]
      exact stamped_version rfl
    have sameTime : next.monotonicMs = row.monotonicMs := by
      have at_ : next.monotonicMs = e.monotonicMs.toNat := congrArg Raw.monotonicMs raw
      rw [at_, time]
    have sameBoot := boots next List.mem_cons_self
    have args : next.args = e.seq.toNat :: j :: word e ::
        (packAll e.nameByte (j * 32) 8).map UInt32.toNat :=
      (congrArg Raw.args raw).trans (chunk_args j (by omega))
    have part : unpackAll ((next.args.drop 3).take 8) = (List.range' (j * 32) 32).map e.nameByte := by
      rw [args, show List.drop 3 _ = (packAll e.nameByte (j * 32) 8).map UInt32.toNat from rfl,
        List.take_of_length_le (by simp [packAll]), unpackAll_packAll]
    have others := ih (by omega) tail fun r mem => boots r (List.mem_cons_of_mem _ mem)
    have split : List.range' j (n + 1) = j :: List.range' (j + 1) n := List.range'_succ
    rw [List.cons_append, nameParts, if_neg, part, others, split, List.map_cons]
    simp [type, version, sameTime, sameBoot, args, arg]

private theorem flatten_chunks (f : Nat → UInt8) (j n : Nat) :
    ((List.range' j n).map fun c => (List.range' (c * 32) 32).map f).flatten =
      (List.range' (j * 32) (32 * n)).map f := by
  induction n generalizing j with
  | zero => rfl
  | succ n ih =>
    have parts := @List.range'_append (j * 32) 32 (32 * n) 1
    rw [List.range'_succ, List.map_cons, List.flatten_cons, ih, ← List.map_append,
      show (j + 1) * 32 = j * 32 + 1 * 32 by omega, parts,
      show 32 + 32 * n = 32 * (n + 1) by omega]

theorem chunks_eq : max 1 ((e.candidateLen.toNat + 31) / 32) = e.chunks := by
  rw [DerpCandidate.chunks]
  by_cases none' : e.candidateLen = 0
  · rw [if_neg (not_not_intro none'), none']
    rfl
  · have some' : e.candidateLen.toNat ≠ 0 := fun same => none' (UInt16.toNat.inj same)
    rw [if_pos none']
    omega

theorem candidate_bytes (e : DerpCandidate) (enough : e.candidateLen.toNat ≤ 32 * e.chunks) :
    ((List.range' 0 (32 * e.chunks)).map e.nameByte).take e.candidateLen.toNat = nameBytes e ∧
      (((List.range' 0 (32 * e.chunks)).map e.nameByte).drop e.candidateLen.toNat).any
        (fun b => b != 0) = false := by
  rw [← List.map_take, ← List.map_drop, List.take_range'_of_length_ge enough, List.drop_range']
  constructor
  · rw [nameBytes, List.range_eq_range']
    apply List.map_congr_left
    intro i mem
    have inside := (List.mem_range'_1.mp mem).2
    exact if_pos (by omega)
  · rw [List.any_eq_false]
    intro b mem
    obtain ⟨i, mem', rfl⟩ := List.mem_map.mp mem
    have behind := (List.mem_range'_1.mp mem').1
    rw [DerpCandidate.nameByte, if_neg (by omega)]
    decide

/-- The rows behind its head give a candidate its name. -/
theorem nameOf_eq {row : Row} {names : List Row} (rest : List Row) (len : e.candidateLen.toNat ≤ 127)
    (stage : e.stage.toNat ≤ 4) (raw : row.raw = rawOf (stamp m e e.head))
    (chunks : names.map Row.raw =
      (List.range e.chunks).map fun c => rawOf (stamp m e (e.chunk c)))
    (boots : ∀ next ∈ names, next.pageBoot = row.pageBoot) :
    nameOf row (derpOf row.args) (names ++ rest) = some (nameBytes e) := by
  have enough : e.candidateLen.toNat ≤ 32 * e.chunks := by
    rw [← chunks_eq]
    omega
  have pos : 0 < e.chunks := by
    rw [← chunks_eq]
    omega
  have few : e.chunks ≤ 4 := by
    rw [← chunks_eq]
    omega
  have args : row.args = (rawOf (stamp m e e.head)).args := congrArg Raw.args raw
  have seq : (derpOf row.args).seq = e.seq.toNat := by
    rw [args, head_args]
    rfl
  have truncated : (derpOf row.args).candidateTruncated = e.candidateTruncated := by
    rw [args]
    exact head_truncated stage
  have time : row.monotonicMs = e.monotonicMs.toNat := congrArg Raw.monotonicMs raw
  rw [List.range_eq_range'] at chunks
  have parts := nameParts_eq rest (by omega) time chunks boots
  obtain ⟨lengths, flag⟩ := word_length len
  obtain ⟨bytes, padding⟩ := candidate_bytes e enough
  obtain ⟨n, hn⟩ : ∃ n, e.chunks = n + 1 := ⟨e.chunks - 1, by omega⟩
  rw [hn, List.range'_succ, List.map_cons] at chunks
  obtain ⟨first, names', rfl, firstRaw, -⟩ := List.map_eq_cons_iff.mp chunks
  have type : first.typeId = 17 := congrArg Raw.typeId firstRaw
  have firstArgs : first.args = e.seq.toNat :: 0 :: word e ::
      (packAll e.nameByte 0 8).map UInt32.toNat :=
    (congrArg Raw.args firstRaw).trans (chunk_args 0 (by omega))
  have arg0 : arg first.args 0 = e.seq.toNat := by rw [firstArgs]; rfl
  have arg1 : arg first.args 1 = 0 := by rw [firstArgs]; rfl
  have arg2 : arg first.args 2 = word e := by rw [firstArgs]; rfl
  have short : ¬ e.candidateLen.toNat > 127 := by omega
  simp only [nameOf, List.cons_append, List.head?_cons, Option.bind_eq_bind, Option.bind_some, type,
    arg0, arg1, arg2, seq, truncated, lengths, flag, short, chunks_eq]
  rw [List.cons_append] at parts
  rw [parts, flatten_chunks, Nat.zero_mul, bytes, padding]
  simp

end Names

section Export

variable {boot : Nat}

theorem attachDerp_exported (row : Row) (rest : List Row) :
    (attachDerp row rest).exported = {
      raw := row.raw
      units := row.noted.2
      name := row.derpCandidate.map fun d =>
        ⟨nameOf row d rest, d.candidateTruncated, (nameOf row d rest).isSome⟩ } := by
  rw [attachDerp, Row.exported, Option.map_map]
  rfl

def unnamed (noted : Raw × Option UnitContext) : Exported := { raw := noted.1, units := noted.2 }

/-- Rows that are no candidates stay as they are. -/
theorem attach_unnamed {rows : List Row} (rest : List Row) (fresh : ∀ row ∈ rows, Fresh boot row)
    (other : ∀ row ∈ rows, row.typeId ≠ 16) :
    (attachDerpCandidates (rows ++ rest)).map Row.exported =
      (rows.map Row.noted).map unnamed ++ (attachDerpCandidates rest).map Row.exported := by
  induction rows with
  | nil => rfl
  | cons row rows ih =>
    have none' : row.derpCandidate = none := by
      rw [(fresh row List.mem_cons_self).2, if_neg]
      exact fun both => other row List.mem_cons_self both.1
    have others := ih (fun r mem => fresh r (List.mem_cons_of_mem _ mem))
      fun r mem => other r (List.mem_cons_of_mem _ mem)
    rw [List.cons_append, attachDerpCandidates, List.map_cons, attachDerp_exported, none', others]
    rfl

theorem other_of_noted {rows : List Row} {exps : List Exported}
    (noted : rows.map Row.noted = exps.map Exported.noted)
    (other : ∀ e ∈ exps, e.raw.typeId ≠ 16) : ∀ row ∈ rows, row.typeId ≠ 16 := by
  intro row mem
  have listed : row.noted ∈ exps.map Exported.noted := noted ▸ List.mem_map_of_mem mem
  obtain ⟨e, mem', same⟩ := List.mem_map.mp listed
  have raw : e.raw = row.raw := congrArg Prod.fst same
  have type := other e mem'
  rw [raw] at type
  exact type

private theorem exportedPair_plain (m : Moment) (units : Tag) {r : Record} (reading : IsReading r) :
    ∀ e ∈ exportedPair m units r, e.name = none ∧ e.raw.typeId ≠ 16 := by
  intro e mem
  obtain ⟨r', mem', rfl⟩ := List.mem_map.mp mem
  refine ⟨rfl, ?_⟩
  obtain rfl | rest := List.mem_cons.mp mem'
  · exact show (14 : Nat) ≠ 16 by decide
  · rw [List.mem_singleton.mp rest]
    intro type
    have code : r.type.code = 16 := type
    have takes := reading.takes
    rw [code] at takes
    cases takes

/-- Of everything but a candidate there is no name to say. -/
theorem exportedOf_plain (item : Item) (h : ∀ m e, item ≠ .candidate m e) :
    ∀ e ∈ exportedOf item, e.name = none ∧ e.raw.typeId ≠ 16 := by
  cases item with
  | plain r kind =>
    intro e mem
    rw [List.mem_singleton.mp mem]
    exact ⟨rfl, (quiet_of_plain kind).2.2⟩
  | gauge m m' s => exact exportedPair_plain m s.units (gauge_isReading m' s)
  | engine m m' s => exact exportedPair_plain m s.units (engine_isReading m' s)
  | candidate m e => exact absurd rfl (h m e)

theorem unnamed_noted {exps : List Exported} (h : ∀ e ∈ exps, e.name = none) :
    (exps.map Exported.noted).map unnamed = exps := by
  rw [List.map_map]
  conv_rhs => rw [← List.map_id exps]
  apply List.map_congr_left
  intro e mem
  have none' := h e mem
  rw [Function.comp_apply, unnamed, Exported.noted, id_eq, ← none']

/-- The rows of a candidate's group: its head gets the name. -/
theorem attach_group {m : Moment} {e : DerpCandidate} {group : List Record} {rows rest : List Row}
    (found : candidateGroup m e = some group)
    (noted : rows.map Row.noted = (exportedGroup e group).map Exported.noted)
    (fresh : ∀ row ∈ rows, Fresh boot row) :
    (attachDerpCandidates (rows ++ rest)).map Row.exported =
      exportedGroup e group ++ (attachDerpCandidates rest).map Row.exported := by
  obtain ⟨rfl, len, stage⟩ := candidateGroup_eq found
  rw [exportedGroup, List.map_cons, List.map_cons] at noted
  obtain ⟨row, names, rfl, headNoted, namesNoted⟩ := List.map_eq_cons_iff.mp noted
  have raw : row.raw = rawOf (stamp m e e.head) := congrArg Prod.fst headNoted
  have freshNames : ∀ next ∈ names, Fresh boot next :=
    fun next mem => fresh next (List.mem_cons_of_mem _ mem)
  have boots : ∀ next ∈ names, next.pageBoot = row.pageBoot := by
    intro next mem
    rw [(freshNames next mem).1, (fresh row List.mem_cons_self).1]
  have chunks : names.map Row.raw =
      (List.range e.chunks).map fun c => rawOf (stamp m e (e.chunk c)) := by
    have firsts := congrArg (List.map Prod.fst) namesNoted
    rw [List.map_map, List.map_map, List.map_map, List.map_map] at firsts
    exact firsts
  have name := nameOf_eq rest len stage raw chunks boots
  have candidate : row.derpCandidate = some (derpOf row.args) := by
    have type : row.typeId = 16 := congrArg Raw.typeId raw
    have flags : row.flags = (rawOf (stamp m e e.head)).flags := congrArg Raw.flags raw
    rw [(fresh row List.mem_cons_self).2, if_pos ⟨type, by rw [flags]; exact stamped_version rfl⟩]
  have truncated : (derpOf row.args).candidateTruncated = e.candidateTruncated := by
    rw [show row.args = (rawOf (stamp m e e.head)).args from congrArg Raw.args raw]
    exact head_truncated stage
  have plain : ∀ x ∈ exportedGroup e ((List.range e.chunks).map fun c => stamp m e (e.chunk c)),
      x.name = none ∧ x.raw.typeId ≠ 16 := by
    intro x mem
    obtain ⟨r, mem', rfl⟩ := List.mem_map.mp mem
    obtain ⟨c, _, rfl⟩ := List.mem_map.mp mem'
    exact ⟨rfl, show (17 : Nat) ≠ 16 by decide⟩
  have others := attach_unnamed rest freshNames
    (other_of_noted namesNoted fun x mem => (plain x mem).2)
  rw [List.cons_append, attachDerpCandidates, List.map_cons, attachDerp_exported, candidate, others,
    namesNoted, ← exportedGroup, unnamed_noted fun x mem => (plain x mem).1, raw, headNoted]
  simp only [Option.map_some, name, truncated, exportedGroup, List.map_cons, List.cons_append]
  rfl

/-- After the second pass every candidate has its name. -/
theorem attach_names {items : List Item} {rows : List Row}
    (noted : rows.map Row.noted = (items.flatMap exportedOf).map Exported.noted)
    (fresh : ∀ row ∈ rows, Fresh boot row) :
    (attachDerpCandidates rows).map Row.exported = items.flatMap exportedOf := by
  induction items generalizing rows with
  | nil =>
    rw [List.flatMap_nil, List.map_nil, List.map_eq_nil_iff] at noted
    subst noted
    rfl
  | cons item items ih =>
    rw [List.flatMap_cons, List.map_append, List.map_eq_append_iff] at noted
    obtain ⟨here, rest, rfl, own, noted⟩ := noted
    have freshHere : ∀ row ∈ here, Fresh boot row :=
      fun row mem => fresh row (List.mem_append_left _ mem)
    have others := ih noted fun row mem => fresh row (List.mem_append_right _ mem)
    have ofPlain (plain : ∀ e ∈ exportedOf item, e.name = none ∧ e.raw.typeId ≠ 16) :
        (attachDerpCandidates (here ++ rest)).map Row.exported =
          exportedOf item ++ items.flatMap exportedOf := by
      rw [attach_unnamed rest freshHere (other_of_noted own fun e mem => (plain e mem).2), others, own,
        unnamed_noted fun e mem => (plain e mem).1]
    rw [List.flatMap_cons]
    cases item with
    | candidate m e =>
      cases found : candidateGroup m e with
      | none =>
        rw [exportedOf, found] at own ofPlain ⊢
        exact ofPlain fun e mem => absurd mem List.not_mem_nil
      | some group =>
        rw [exportedOf, found, Option.map_some, Option.getD_some] at own ⊢
        rw [attach_group found own freshHere, others]
    | plain r kind => exact ofPlain (exportedOf_plain _ nofun)
    | gauge m m' s => exact ofPlain (exportedOf_plain _ nofun)
    | engine m m' s => exact ofPlain (exportedOf_plain _ nofun)

private theorem fresh_attachUnits {previous : Option Row} {row : Row} (h : Fresh boot row) :
    Fresh boot (attachUnits previous row) := by
  unfold attachUnits
  split
  · exact h
  · exact h

theorem fresh_attachUnitContexts {rows : List Row} (previous : Option Row)
    (fresh : ∀ row ∈ rows, Fresh boot row) :
    ∀ row ∈ attachUnitContexts previous rows, Fresh boot row := by
  induction rows generalizing previous with
  | nil => exact fresh
  | cons row rows ih =>
    intro r mem
    obtain rfl | later := List.mem_cons.mp mem
    · exact fresh_attachUnits (fresh row List.mem_cons_self)
    · exact ih _ (fun r mem => fresh r (List.mem_cons_of_mem _ mem)) r later

/-- The pages that batches of records were written to, each under its sequence. -/
def Written (bootId : UInt32) (batches : List (List Encoded)) (pages : List (Nat × Page)) : Prop :=
  List.Forall₂ (fun batch page =>
    batch.length ≤ recordsPerPage ∧ page.1 ≤ maxSeq ∧
      finalize (compose bootId batch) page.1 = some page.2) batches pages

private theorem boot_compose (bootId : UInt32) (batch : List Encoded) :
    get (compose bootId batch) 16 4 = bootId.toNat := by
  have small : bootId.toNat < 256 ^ 4 := bootId.toNat_lt
  rw [compose, get_put_other _ _ _ _ _ _ (by decide), get_put _ _ _ _ (by decide) small]

theorem records_by_index (records : List Record) :
    (List.range records.length).map (fun i => records.getD i {}) = records := by
  apply List.ext_getElem
  · simp
  · intro i h₁ h₂
    simp [List.getD_eq_getElem?_getD, List.getElem?_eq_getElem h₂]

theorem decodePages_written {bootId : UInt32} {batches : List (List Encoded)}
    {pages : List (Nat × Page)} {records : List Record} (written : Written bootId batches pages)
    (cut : batches.flatten = records.map encode) :
    ∃ cells : List Cell, cells.map Cell.record = records ∧
      decodePages pages = .ok (cells.map (cellRow bootId.toNat)) := by
  induction written generalizing records with
  | nil =>
    rw [List.flatten_nil, eq_comm, List.map_eq_nil_iff] at cut
    subst cut
    exact ⟨[], rfl, rfl⟩
  | @cons batch page batches pages first rest ih =>
    obtain ⟨room, seq_le, final⟩ := first
    rw [List.flatten_cons, eq_comm, List.map_eq_append_iff] at cut
    obtain ⟨here, later, rfl, own, cut⟩ := cut
    obtain ⟨cells, order, decoded⟩ := ih cut.symm
    have holds : recordsOf (compose bootId batch) = here.map encode := by
      rw [recordsOf_compose bootId batch room, own]
    have page' := decodePage_finalized final seq_le holds
    rw [boot_compose] at page'
    refine ⟨(List.range here.length).map (fun i => ⟨page.1, i, here.getD i {}⟩) ++ cells, ?_, ?_⟩
    · rw [List.map_append, order, List.map_map]
      exact congrArg (· ++ later) (records_by_index here)
    · obtain ⟨seq, data⟩ := page
      rw [decodePages, page', decoded, List.map_append, List.map_map]
      rfl

/-- A page is decoded to its records, and over pages cut anywhere every reading has the context
that it was enqueued with, every candidate its name, and nothing else has either. -/
theorem export_agrees :
    (∀ (p p' : Page) (seq : Nat) (records : List Record), seq ≤ maxSeq →
      finalize p seq = some p' → recordsOf p = records.map encode →
      ∃ rows, decodePage p' seq = .ok rows ∧ rows.map Row.raw = records.map rawOf ∧
        ∀ row ∈ rows, row.pageSeq = seq ∧ row.pageBoot = get p 16 4) ∧
    (∀ (bootId : UInt32) (items : List Item) (batches : List (List Encoded))
      (pages : List (Nat × Page)),
      batches.flatten = (items.flatMap Item.records).map encode → Written bootId batches pages →
      ∃ rows, exportRows pages = .ok rows ∧
        rows.map Row.exported = items.flatMap exportedOf) := by
  constructor
  · intro p p' seq records seq_le final holds
    refine ⟨_, decodePage_finalized final seq_le holds, ?_, ?_⟩
    · conv_rhs => rw [← records_by_index records]
      rw [List.map_map, List.map_map]
      exact List.map_congr_left fun i _ => rfl
    · intro row mem
      obtain ⟨i, _, rfl⟩ := List.mem_map.mp mem
      exact ⟨rfl, rfl⟩
  · intro bootId items batches pages cut written
    obtain ⟨cells, order, decoded⟩ := decodePages_written written cut
    have fresh : ∀ row ∈ cells.map (cellRow bootId.toNat), Fresh bootId.toNat row := by
      intro row mem
      obtain ⟨c, _, rfl⟩ := List.mem_map.mp mem
      exact ⟨rfl, rfl⟩
    have settled : Settled none := fun p h => nomatch h
    refine ⟨_, ?_, attach_names (attach_items order settled) (fresh_attachUnitContexts none fresh)⟩
    rw [exportRows, decoded]
    rfl

theorem finalize_compose (bootId : UInt32) {batch : List Encoded} (some_ : batch ≠ [])
    (room : batch.length ≤ recordsPerPage) {seq : Nat} (pos : seq ≠ 0) :
    ∃ page, finalize (compose bootId batch) seq = some page := by
  have count := count_compose bootId room
  have any := List.length_pos_iff.mpr some_
  unfold finalize
  rw [count]
  dsimp only
  rw [if_neg (by omega)]
  exact ⟨_, rfl⟩

def cutReading : GaugeSnapshot where
  sampledUs := 5000000
  validMask := 0x1f
  rawSoc := 40
  remainingMah := 26
  fullMah := 65
  designMah := 65
  voltageMv := 3800
  currentMa := -12
  averageCurrentMa := -11
  rawCoulombMah := 1200
  cycleCount := 3
  operationStatus := 0x86
  batteryStatus := 8
  gaugingStatus := 0
  rawEcho16 := 0
  phase := 1
  outcome := 0
  mode := 2
  units := { factor := 2500, epoch := 7, generation := 3, verified := true, phase := 2 }

def cutItem : Item :=
  .gauge { nowMs := 4990, clock := some 1700000000 } { nowMs := 5010, clock := some 1700000000 } cutReading

/-- The context is the last record of one page, and its reading the first of the next. -/
theorem export_agrees_cut : ∃ first second rows context,
    finalize (compose 9 ((cutItem.records.take 1).map encode)) 1 = some first ∧
      finalize (compose 9 ((cutItem.records.drop 1).map encode)) 2 = some second ∧
      (decodePage first 1 = .ok context ∧ context.map Row.raw = (cutItem.records.take 1).map rawOf) ∧
      exportRows [(1, first), (2, second)] = .ok rows ∧ rows.map Row.exported = exportedOf cutItem := by
  have contexts : ((cutItem.records.take 1).map encode).length ≤ recordsPerPage := by decide
  have readings : ((cutItem.records.drop 1).map encode).length ≤ recordsPerPage := by decide
  obtain ⟨first, one⟩ := finalize_compose 9 (List.cons_ne_nil _ _) contexts Nat.one_ne_zero
  obtain ⟨second, two⟩ := finalize_compose 9 (List.cons_ne_nil _ _) readings (Nat.succ_ne_zero 1)
  obtain ⟨context, decoded, raws, -⟩ := export_agrees.1 _ first 1 (cutItem.records.take 1) (by decide) one
    (recordsOf_compose 9 _ contexts)
  have inside : ∀ seq : Nat, seq ≤ 2 → seq ≤ maxSeq := fun seq few => Nat.le_trans few (by decide)
  have cut : [(cutItem.records.take 1).map encode, (cutItem.records.drop 1).map encode].flatten =
      ([cutItem].flatMap Item.records).map encode := rfl
  obtain ⟨rows, exported, same⟩ := export_agrees.2 9 [cutItem] _ [(1, first), (2, second)] cut
    (.cons ⟨contexts, inside 1 (by decide), one⟩ (.cons ⟨readings, inside 2 (by decide), two⟩ .nil))
  rw [List.flatMap_singleton] at same
  exact ⟨first, second, rows, context, one, two, ⟨decoded, raws⟩, exported, same⟩

end Export

end Mosaico.Host.SystemLogExport
