import Mosaico.Ble.HidTransmit

/-! The reports of one message: what the loop of `sendJson` hands over until it is done. -/
namespace Mosaico.Ble.HidTransmit

open HidOutput (reportSize payloadSize)

section Reports

variable (json : List UInt8)

def chunkAt (offset : Nat) : Nat := min payloadSize (framedLength json - offset)

def reportsFrom (offset : Nat) : List (List UInt8) :=
  if offset < framedLength json then reportAt json offset :: reportsFrom (offset + chunkAt json offset)
  else []
termination_by framedLength json - offset
decreasing_by
  simp only [chunkAt, payloadSize]
  omega

def payloadOf (report : List UInt8) : List UInt8 := (report.drop 2).take (report.getD 1 0).toNat

structure Framed (report : List UInt8) : Prop where
  size : report.length = reportSize
  kind : report.getD 0 0 = 2
  short : (report.getD 1 0).toNat ≤ payloadSize
  padded : ∀ b ∈ report.drop (2 + (report.getD 1 0).toNat), b = 0

def chunkBytes (offset : Nat) : List UInt8 :=
  let jsonChunk := min (chunkAt json offset) (json.length - min offset json.length)
  (json.drop offset).take jsonChunk ++ if jsonChunk < chunkAt json offset then [10] else []

theorem reportAt_eq (offset : Nat) :
    reportAt json offset = (2 :: UInt8.ofNat (chunkAt json offset) :: chunkBytes json offset) ++
      List.replicate (reportSize - 2 - (chunkBytes json offset).length) 0 := rfl

variable {json} {offset : Nat}

/-- The chunk is the next part of the framed text. -/
theorem chunkBytes_eq (h : offset ≤ json.length) :
    chunkBytes json offset = ((json ++ [10]).drop offset).take (chunkAt json offset) := by
  have split : (json ++ [10]).drop offset = json.drop offset ++ [10] := by
    rw [List.drop_append_of_le_length h]
  have length : (json.drop offset).length = json.length - offset := List.length_drop
  rw [chunkBytes, split, Nat.min_eq_left h, List.take_append, length]
  by_cases last : json.length - offset < chunkAt json offset
  · have more : 1 ≤ chunkAt json offset - (json.length - offset) := by omega
    rw [Nat.min_eq_right (by omega), if_pos last, List.take_of_length_le (by omega),
      List.take_of_length_le (by omega), List.take_of_length_le (by simpa using more)]
  · rw [Nat.min_eq_left (by omega), if_neg (by omega),
      show chunkAt json offset - (json.length - offset) = 0 by omega, List.take_zero]

theorem length_chunkBytes (h : offset ≤ json.length) :
    (chunkBytes json offset).length = chunkAt json offset := by
  rw [chunkBytes_eq h, List.length_take, List.length_drop, List.length_append, List.length_singleton]
  simp only [chunkAt, framedLength]
  omega

theorem length_byte (offset : Nat) :
    ((reportAt json offset).getD 1 0).toNat = chunkAt json offset := by
  have small : chunkAt json offset ≤ 61 := Nat.min_le_left _ _
  have second : (reportAt json offset).getD 1 0 = UInt8.ofNat (chunkAt json offset) := rfl
  rw [second, UInt8.toNat_ofNat', Nat.mod_eq_of_lt (by omega)]

theorem payloadOf_reportAt (h : offset ≤ json.length) :
    payloadOf (reportAt json offset) = chunkBytes json offset := by
  rw [payloadOf, length_byte, reportAt_eq, List.cons_append, List.cons_append, List.drop_succ_cons,
    List.drop_succ_cons, List.drop_zero, List.take_append_of_le_length, List.take_of_length_le]
  · rw [length_chunkBytes h]
  · rw [length_chunkBytes h]

theorem framed_reportAt (h : offset ≤ json.length) : Framed (reportAt json offset) := by
  have small : chunkAt json offset ≤ payloadSize := Nat.min_le_left _ _
  have length := length_chunkBytes h
  constructor
  case size =>
    rw [reportAt_eq, List.length_append, List.length_cons, List.length_cons, List.length_replicate,
      length]
    simp only [payloadSize, reportSize] at *
    omega
  case kind => rfl
  case short => rw [length_byte]; exact small
  case padded =>
    intro b hb
    rw [length_byte, reportAt_eq, List.drop_append, List.drop_of_length_le] at hb
    · exact List.eq_of_mem_replicate (List.mem_of_mem_drop hb)
    · rw [List.length_cons, List.length_cons, length]
      omega

theorem reportsFrom_end (h : framedLength json ≤ offset) : reportsFrom json offset = [] := by
  rw [reportsFrom, if_neg (by omega)]

/-- As many reports as the rest of the framed text needs. -/
theorem length_reportsFrom :
    (reportsFrom json offset).length = (framedLength json - offset + (payloadSize - 1)) / payloadSize := by
  fun_induction reportsFrom json offset with
  | case1 offset more ih =>
    rw [List.length_cons, ih]
    simp only [chunkAt, payloadSize]
    omega
  | case2 offset done =>
    rw [Nat.sub_eq_zero_of_le (Nat.le_of_not_lt done)]
    rfl

theorem framed_reportsFrom : ∀ report ∈ reportsFrom json offset, Framed report := by
  fun_induction reportsFrom json offset with
  | case1 offset more ih =>
    intro report mem
    rcases List.mem_cons.mp mem with rfl | later
    · exact framed_reportAt (Nat.le_of_lt_succ more)
    · exact ih report later
  | case2 offset done => nofun

/-- The payloads together are the rest of the text and its newline. -/
theorem payload_reportsFrom :
    (reportsFrom json offset).flatMap payloadOf = (json ++ [10]).drop offset := by
  fun_induction reportsFrom json offset with
  | case1 offset more ih =>
    rw [List.flatMap_cons, ih, payloadOf_reportAt (Nat.le_of_lt_succ more),
      chunkBytes_eq (Nat.le_of_lt_succ more), ← List.drop_drop, List.take_append_drop]
  | case2 offset done =>
    rw [List.flatMap_nil, List.drop_of_length_le]
    rw [List.length_append]
    exact Nat.le_of_not_lt done

end Reports

def isTurn (task : Nat) : Event → Bool
  | .advance t _ => t == task
  | _ => false

def turns (task : Nat) (events : List Event) : Nat := events.countP (isTurn task)

def Succeeds (task : Nat) : Event → Prop
  | .advance t ok => t = task → ok = true
  | _ => True

def handedBy (task : Nat) (log : List Handed) : List (List UInt8) :=
  ((log.filter (·.task == task)).map Handed.report).reverse

section Run

variable {r : Radio} {task : Nat}

theorem handedBy_other {h : Handed} (log : List Handed) (other : h.task ≠ task) :
    handedBy task (h :: log) = handedBy task log := by
  rw [handedBy, List.filter_cons_of_neg (by simpa using other), handedBy]

theorem handedBy_own {h : Handed} (log : List Handed) (own : h.task = task) :
    handedBy task (h :: log) = handedBy task log ++ [h.report] := by
  rw [handedBy, List.filter_cons_of_pos (by simpa using own), List.map_cons, List.reverse_cons,
    handedBy]

theorem setCall_other {t : Nat} (c : Call) (other : task ≠ t) : (r.setCall t c).calls task = r.calls task := by
  exact Function.update_of_ne other c r.calls

theorem setCall_own (c : Call) : (r.setCall task c).calls task = c := by
  exact Function.update_self task c r.calls

/-- What the others do leaves the call, and what it has handed over. -/
theorem advance_other {t : Nat} (ok : Bool) (other : task ≠ t) :
    (advance r t ok).calls task = r.calls task ∧
      handedBy task (advance r t ok).log = handedBy task r.log := by
  unfold advance
  cases r.calls t with
  | idle => exact ⟨rfl, rfl⟩
  | entered m =>
    dsimp only
    split
    · exact ⟨setCall_other _ other, rfl⟩
    · exact ⟨rfl, rfl⟩
  | locked m => exact ⟨setCall_other _ other, rfl⟩
  | judged m allows =>
    dsimp only
    split
    · exact ⟨setCall_other _ other, rfl⟩
    · cases m.expectedGeneration with
      | none => exact ⟨setCall_other _ other, rfl⟩
      | some expected => exact ⟨setCall_other _ other, rfl⟩
  | linked m expected allows =>
    dsimp only
    split
    · exact ⟨setCall_other _ other, rfl⟩
    · exact ⟨setCall_other _ other, rfl⟩
  | sending accepted json offset =>
    exact ⟨setCall_other _ other, handedBy_other r.log (Ne.symm other)⟩
  | giving => exact ⟨setCall_other _ other, rfl⟩

theorem step_other {e : Event} (busy : r.calls task ≠ .idle) (other : isTurn task e = false) :
    (step r e).calls task = r.calls task ∧
      handedBy task (step r e).log = handedBy task r.log := by
  cases e with
  | sendJson t m =>
    simp only [step]
    split
    · rename_i free
      have apart : task ≠ t := by
        rintro rfl
        exact busy free.1
      exact ⟨setCall_other _ apart, rfl⟩
    · exact ⟨rfl, rfl⟩
  | advance t ok =>
    have apart : task ≠ t := by
      rintro rfl
      simp [isTurn] at other
    exact advance_other ok apart
  | connection | monitorFails | protocolReady | recover =>
    simp only [step]
    split <;> exact ⟨rfl, rfl⟩
  | callback =>
    simp only [step]
    cases r.callback <;> exact ⟨rfl, rfl⟩
  | failing =>
    simp only [step]
    cases r.failing <;> exact ⟨rfl, rfl⟩

theorem run_other {events : List Event} (busy : r.calls task ≠ .idle)
    (none_ : turns task events = 0) :
    (run r events).calls task = r.calls task ∧
      handedBy task (run r events).log = handedBy task r.log := by
  induction events generalizing r with
  | nil => exact ⟨rfl, rfl⟩
  | cons e events ih =>
    rw [turns, List.countP_eq_zero] at none_
    have kept := step_other busy (by simpa using none_ e List.mem_cons_self)
    have rest := ih (kept.1 ▸ busy)
      (List.countP_eq_zero.mpr fun e mem => none_ e (List.mem_cons_of_mem _ mem))
    exact ⟨rest.1.trans kept.1, rest.2.trans kept.2⟩

/-- After as many transmissions as there are reports the loop is left, and they are handed over. -/
theorem run_reports {events : List Event} {accepted : UInt32} {json : List UInt8} {offset : Nat}
    (sending : r.calls task = .sending accepted json offset) (more : offset < framedLength json)
    (succeeds : ∀ e ∈ events, Succeeds task e)
    (enough : turns task events = (reportsFrom json offset).length) :
    (run r events).calls task = .giving ∧
      handedBy task (run r events).log = handedBy task r.log ++ reportsFrom json offset := by
  induction events generalizing r offset with
  | nil =>
    rw [reportsFrom, if_pos more] at enough
    cases enough
  | cons e events ih =>
    have rest := fun e mem => succeeds e (List.mem_cons_of_mem _ mem)
    cases turn : isTurn task e with
    | false =>
      have busy : r.calls task ≠ .idle := by
        rw [sending]
        intro same
        cases same
      have kept := step_other busy turn
      rw [turns, List.countP_cons_of_neg (by simp [turn])] at enough
      have later := ih (kept.1.trans sending) more rest enough
      exact ⟨later.1, by rw [← kept.2]; exact later.2⟩
    | true =>
      rw [turns, List.countP_cons_of_pos turn, reportsFrom, if_pos more, List.length_cons,
        Nat.add_right_cancel_iff] at enough
      cases e with
      | advance t ok =>
        have own : t = task := by simpa [isTurn] using turn
        subst own
        have sent : ok = true := succeeds _ List.mem_cons_self rfl
        subst sent
        have call : (step r (.advance t true)).calls t = afterReport accepted json offset true := by
          rw [step, advance, sending]
          exact setCall_own _
        have handed : handedBy t (step r (.advance t true)).log =
            handedBy t r.log ++ [reportAt json offset] := by
          rw [step, advance, sending]
          exact handedBy_own _ rfl
        rw [reportsFrom, if_pos more]
        by_cases last : offset + chunkAt json offset < framedLength json
        · have next : afterReport accepted json offset true =
              .sending accepted json (offset + chunkAt json offset) :=
            if_pos (by rw [Bool.true_and, decide_eq_true_eq]; exact last)
          obtain ⟨done, log⟩ := ih (call.trans next) last rest enough
          refine ⟨done, ?_⟩
          rw [← List.singleton_append (l := reportsFrom json _), ← List.append_assoc, ← handed]
          exact log
        · have next : afterReport accepted json offset true = .giving :=
            if_neg (by rw [Bool.true_and, decide_eq_true_eq]; exact last)
          have end_ : reportsFrom json (offset + chunkAt json offset) = [] :=
            reportsFrom_end (Nat.le_of_not_lt last)
          rw [end_] at enough ⊢
          have still := run_other (by rw [call, next]; intro same; cases same) enough
          exact ⟨still.1.trans (call.trans next), still.2.trans handed⟩
      | _ => cases turn

/-- A message whose transmissions all succeed arrives whole: its reports are well formed, and their
payloads are the text and one newline, whatever happens to the link meanwhile. -/
theorem sendJson_lossless (json : List UInt8) :
    (∀ report ∈ reportsFrom json 0, Framed report) ∧
      (reportsFrom json 0).flatMap payloadOf = json ++ [10] ∧
      ∀ (r : Radio) (task : Nat) (accepted : UInt32) (events : List Event),
        r.calls task = .sending accepted json 0 → (∀ e ∈ events, Succeeds task e) →
          turns task events = (reportsFrom json 0).length →
            (run r events).calls task = .giving ∧
              handedBy task (run r events).log = handedBy task r.log ++ reportsFrom json 0 := by
  refine ⟨framed_reportsFrom, ?_, ?_⟩
  · rw [payload_reportsFrom, List.drop_zero]
  · intro r task accepted events sending succeeds enough
    exact run_reports sending (Nat.succ_pos _) succeeds enough

/-- A text whose newline fills its second report, and one whose newline is alone in its third. -/
def fullText : List UInt8 := List.replicate 121 120

def overText : List UInt8 := List.replicate 122 120

def callOf (json : List UInt8) : Radio := { calls := fun _ => .sending 1 json 0 }

private theorem full_reports : (reportsFrom fullText 0).length = 2 ∧ (reportsFrom overText 0).length = 3 := by
  constructor
  · rw [length_reportsFrom, framedLength, fullText, List.length_replicate, payloadSize]
  · rw [length_reportsFrom, framedLength, overText, List.length_replicate, payloadSize]

/-- After these events the first task has handed over the whole text in this many reports. -/
def Arrives (json : List UInt8) (events : List Event) (count : Nat) : Prop :=
  let handed := handedBy 0 (run (callOf json) events).log
  handed.length = count ∧ handed.flatMap payloadOf = json ++ [10] ∧ ∀ report ∈ handed, Framed report

/-- Both texts arrive whole over a link that comes and goes. -/
theorem full_handed :
    Arrives fullText [.connection false, .advance 0 true, .connection true, .advance 0 true] 2 ∧
      Arrives overText [.advance 0 true, .connection false, .advance 0 true, .advance 0 true] 3 := by
  unfold Arrives
  constructor
  · obtain ⟨framed, whole, handed⟩ := sendJson_lossless fullText
    obtain ⟨-, log⟩ := handed (callOf fullText) 0 1
      [.connection false, .advance 0 true, .connection true, .advance 0 true] rfl
        (by simp [Succeeds]) full_reports.1.symm
    rw [log]
    exact ⟨full_reports.1, whole, framed⟩
  · obtain ⟨framed, whole, handed⟩ := sendJson_lossless overText
    obtain ⟨-, log⟩ := handed (callOf overText) 0 1
      [.advance 0 true, .connection false, .advance 0 true, .advance 0 true] rfl
        (by simp [Succeeds]) full_reports.2.symm
    rw [log]
    exact ⟨full_reports.2, whole, framed⟩

end Run

end Mosaico.Ble.HidTransmit
