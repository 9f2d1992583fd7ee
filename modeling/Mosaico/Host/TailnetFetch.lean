import Mosaico.Host.TailnetFetchModel
import Mathlib.Data.List.Infix

/-! The result of a tailnet fetch against the bytes that arrived: the receive loop is
related to a judge that sees only those bytes. -/
namespace Mosaico.Host.TailnetFetch

open CText

/-- What the bytes received so far amount to. -/
inductive Verdict where
  | more
  | refused
  | enough (body : List UInt8)
deriving DecidableEq

def judge (capacity : Nat) (received : List UInt8) : Verdict :=
  match strstr blankLine (untilNul received) with
  | none => if 2048 ≤ received.length then .refused else .more
  | some split =>
    match inspectHead capacity (received.take split) with
    | .error _ => .refused
    | .ok n => if split + 4 + n ≤ received.length then .enough ((received.drop (split + 4)).take n) else .more

/-- The receive loop on the bytes alone; none if no body comes of it. -/
def listen (capacity : Nat) : List UInt8 → List (List UInt8) → Option (List UInt8)
  | _, [] => none
  | received, data :: later =>
    if capacity + 2047 ≤ received.length then none
    else
      match judge capacity (received ++ data.take (capacity + 2047 - received.length)) with
      | .more => listen capacity (received ++ data.take (capacity + 2047 - received.length)) later
      | .refused => none
      | .enough body => some body

variable {capacity : Nat} {received data : List UInt8} {r : Reading}

/-- The loop's variables stand for the bytes received, while more are needed. -/
structure Stands (capacity : Nat) (received : List UInt8) (r : Reading) : Prop where
  size : r.response.length = capacity + 2048
  used : r.used = received.length
  room : received.length ≤ capacity + 2047
  ok : r.ok = true
  more : judge capacity received = .more
  waiting : r.payload = none → r.contentLength = 0 ∧ strstr blankLine (untilNul received) = none ∧
    ∃ back, r.response = received ++ 0 :: back
  counting : ∀ payload, r.payload = some payload → ∃ split, payload = split + 4 ∧
    strstr blankLine (untilNul received) = some split ∧
    inspectHead capacity (received.take split) = .ok r.contentLength ∧
    ∃ front back, front.length = payload ∧ r.response = front ++ (received.drop payload ++ 0 :: back)

/-- What one call of the loop's body leads to. -/
def Taken (capacity : Nat) (received : List UInt8) (outcome : Bool × Reading) : Prop :=
  match judge capacity received with
  | .more => outcome.1 = true ∧ Stands capacity received outcome.2
  | .refused => outcome.1 = false ∧ outcome.2.ok = false
  | .enough body => outcome.1 = false ∧ outcome.2.ok = true ∧ outcome.2.contentLength = body.length ∧
    0 < body.length ∧ body.length < capacity ∧
    ∃ payload, outcome.2.payload = some payload ∧ outcome.2.used = received.length ∧
      payload + body.length ≤ received.length ∧ ∃ front back, front.length = payload ∧
      outcome.2.response = front ++ (body ++ back)

theorem inspectHead_size {head : List UInt8} {n : Nat} (h : inspectHead capacity head = .ok n) :
    0 < n ∧ n < capacity := by
  rw [inspectHead] at h
  split at h
  · cases h
  · split at h
    · cases h
    · split at h
      · cases h
      · split at h
        · cases h
        · rename_i valid
          cases h
          omega

theorem judge_split (capacity : Nat) {split : Nat} (found : strstr blankLine (untilNul received) = some split) :
    judge capacity received =
      match inspectHead capacity (received.take split) with
      | .error _ => .refused
      | .ok n => if split + 4 + n ≤ received.length then .enough ((received.drop (split + 4)).take n) else .more := by
  rw [judge, found]

/-- The blank line that was found ends inside the bytes. -/
theorem split_inside {split : Nat} (found : strstr blankLine (untilNul received) = some split) :
    split + 4 ≤ (untilNul received).length ∧ split + 4 ≤ received.length := by
  have inside := strstr_inside found
  have short := (untilNul_initial received).length_le
  exact ⟨inside, Nat.le_trans inside short⟩

/-- The test at the end of the loop's body agrees with the judge once the head is read. -/
theorem enough_taken {split : Nat} {front back : List UInt8}
    (found : strstr blankLine (untilNul received) = some split)
    (head : inspectHead capacity (received.take split) = .ok r.contentLength)
    (size : r.response.length = capacity + 2048) (used : r.used = received.length)
    (room : received.length ≤ capacity + 2047) (ok : r.ok = true) (payload : r.payload = some (split + 4))
    (place : front.length = split + 4)
    (response : r.response = front ++ (received.drop (split + 4) ++ 0 :: back)) :
    ∃ outcome, r.enough (split + 4) = some outcome ∧ Taken capacity received outcome := by
  have inside := (split_inside found).2
  have count : arrived r.used (split + 4) = some (received.length - (split + 4)) := by
    rw [arrived, used, if_pos inside]
  have verdict := judge_split capacity found
  rw [head] at verdict
  dsimp only at verdict
  refine ⟨(decide (received.length - (split + 4) < r.contentLength), r), ?_, ?_⟩
  · rw [Reading.enough, count]
    rfl
  · rw [Taken]
    by_cases whole : split + 4 + r.contentLength ≤ received.length
    · rw [verdict, if_pos whole]
      have bodyLength : ((received.drop (split + 4)).take r.contentLength).length = r.contentLength := by
        rw [List.length_take, List.length_drop]
        omega
      have sizes := inspectHead_size head
      dsimp only
      rw [bodyLength]
      refine ⟨decide_eq_false (by omega), ok, rfl, sizes.1, sizes.2, split + 4, payload, used, whole, front,
        (received.drop (split + 4)).drop r.contentLength ++ 0 :: back, place, ?_⟩
      have parts := List.take_append_drop r.contentLength (received.drop (split + 4))
      rw [response, ← List.append_assoc (List.take _ _), parts]
    · rw [if_neg whole] at verdict
      rw [verdict]
      refine ⟨decide_eq_true (by omega), size, used, room, ok, verdict, ?_, ?_⟩
      · intro none_
        rw [payload] at none_
        cases none_
      · intro p hp
        rw [payload] at hp
        cases hp
        exact ⟨split, rfl, found, head, front, back, place, response⟩

theorem head_taken {split : Nat} {back : List UInt8} (found : strstr blankLine (untilNul received) = some split)
    (size : r.response.length = capacity + 2048) (used : r.used = received.length)
    (room : received.length ≤ capacity + 2047) (ok : r.ok = true)
    (response : r.response = received ++ 0 :: back) :
    ∃ outcome, r.head capacity split = some outcome ∧ Taken capacity received outcome := by
  obtain ⟨within, inside⟩ := split_inside found
  have part : received.take split = (untilNul received).take split := by
    have prefixed := List.prefix_iff_eq_take.mp (untilNul_initial received)
    rw [prefixed, List.take_take, Nat.min_eq_left (by omega)]
  have clear : 0 ∉ received.take split := by
    rw [part]
    exact fun nul => untilNul_no_nul received (List.mem_of_mem_take nul)
  have headLength : (received.take split).length = split := by
    rw [List.length_take]
    omega
  have cut : r.response = received.take split ++ (received.drop split ++ 0 :: back) := by
    rw [response, ← List.append_assoc, List.take_append_drop]
  have written : write r.response split [0] =
      some (received.take split ++ 0 :: (received.drop (split + 1) ++ 0 :: back)) := by
    have stored := write_append (received.take split) (received.drop split ++ 0 :: back) [0]
        (by simp only [List.length_append, List.length_cons, List.length_nil]; omega)
    rw [headLength, ← cut] at stored
    rw [stored, List.append_assoc, List.singleton_append, List.length_singleton,
      List.drop_append_of_le_length (by rw [List.length_drop]; omega), List.drop_drop]
  have read : text (received.take split ++ 0 :: (received.drop (split + 1) ++ 0 :: back)) =
      some (received.take split) := by
    rw [text_ended, untilNul_clear clear]
  cases checked : inspectHead capacity (received.take split) with
  | error stage =>
    have verdict := judge_split capacity found
    rw [checked] at verdict
    have refused : ∃ r', r.head capacity split = some (false, Reading.refuse r' stage) := by
      rw [Reading.head, written]
      simp only [Option.bind_eq_bind, Option.bind_some, read, checked]
      exact ⟨_, rfl⟩
    obtain ⟨r', refused⟩ := refused
    refine ⟨_, refused, ?_⟩
    rw [Taken, verdict]
    exact ⟨rfl, rfl⟩
  | ok n =>
    have place : (received.take split ++ 0 :: (received.drop (split + 1)).take 3).length = split + 4 := by
      simp only [List.length_append, List.length_cons, List.length_take, List.length_drop]
      omega
    have rest : (received.drop (split + 1)).take 3 ++ received.drop (split + 4) = received.drop (split + 1) := by
      have parts := List.take_append_drop 3 (received.drop (split + 1))
      rw [List.drop_drop] at parts
      exact parts
    have layout : received.take split ++ 0 :: (received.drop (split + 1) ++ 0 :: back) =
        (received.take split ++ 0 :: (received.drop (split + 1)).take 3) ++
          (received.drop (split + 4) ++ 0 :: back) := by
      have moved := congrArg (received.take split ++ 0 :: · ++ 0 :: back) rest
      simp only [List.append_assoc, List.cons_append] at moved ⊢
      exact moved.symm
    have length : (received.take split ++ 0 :: (received.drop (split + 1) ++ 0 :: back)).length =
        capacity + 2048 := by
      rw [← size]
      exact write_length written
    obtain ⟨outcome, enough, taken⟩ := enough_taken
      (r := { r with
        response := received.take split ++ 0 :: (received.drop (split + 1) ++ 0 :: back)
        payload := some (split + 4)
        contentLength := n
        diagnostic.contentLength := ((declared (received.take split)).map Prod.fst).getD r.diagnostic.contentLength })
      found checked length used room ok rfl place layout
    refine ⟨outcome, ?_, taken⟩
    rw [Reading.head, written]
    simp only [Option.bind_eq_bind, Option.bind_some, read, checked]
    exact enough

/-- What arrives goes behind what is there, with a NUL after it. -/
theorem store_behind (data : List UInt8) {front back : List UInt8} (used : r.used = front.length)
    (response : r.response = front ++ 0 :: back) (fits : data.length ≤ back.length) :
    ∃ r' back', r.store data = some r' ∧ r'.response = front ++ data ++ 0 :: back' ∧
      r'.response.length = r.response.length ∧ r'.used = r.used + data.length ∧ r'.payload = r.payload ∧
      r'.contentLength = r.contentLength ∧ r'.ok = r.ok := by
  have first := write_append front (0 :: back) data (Nat.le_trans fits (Nat.le_succ _))
  have second := write_append (front ++ data) ((0 :: back).drop data.length) [0]
    (by simp only [List.length_drop, List.length_cons, List.length_nil]; omega)
  rw [List.length_append, ← used] at second
  rw [← response, ← used] at first
  have size := (write_length second).trans (write_length first)
  have stored : r.store data = some { r with
      response := front ++ data ++ [0] ++ ((0 :: back).drop data.length).drop 1
      used := r.used + data.length, diagnostic.received := r.used + data.length } := by
    rw [Reading.store, first]
    simp only [Option.bind_eq_bind, Option.bind_some, second]
    rfl
  refine ⟨_, ((0 :: back).drop data.length).drop 1, stored, ?_, size, rfl, rfl, rfl, rfl⟩
  rw [List.append_assoc _ [0]]
  rfl

theorem look_taken {back : List UInt8} (size : r.response.length = capacity + 2048) (used : r.used = received.length)
    (room : received.length ≤ capacity + 2047) (ok : r.ok = true) (payload : r.payload = none)
    (length : r.contentLength = 0) (response : r.response = received ++ 0 :: back) :
    ∃ outcome, r.look capacity = some outcome ∧ Taken capacity received outcome := by
  have read : text r.response = some (untilNul received) := by rw [response, text_ended]
  rw [Reading.look, read]
  simp only [Option.bind_eq_bind, Option.bind_some]
  cases found : strstr blankLine (untilNul received) with
  | none =>
    have verdict : judge capacity received = if 2048 ≤ received.length then .refused else .more := by
      rw [judge, found]
    by_cases long : 2048 ≤ received.length
    · rw [if_pos long] at verdict
      refine ⟨_, rfl, ?_⟩
      rw [Taken, verdict, if_pos (used ▸ long)]
      exact ⟨rfl, rfl⟩
    · rw [if_neg long] at verdict
      refine ⟨_, rfl, ?_⟩
      rw [Taken, verdict, if_neg (used ▸ long)]
      refine ⟨rfl, size, used, room, ok, verdict, fun _ => ⟨length, found, back, response⟩, ?_⟩
      intro p hp
      cases payload.symm.trans hp
  | some split =>
    exact head_taken found size used room ok response

theorem take_taken (stands : Stands capacity received r) (room : (received ++ data).length ≤ capacity + 2047) :
    ∃ outcome, r.take capacity data = some outcome ∧ Taken capacity (received ++ data) outcome := by
  have short : received.length + data.length ≤ capacity + 2047 := by rwa [List.length_append] at room
  have size := stands.size
  have total : r.used + data.length = (received ++ data).length := by rw [stands.used, List.length_append]
  cases payload : r.payload with
  | none =>
    obtain ⟨length, _, back, response⟩ := stands.waiting payload
    rw [response, List.length_append, List.length_cons] at size
    obtain ⟨r', back', stored, response', size', used', payload', length', ok'⟩ :=
      store_behind data stands.used response (by omega)
    obtain ⟨outcome, look, taken⟩ := look_taken (size'.trans stands.size) (used'.trans total) room
      (ok'.trans stands.ok) (payload'.trans payload) (length'.trans length) response'
    refine ⟨outcome, ?_, taken⟩
    rw [Reading.take, stored]
    simp only [Option.bind_eq_bind, Option.bind_some, payload', payload]
    exact look
  | some p =>
    obtain ⟨split, rfl, found, checked, front, back, place, response⟩ := stands.counting p payload
    have inside := (split_inside found).2
    have whole : (front ++ received.drop (split + 4)).length = received.length := by
      rw [List.length_append, List.length_drop, place]
      omega
    rw [← List.append_assoc] at response
    rw [response, List.length_append, List.length_cons, whole] at size
    obtain ⟨r', back', stored, response', size', used', payload', length', ok'⟩ :=
      store_behind data (stands.used.trans whole.symm) response (by omega)
    have still : strstr blankLine (untilNul (received ++ data)) = some split :=
      (strstr_within (untilNul_append received data) (split_inside found).1).mp found
    have head : inspectHead capacity ((received ++ data).take split) = .ok r'.contentLength := by
      rw [List.take_append_of_le_length (by omega), length']
      exact checked
    have layout : r'.response = front ++ ((received ++ data).drop (split + 4) ++ 0 :: back') := by
      rw [response', List.drop_append_of_le_length inside]
      simp only [List.append_assoc]
    obtain ⟨outcome, enough, taken⟩ := enough_taken still head (size'.trans stands.size) (used'.trans total) room
      (ok'.trans stands.ok) (payload'.trans payload) place layout
    refine ⟨outcome, ?_, taken⟩
    rw [Reading.take, stored]
    simp only [Option.bind_eq_bind, Option.bind_some, payload', payload]
    exact enough

section Loop

variable {body : List UInt8} (ending : Ending)

def Delivers (body : List UInt8) (f : Fetched) : Option (List UInt8) → Prop
  | none => f.result = false ∧ f.length = 0 ∧ f.body = body
  | some bytes => f.result = true ∧ f.length = bytes.length ∧ f.body = bytes ++ 0 :: body.drop (bytes.length + 1)

theorem finish_failed (failed : r.success = some none) :
    ∃ f, r.finish capacity ending body = some f ∧ Delivers body f none := by
  rw [Reading.finish, failed]
  simp only [Option.bind_eq_bind, Option.bind_some]
  exact ⟨_, rfl, rfl, rfl, rfl⟩

theorem success_refused (refused : r.ok = false) : r.success = some none := by
  rw [Reading.success]
  cases r.payload with
  | none => rfl
  | some payload =>
    dsimp only
    rw [if_neg (by rw [refused]; simp)]

theorem success_more (stands : Stands capacity received r) : r.success = some none := by
  rw [Reading.success]
  cases payload : r.payload with
  | none => rfl
  | some p =>
    obtain ⟨split, rfl, found, checked, _⟩ := stands.counting p payload
    have inside := (split_inside found).2
    have waits : ¬ split + 4 + r.contentLength ≤ received.length := by
      intro whole
      have verdict := stands.more
      rw [judge_split capacity found, checked] at verdict
      dsimp only at verdict
      rw [if_pos whole] at verdict
      cases verdict
    have count : arrived r.used (split + 4) = some (received.length - (split + 4)) := by
      rw [arrived, stands.used, if_pos inside]
    dsimp only
    rw [if_pos ⟨stands.ok, (inspectHead_size checked).1⟩, count]
    simp only [Option.bind_eq_bind, Option.bind_some]
    rw [if_neg (by omega)]
    rfl

theorem finish_enough {bytes front back : List UInt8} {payload : Nat} (size : body.length = capacity)
    (ok : r.ok = true) (length : r.contentLength = bytes.length) (some_ : 0 < bytes.length)
    (fits : bytes.length < capacity) (place : r.payload = some payload) (used : payload + bytes.length ≤ r.used)
    (start : front.length = payload) (response : r.response = front ++ (bytes ++ back)) :
    ∃ f, r.finish capacity ending body = some f ∧ Delivers body f (some bytes) := by
  have success : r.success = some (some payload) := by
    have count : arrived r.used payload = some (r.used - payload) := by rw [arrived, if_pos (by omega)]
    rw [Reading.success, place]
    dsimp only
    rw [length, if_pos ⟨ok, some_⟩, count]
    simp only [Option.bind_eq_bind, Option.bind_some]
    rw [if_pos (by omega)]
    rfl
  have taken : read r.response payload r.contentLength = some bytes := by
    rw [response, ← start, read_append (by rw [length, List.length_append]; omega), length, List.take_left]
  have first : write body 0 bytes = some (bytes ++ body.drop bytes.length) := by
    have stored := write_append [] body bytes (by omega)
    exact stored
  have second : write (bytes ++ body.drop bytes.length) r.contentLength [0] =
      some (bytes ++ 0 :: body.drop (bytes.length + 1)) := by
    rw [length, write_append _ _ _ (by simp only [List.length_drop, List.length_cons, List.length_nil]; omega),
      List.append_assoc, List.length_singleton, List.drop_drop, List.singleton_append]
  rw [Reading.finish, success]
  simp only [Option.bind_eq_bind, Option.bind_some, taken, first, second]
  exact ⟨_, rfl, rfl, length, rfl⟩

theorem finish_taken {outcome : Bool × Reading} (size : body.length = capacity)
    (taken : Taken capacity received outcome) (ends : judge capacity received ≠ .more) :
    outcome.1 = false ∧ ∃ f, outcome.2.finish capacity ending body = some f ∧
      Delivers body f (match judge capacity received with | .enough bytes => some bytes | _ => none) := by
  rw [Taken] at taken
  cases verdict : judge capacity received with
  | more => exact absurd verdict ends
  | refused =>
    rw [verdict] at taken
    exact ⟨taken.1, finish_failed ending (success_refused taken.2)⟩
  | enough bytes =>
    rw [verdict] at taken
    obtain ⟨stops, ok, length, some_, fits, payload, place, used, whole, front, back, start, response⟩ := taken
    exact ⟨stops, finish_enough ending size ok length some_ fits place (used ▸ whole) start response⟩

/-- The receive loop and what follows it deliver what the judge hears. -/
theorem receive_listen (size : body.length = capacity) (stands : Stands capacity received r)
    (arrivals : List (List UInt8)) :
    ∃ f, (receive capacity ending r arrivals).bind (Reading.finish capacity ending body) = some f ∧
      Delivers body f (listen capacity received arrivals) := by
  induction arrivals generalizing received r with
  | nil =>
    have same : Reading.success { r with failure := .receive } = r.success := rfl
    have failed := same.trans (success_more stands)
    rw [receive, listen]
    split
    · exact finish_failed ending failed
    · exact finish_failed ending (success_more stands)
  | cons data later ih =>
    have used := stands.used
    rw [receive, listen]
    by_cases full : capacity + 2047 ≤ received.length
    · rw [if_neg (by omega), if_pos full]
      exact finish_failed ending (success_more stands)
    · rw [if_pos (by omega), if_neg full, used]
      generalize cut : data.take (capacity + 2047 - received.length) = piece
      have short : (received ++ piece).length ≤ capacity + 2047 := by
        rw [← cut, List.length_append, List.length_take]
        omega
      dsimp only
      by_cases silent : piece = []
      · rw [if_pos silent, silent, List.append_nil, stands.more]
        exact ih stands
      · obtain ⟨outcome, took, taken⟩ := take_taken stands short
        rw [if_neg silent, took]
        simp only [Option.bind_eq_bind, Option.bind_some]
        cases verdict : judge capacity (received ++ piece) with
        | more =>
          rw [Taken, verdict] at taken
          rw [show outcome = (true, outcome.2) from Prod.ext taken.1 rfl]
          exact ih taken.2
        | refused =>
          have ended := finish_taken ending size taken (by rw [verdict]; nofun)
          rw [verdict] at ended
          rw [show outcome = (false, outcome.2) from Prod.ext ended.1 rfl]
          exact ended.2
        | enough bytes =>
          have ended := finish_taken ending size taken (by rw [verdict]; nofun)
          rw [verdict] at ended
          rw [show outcome = (false, outcome.2) from Prod.ext ended.1 rfl]
          exact ended.2

end Loop

section Meaning

variable {d part bytes : List UInt8} {split n : Nat}

private theorem untilNul_part (prefixed : part <+: d) (inside : n ≤ part.length) (within : n ≤ (untilNul d).length) :
    n ≤ (untilNul part).length := by
  have same : untilNul part = (untilNul d).take part.length := by
    rw [untilNul, untilNul, List.take_takeWhile, ← List.prefix_iff_eq_take.mp prefixed]
  rw [same, List.length_take]
  exact Nat.le_min.mpr ⟨inside, within⟩

/-- A head that ends inside a part ends at the same place of the whole. -/
theorem split_part (prefixed : part <+: d) (inside : split + 4 ≤ part.length) :
    strstr blankLine (untilNul part) = some split ↔ strstr blankLine (untilNul d) = some split := by
  obtain ⟨more, rfl⟩ := prefixed
  constructor
  · intro found
    exact (strstr_within (untilNul_append part more) (split_inside found).1).mp found
  · intro found
    have within := untilNul_part (List.prefix_append part more) inside (split_inside found).1
    exact (strstr_within (untilNul_append part more) within).mpr found

/-- The bytes hold a whole acceptable reply that fits the response buffer. -/
structure Whole (capacity : Nat) (d bytes : List UInt8) (split n : Nat) : Prop where
  found : strstr blankLine (untilNul d) = some split
  checked : inspectHead capacity (d.take split) = .ok n
  present : split + 4 + n ≤ d.length
  room : split + 4 + n ≤ capacity + 2047
  body : bytes = (d.drop (split + 4)).take n

theorem Whole.judged (whole : Whole capacity d bytes split n) (prefixed : part <+: d)
    (inside : split + 4 + n ≤ part.length) : judge capacity part = .enough bytes := by
  have found := (split_part prefixed (by omega)).mpr whole.found
  obtain ⟨more, rfl⟩ := prefixed
  have checked := whole.checked
  rw [List.take_append_of_le_length (by omega)] at checked
  rw [judge_split capacity found, checked]
  dsimp only
  rw [if_pos inside, whole.body, List.drop_append_of_le_length (by omega),
    List.take_append_of_le_length (by rw [List.length_drop]; omega)]

theorem judge_enough (verdict : judge capacity part = .enough bytes) (prefixed : part <+: d)
    (room : part.length ≤ capacity + 2047) :
    ∃ split n, Whole capacity d bytes split n ∧ split + 4 + n ≤ part.length := by
  rw [judge] at verdict
  cases found : strstr blankLine (untilNul part) with
  | none =>
    rw [found] at verdict
    dsimp only at verdict
    split at verdict <;> cases verdict
  | some split =>
    rw [found] at verdict
    have inside := (split_inside found).2
    cases checked : inspectHead capacity (part.take split) with
    | error stage =>
      simp only [checked] at verdict
      cases verdict
    | ok n =>
      simp only [checked] at verdict
      by_cases present : split + 4 + n ≤ part.length
      · rw [if_pos present] at verdict
        cases verdict
        have there := (split_part prefixed inside).mp found
        obtain ⟨more, rfl⟩ := prefixed
        refine ⟨split, n, ⟨there, ?_, ?_, by omega, ?_⟩, present⟩
        · rw [List.take_append_of_le_length (by omega)]
          exact checked
        · rw [List.length_append]
          omega
        · rw [List.drop_append_of_le_length inside,
            List.take_append_of_le_length (by rw [List.length_drop]; omega)]
      · rw [if_neg present] at verdict
        cases verdict

theorem judge_more (verdict : judge capacity part = .more) (prefixed : part <+: d)
    (found : strstr blankLine (untilNul d) = some split) : part.length < 2048 ∨ split + 4 ≤ part.length := by
  by_contra neither
  have absent : strstr blankLine (untilNul part) = none := by
    cases here : strstr blankLine (untilNul part) with
    | none => rfl
    | some other =>
      have inside := (split_inside here).2
      have same := (split_part prefixed inside).mp here
      cases found.symm.trans same
      omega
  rw [judge, absent] at verdict
  dsimp only at verdict
  rw [if_pos (by omega)] at verdict
  cases verdict

theorem judge_refused (verdict : judge capacity part = .refused) (prefixed : part <+: d)
    (whole : Whole capacity d bytes split n) : 2048 ≤ part.length ∧ part.length < split + 4 := by
  rw [judge] at verdict
  cases here : strstr blankLine (untilNul part) with
  | none =>
    rw [here] at verdict
    dsimp only at verdict
    have long : 2048 ≤ part.length := by
      by_contra short
      rw [if_neg short] at verdict
      cases verdict
    refine ⟨long, ?_⟩
    by_contra inside
    cases here.symm.trans ((split_part prefixed (by omega)).mpr whole.found)
  | some other =>
    have inside := (split_inside here).2
    have same := (split_part prefixed inside).mp here
    cases whole.found.symm.trans same
    have checked := whole.checked
    obtain ⟨more, rfl⟩ := prefixed
    rw [List.take_append_of_le_length (by omega)] at checked
    simp only [here, checked] at verdict
    split at verdict <;> cases verdict

theorem Whole.unique {bytes' : List UInt8} {split' n' : Nat} (whole : Whole capacity d bytes split n)
    (whole' : Whole capacity d bytes' split' n') : split = split' ∧ n = n' ∧ bytes = bytes' := by
  cases whole.found.symm.trans whole'.found
  cases whole.checked.symm.trans whole'.checked
  exact ⟨rfl, rfl, whole.body.trans whole'.body.symm⟩

/-- No receive call ended between byte 2048 and the end of a longer head. -/
def Timely (split : Nat) (received : List UInt8) (arrivals : List (List UInt8)) : Prop :=
  ∀ front back, arrivals = front ++ back →
    (received ++ front.flatten).length < 2048 ∨ split + 4 ≤ (received ++ front.flatten).length

theorem timely_cons {later : List (List UInt8)} : Timely split received (data :: later) ↔
    (received.length < 2048 ∨ split + 4 ≤ received.length) ∧ Timely split (received ++ data) later := by
  constructor
  · intro timely
    have now := timely [] (data :: later) rfl
    rw [List.flatten_nil, List.append_nil] at now
    refine ⟨now, fun front back parts => ?_⟩
    have then_ := timely (data :: front) back (by rw [parts, List.cons_append])
    rwa [List.flatten_cons, ← List.append_assoc] at then_
  · intro timely front back parts
    cases front with
    | nil =>
      rw [List.flatten_nil, List.append_nil]
      exact timely.1
    | cons first front =>
      rw [List.cons_append] at parts
      cases parts
      rw [List.flatten_cons, ← List.append_assoc]
      exact timely.2 front back rfl

private theorem listen_full {arrivals : List (List UInt8)} (full : capacity + 2047 ≤ received.length) :
    listen capacity received arrivals = none := by
  cases arrivals with
  | nil => rfl
  | cons data later => rw [listen, if_pos full]

/-- Which bytes the loop delivers, for every way in which they arrive. -/
theorem listen_iff {arrivals : List (List UInt8)} (more : judge capacity received = .more) :
    listen capacity received arrivals = some bytes ↔
      ∃ split n, Whole capacity (received ++ arrivals.flatten) bytes split n ∧ Timely split received arrivals := by
  induction arrivals generalizing received with
  | nil =>
    refine ⟨nofun, ?_⟩
    rintro ⟨split, n, whole, _⟩
    rw [List.flatten_nil, List.append_nil] at whole
    cases more.symm.trans (whole.judged List.prefix_rfl whole.present)
  | cons data later ih =>
    have start : received <+: received ++ (data :: later).flatten := List.prefix_append _ _
    rw [listen]
    by_cases full : capacity + 2047 ≤ received.length
    · rw [if_pos full]
      refine ⟨nofun, ?_⟩
      rintro ⟨split, n, whole, _⟩
      cases more.symm.trans (whole.judged start (Nat.le_trans whole.room full))
    · rw [if_neg full]
      generalize cut : capacity + 2047 - received.length = k
      have size : (received ++ data.take k).length = min (received ++ data).length (capacity + 2047) := by
        simp only [List.length_append, List.length_take]
        omega
      have now : received ++ data.take k <+: received ++ (data :: later).flatten := by
        rw [List.flatten_cons, List.prefix_append_right_inj]
        exact (List.take_prefix k data).trans (List.prefix_append _ _)
      cases verdict : judge capacity (received ++ data.take k) with
      | more =>
        dsimp only
        by_cases fits : data.length ≤ k
        · rw [List.take_of_length_le fits] at verdict ⊢
          rw [ih verdict, List.flatten_cons, ← List.append_assoc]
          constructor
          · rintro ⟨split, n, whole, timely⟩
            have early := judge_more more (List.prefix_append _ _ |>.trans (List.prefix_append _ _)) whole.found
            exact ⟨split, n, whole, timely_cons.mpr ⟨early, timely⟩⟩
          · rintro ⟨split, n, whole, timely⟩
            exact ⟨split, n, whole, (timely_cons.mp timely).2⟩
        · have whole_ : (received ++ data.take k).length = capacity + 2047 := by
            rw [size, List.length_append]
            omega
          rw [listen_full (Nat.le_of_eq whole_.symm)]
          refine ⟨nofun, ?_⟩
          rintro ⟨split, n, whole, _⟩
          cases verdict.symm.trans (whole.judged now (whole_ ▸ whole.room))
      | refused =>
        refine ⟨nofun, ?_⟩
        rintro ⟨split, n, whole, timely⟩
        have late := judge_refused verdict now whole
        have early := (timely_cons.mp timely).2 [] later rfl
        have room := whole.room
        rw [List.flatten_nil, List.append_nil] at early
        omega
      | enough found =>
        obtain ⟨split, n, whole, inside⟩ := judge_enough verdict now (by omega)
        constructor
        · intro same
          cases same
          refine ⟨split, n, whole, timely_cons.mpr ⟨judge_more more start whole.found, ?_⟩⟩
          intro front back _
          right
          rw [List.length_append]
          omega
        · rintro ⟨split', n', whole', _⟩
          rw [(whole.unique whole').2.2]

theorem timely_short {arrivals : List (List UInt8)} (short : split + 4 ≤ 2048) : Timely split [] arrivals := by
  intro front back _
  omega

end Meaning

section Replies

/-- The bytes start with a head, which has no NUL, and the first blank line behind it. -/
structure Reply (d head rest : List UInt8) : Prop where
  split : d = head ++ blankLine ++ rest
  first : ∀ k < head.length, ¬ blankLine <+: d.drop k
  text : 0 ∉ head

/-- A head that `fetch` takes: status 200, a length in the first Content-Length line as
`strtoul` reads it, up to the line's end, and no Transfer-Encoding line. -/
structure Acceptable (capacity : Nat) (head : List UInt8) (n : Nat) : Prop where
  status : ascii "HTTP/1.1 200 " <+: head ∨ ascii "HTTP/1.0 200 " <+: head
  length : ∃ rest, declared head = some (n, rest) ∧ (rest = [] ∨ rest.head? = some 13)
  size : 0 < n ∧ n < capacity
  plain : strcasestr transferEncodingHeader head = none

theorem inspectHead_iff {head : List UInt8} {n : Nat} :
    inspectHead capacity head = .ok n ↔ Acceptable capacity head n := by
  rw [inspectHead]
  constructor
  · intro h
    split at h
    · cases h
    · rename_i status
      rw [List.isPrefixOf_iff_prefix, List.isPrefixOf_iff_prefix] at status
      split at h
      · cases h
      · rename_i value rest line
        split at h
        · cases h
        · rename_i plain
          split at h
          · cases h
          · rename_i valid
            cases h
            rw [not_or, not_or] at valid
            have ended := (or_iff_not_and_not.mpr valid.1).symm
            exact ⟨or_iff_not_and_not.mpr status, ⟨rest, line, ended⟩,
              ⟨Nat.pos_of_ne_zero valid.2.1, Nat.lt_of_not_le valid.2.2⟩, Option.not_isSome_iff_eq_none.mp plain⟩
  · rintro ⟨status, ⟨rest, line, ended⟩, size, plain⟩
    rw [← List.isPrefixOf_iff_prefix, ← List.isPrefixOf_iff_prefix] at status
    have valid : ¬ ((rest.head? ≠ some 13 ∧ rest ≠ []) ∨ n = 0 ∨ capacity ≤ n) := by
      rw [not_or, not_or]
      exact ⟨or_iff_not_and_not.mp ended.symm, Nat.ne_of_gt size.1, Nat.not_le_of_lt size.2⟩
    rw [if_neg (or_iff_not_and_not.mp status), line]
    dsimp only
    rw [plain, if_neg nofun, if_neg valid]

theorem reply_iff {d : List UInt8} {split : Nat} : strstr blankLine (untilNul d) = some split ↔
    ∃ head rest, Reply d head rest ∧ head.length = split := by
  constructor
  · intro found
    obtain ⟨starts, _, first⟩ := strstr_some.mp found
    obtain ⟨within, inside⟩ := split_inside found
    obtain ⟨after, tail⟩ := starts.trans (List.IsPrefix.drop (untilNul_initial d) split)
    refine ⟨d.take split, after, ⟨?_, ?_, ?_⟩, ?_⟩
    · rw [List.append_assoc, tail, List.take_append_drop]
    · intro k before stands
      rw [List.length_take] at before
      have short : blankLine.length ≤ ((untilNul d).drop k).length := by
        rw [List.length_drop, show blankLine.length = 4 from rfl]
        omega
      exact first k (by omega)
        (List.prefix_of_prefix_length_le stands (List.IsPrefix.drop (untilNul_initial d) k) short)
    · have part : d.take split = (untilNul d).take split := by
        rw [List.prefix_iff_eq_take.mp (untilNul_initial d), List.take_take, Nat.min_eq_left (by omega)]
      rw [part]
      exact fun nul => untilNul_no_nul d (List.mem_of_mem_take nul)
    · rw [List.length_take]
      omega
  · rintro ⟨head, rest, ⟨split, first, clear⟩, rfl⟩
    have solid : ∀ c ∈ blankLine, decide (c ≠ 0) = true := by simp [blankLine]
    have none_ : ∀ c ∈ head ++ blankLine, decide (c ≠ 0) = true := by
      intro c hc
      rcases List.mem_append.mp hc with inside | line
      · exact decide_eq_true fun nul => clear (nul ▸ inside)
      · exact solid c line
    have text : untilNul d = head ++ (blankLine ++ untilNul rest) := by
      rw [split, untilNul, List.takeWhile_append_of_pos none_, List.append_assoc]
      rfl
    refine strstr_some.mpr ⟨?_, ?_, ?_⟩
    · rw [text, List.drop_left]
      exact List.prefix_append _ _
    · rw [text, List.length_append]
      omega
    · intro k before stands
      exact first k before (stands.trans (List.IsPrefix.drop (untilNul_initial d) k))

theorem whole_iff {d bytes : List UInt8} {split n : Nat} : Whole capacity d bytes split n ↔
    ∃ head rest, Reply d head rest ∧ head.length = split ∧ Acceptable capacity head n ∧ n ≤ rest.length ∧
      split + 4 + n ≤ capacity + 2047 ∧ bytes = rest.take n := by
  have parts {head rest : List UInt8} (reply : Reply d head rest) :
      d.take head.length = head ∧ d.drop (head.length + 4) = rest ∧ d.length = head.length + 4 + rest.length := by
    have front : (head ++ blankLine).length = head.length + 4 := List.length_append
    rw [reply.split, ← front, List.drop_left, List.append_assoc, List.take_left, ← List.append_assoc,
      List.length_append]
    exact ⟨rfl, rfl, rfl⟩
  constructor
  · intro whole
    obtain ⟨head, rest, reply, rfl⟩ := reply_iff.mp whole.found
    obtain ⟨front, back, size⟩ := parts reply
    have checked := whole.checked
    have body := whole.body
    have present := whole.present
    rw [front] at checked
    rw [back] at body
    exact ⟨head, rest, reply, rfl, inspectHead_iff.mp checked, by omega, whole.room, body⟩
  · rintro ⟨head, rest, reply, rfl, acceptable, present, room, body⟩
    obtain ⟨front, back, size⟩ := parts reply
    refine ⟨reply_iff.mpr ⟨head, rest, reply, rfl⟩, ?_, by omega, room, ?_⟩
    · rw [front]
      exact inspectHead_iff.mpr acceptable
    · rw [back]
      exact body

end Replies

section Fetches

/-- The fetch gets as far as receiving. -/
structure Usable (q : TailnetQuota) (link : Link) (token : String) (pathOverride : Option String) : Prop where
  ready : q.pauseRequested = false ∧ q.connected = true
  connects : link.connects = true
  sends : (request q token pathOverride).utf8ByteSize < 640 ∧ link.sends = true
  allocates : link.allocates = true

/-- How the bytes arrive plays no part in that. -/
theorem Usable.ending {q : TailnetQuota} {link link' : Link} {token : String} {pathOverride : Option String}
    (usable : Usable q link token pathOverride)
    (same : link'.connects = link.connects ∧ link'.sends = link.sends ∧ link'.allocates = link.allocates) :
    Usable q link' token pathOverride :=
  ⟨usable.ready, same.1.trans usable.connects, ⟨usable.sends.1, same.2.1.trans usable.sends.2⟩,
    same.2.2.trans usable.allocates⟩

/-- The loop starts with an empty buffer. -/
private theorem stands_start (capacity : Nat) :
    Stands capacity [] { response := List.replicate (capacity + 2048) 0 } where
  size := List.length_replicate
  used := rfl
  room := Nat.zero_le _
  ok := rfl
  more := rfl
  waiting _ := ⟨rfl, rfl, List.replicate (capacity + 2047) 0, List.replicate_succ⟩
  counting := nofun

variable {q : TailnetQuota} {link : Link} {token : String} {pathOverride : Option String} {body : List UInt8}

theorem fetch_delivers (size : body.length = capacity) (large : 2 ≤ capacity) :
    ∃ f, fetch q link token pathOverride capacity body = some f ∧
      (Usable q link token pathOverride ∧ Delivers body f (listen capacity [] link.arrivals) ∨
        ¬ Usable q link token pathOverride ∧ Delivers body f none) := by
  have unusable {stage : FetchStage} (not_ : ¬ Usable q link token pathOverride) :
      ∃ f, some (failed body stage) = some f ∧
        (Usable q link token pathOverride ∧ Delivers body f (listen capacity [] link.arrivals) ∨
          ¬ Usable q link token pathOverride ∧ Delivers body f none) :=
    ⟨_, rfl, Or.inr ⟨not_, rfl, rfl, rfl⟩⟩
  rw [fetch]
  split
  · rename_i away
    refine unusable fun usable => ?_
    simp [usable.ready] at away
  · rename_i ready
    split
    · omega
    · split
      · rename_i refused
        exact unusable fun usable => refused usable.connects
      · rename_i connects
        split
        · rename_i unsent
          refine unusable fun usable => ?_
          rcases unsent with long | silent
          · exact absurd usable.sends.1 (Nat.not_lt.mpr long)
          · exact silent usable.sends.2
        · rename_i sends
          split
          · rename_i empty
            exact unusable fun usable => empty usable.allocates
          · rename_i allocates
            rw [not_or] at ready sends
            have usable : Usable q link token pathOverride :=
              ⟨⟨Bool.eq_false_iff.mpr ready.1, not_not.mp ready.2⟩, not_not.mp connects,
                ⟨Nat.lt_of_not_le sends.1, not_not.mp sends.2⟩, not_not.mp allocates⟩
            obtain ⟨f, ran, delivers⟩ := receive_listen link.ending size (stands_start capacity) link.arrivals
            exact ⟨f, ran, Or.inl ⟨usable, delivers⟩⟩

theorem listen_replies {arrivals : List (List UInt8)} {bytes : List UInt8} :
    listen capacity [] arrivals = some bytes ↔ ∃ head rest n, Reply arrivals.flatten head rest ∧
      Acceptable capacity head n ∧ n ≤ rest.length ∧ head.length + 4 + n ≤ capacity + 2047 ∧
        bytes = rest.take n ∧
      Timely head.length [] arrivals := by
  rw [listen_iff rfl, List.nil_append]
  constructor
  · rintro ⟨split, n, whole, timely⟩
    obtain ⟨head, rest, reply, rfl, acceptable, present, room, same⟩ := whole_iff.mp whole
    exact ⟨head, rest, n, reply, acceptable, present, room, same, timely⟩
  · rintro ⟨head, rest, n, reply, acceptable, present, room, same, timely⟩
    exact ⟨head.length, n, whole_iff.mpr ⟨head, rest, reply, rfl, acceptable, present, room, same⟩, timely⟩

/-- A fetch over one link, against the bytes that arrive on it. -/
structure Fetches (q : TailnetQuota) (link : Link) (token : String) (pathOverride : Option String)
    (capacity : Nat) (buffer : List UInt8) (f : Fetched) : Prop where
  succeeds : f.result = true ↔ Usable q link token pathOverride ∧ ∃ head rest n,
    Reply link.arrivals.flatten head rest ∧ Acceptable capacity head n ∧ n ≤ rest.length ∧
      head.length + 4 + n ≤ capacity + 2047 ∧ Timely head.length [] link.arrivals
  body : f.result = true → ∃ head rest n, Reply link.arrivals.flatten head rest ∧ Acceptable capacity head n ∧
    n ≤ rest.length ∧ f.length = n ∧ f.body = rest.take n ++ 0 :: buffer.drop (n + 1) ∧ n < buffer.length
  short : Usable q link token pathOverride → ∀ head rest n, Reply link.arrivals.flatten head rest →
    Acceptable capacity head n → n ≤ rest.length → head.length + 4 ≤ 2048 → f.result = true
  failed : f.result = false → f.length = 0 ∧ f.body = buffer
  segmentation : ∀ arrivals ending, arrivals.flatten = link.arrivals.flatten →
    (∀ head rest, Reply link.arrivals.flatten head rest → head.length + 4 ≤ 2048) →
    ∃ f', fetch q { link with arrivals, ending } token pathOverride capacity buffer = some f' ∧
      f'.result = f.result ∧ f'.length = f.length ∧ f'.body = f.body

theorem Delivers.result {f : Fetched} {o : Option (List UInt8)} (delivers : Delivers body f o) :
    f.result = true ↔ ∃ bytes, o = some bytes := by
  cases o with
  | none =>
    rw [delivers.1]
    exact ⟨nofun, nofun⟩
  | some bytes => exact ⟨fun _ => ⟨bytes, rfl⟩, fun _ => delivers.1⟩

theorem Delivers.same {f f' : Fetched} {o : Option (List UInt8)} (delivers : Delivers body f o)
    (delivers' : Delivers body f' o) : f'.result = f.result ∧ f'.length = f.length ∧ f'.body = f.body := by
  cases o with
  | none =>
    exact ⟨delivers'.1.trans delivers.1.symm, delivers'.2.1.trans delivers.2.1.symm,
      delivers'.2.2.trans delivers.2.2.symm⟩
  | some bytes =>
    exact ⟨delivers'.1.trans delivers.1.symm, delivers'.2.1.trans delivers.2.1.symm,
      delivers'.2.2.trans delivers.2.2.symm⟩

private theorem fetch_replies (size : body.length = capacity) (large : 2 ≤ capacity) :
    ∃ f o, fetch q link token pathOverride capacity body = some f ∧ Delivers body f o ∧
      ∀ bytes, o = some bytes ↔ Usable q link token pathOverride ∧ ∃ head rest n,
        Reply link.arrivals.flatten head rest ∧ Acceptable capacity head n ∧ n ≤ rest.length ∧
        head.length + 4 + n ≤ capacity + 2047 ∧ bytes = rest.take n ∧
        Timely head.length [] link.arrivals := by
  obtain ⟨f, ran, outcome⟩ := @fetch_delivers capacity q link token pathOverride body size large
  rcases outcome with ⟨usable, delivers⟩ | ⟨unusable, delivers⟩
  · refine ⟨f, _, ran, delivers, fun bytes => ?_⟩
    rw [listen_replies]
    exact ⟨fun found => ⟨usable, found⟩, fun found => found.2⟩
  · exact ⟨f, _, ran, delivers, fun bytes => ⟨nofun, fun found => absurd found.1 unusable⟩⟩

theorem fetch_segmentation (q : TailnetQuota) (link : Link) (token : String) (pathOverride : Option String)
    (large : 2 ≤ capacity) (size : body.length = capacity) :
    ∃ f, fetch q link token pathOverride capacity body = some f ∧
      Fetches q link token pathOverride capacity body f := by
  obtain ⟨f, o, ran, delivers, outcome⟩ :=
    @fetch_replies capacity q link token pathOverride body size large
  refine ⟨f, ran, ?_⟩
  have succeeds : f.result = true ↔ Usable q link token pathOverride ∧ ∃ head rest n,
      Reply link.arrivals.flatten head rest ∧ Acceptable capacity head n ∧ n ≤ rest.length ∧
        head.length + 4 + n ≤ capacity + 2047 ∧ Timely head.length [] link.arrivals := by
    rw [delivers.result]
    constructor
    · rintro ⟨bytes, found⟩
      obtain ⟨usable, head, rest, n, reply, acceptable, present, room, _, timely⟩ := (outcome bytes).mp found
      exact ⟨usable, head, rest, n, reply, acceptable, present, room, timely⟩
    · rintro ⟨usable, head, rest, n, reply, acceptable, present, room, timely⟩
      exact ⟨rest.take n, (outcome _).mpr ⟨usable, head, rest, n, reply, acceptable, present, room, rfl, timely⟩⟩
  constructor
  case succeeds => exact succeeds
  case body =>
    intro ok
    obtain ⟨bytes, found⟩ := delivers.result.mp ok
    obtain ⟨_, head, rest, n, reply, acceptable, present, _, same, _⟩ := (outcome bytes).mp found
    rw [found, same] at delivers
    have length : (rest.take n).length = n := by
      rw [List.length_take]
      omega
    have body := delivers.2.2
    rw [length] at body
    exact ⟨head, rest, n, reply, acceptable, present, delivers.2.1.trans length, body, size ▸ acceptable.size.2⟩
  case short =>
    intro usable head rest n reply acceptable present short
    have fits := acceptable.size.2
    exact succeeds.mpr ⟨usable, head, rest, n, reply, acceptable, present, by omega, timely_short short⟩
  case failed =>
    intro failed
    cases o with
    | none => exact delivers.2
    | some bytes => exact absurd (failed.symm.trans delivers.1) nofun
  case segmentation =>
    intro arrivals ending same short
    obtain ⟨f', o', ran', delivers', outcome'⟩ :=
      @fetch_replies capacity q { link with arrivals, ending } token pathOverride body size large
    refine ⟨f', ran', ?_⟩
    have agree : o' = o := by
      apply Option.ext
      intro bytes
      rw [outcome', outcome, show Link.arrivals { link with arrivals, ending } = arrivals from rfl, same]
      constructor
      · rintro ⟨usable, head, rest, n, reply, acceptable, present, room, same, _⟩
        exact ⟨usable.ending ⟨rfl, rfl, rfl⟩, head, rest, n, reply, acceptable, present, room,
          same, timely_short (short _ _ reply)⟩
      · rintro ⟨usable, head, rest, n, reply, acceptable, present, room, same, _⟩
        exact ⟨usable.ending ⟨rfl, rfl, rfl⟩, head, rest, n, reply, acceptable, present, room,
          same, timely_short (short _ _ reply)⟩
    exact delivers.same (agree ▸ delivers')

def quota : TailnetQuota :=
  { pauseRequested := false, connected := true, host := "quota", port := 80, path := "/v1/quota" }

def delivered (arrivals : List (List UInt8)) : Link :=
  { connects := true, sends := true, allocates := true, arrivals, ending := .closed }

/-- A reply of one byte with a head of `padding` more bytes. -/
def reply (padding : Nat) : List UInt8 :=
  ascii "HTTP/1.1 200 OK\r\nContent-Length: 1\r\nX:" ++ List.replicate padding 97 ++ blankLine ++ [120]

theorem fetch_segmentation_cut :
    ∃ f, fetch quota (delivered [(reply 3).take 20, (reply 3).drop 20]) "" none 8 (List.replicate 8 1) = some f ∧
      Fetches quota (delivered [(reply 3).take 20, (reply 3).drop 20]) "" none 8 (List.replicate 8 1) f :=
  fetch_segmentation quota _ "" none (by decide) rfl

/-- A head of more than 2048 bytes is taken in one piece and refused in two. -/
theorem long_head_depends_on_pieces : ¬ ∀ (capacity : Nat) (body : List UInt8)
    (arrivals arrivals' : List (List UInt8)), 2 ≤ capacity → body.length = capacity →
    arrivals.flatten = arrivals'.flatten →
    (fetch quota (delivered arrivals) "" none capacity body).map Fetched.result =
      (fetch quota (delivered arrivals') "" none capacity body).map Fetched.result := by
  intro same
  have differs := same 64 (List.replicate 64 0) [reply 2040] [(reply 2040).take 2060, (reply 2040).drop 2060]
    (by decide) rfl (by decide +kernel)
  exact absurd differs (by decide +kernel)

end Fetches

end Mosaico.Host.TailnetFetch
