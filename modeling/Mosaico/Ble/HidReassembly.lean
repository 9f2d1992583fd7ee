import Mosaico.Ble.HidOutput

/-! A message cut into fragments is dispatched once and whole, whatever the cuts and
whatever usage frames come in between, as long as no later fragment looks like a new
message. -/
namespace Mosaico.Ble.HidOutput

/-- The inside of a string literal. -/
inductive StringBody : List UInt8 → Prop
  | nil : StringBody []
  | char {c : UInt8} {s : List UInt8} (hq : c ≠ quote) (hb : c ≠ backslash)
      (rest : StringBody s) : StringBody (c :: s)
  | escape (c : UInt8) {s : List UInt8} (rest : StringBody s) : StringBody (backslash :: c :: s)

/-- What may stand between brackets with at most `d` levels of brackets in it: strings,
bracketed texts and any other bytes. The inside of every JSON object or array is one. -/
inductive Text : Nat → List UInt8 → Prop
  | nil (d : Nat) : Text d []
  | plain {d : Nat} {c : UInt8} {s : List UInt8}
      (hc : c ≠ quote ∧ c ≠ openBrace ∧ c ≠ closeBrace ∧ c ≠ openBracket ∧ c ≠ closeBracket)
      (rest : Text d s) : Text d (c :: s)
  | string {d : Nat} {body s : List UInt8} (hb : StringBody body) (rest : Text d s) :
      Text d (quote :: (body ++ quote :: s))
  | object {d : Nat} {inner s : List UInt8} (hi : Text d inner) (rest : Text (d + 1) s) :
      Text (d + 1) (openBrace :: (inner ++ closeBrace :: s))
  | array {d : Nat} {inner s : List UInt8} (hi : Text d inner) (rest : Text (d + 1) s) :
      Text (d + 1) (openBracket :: (inner ++ closeBracket :: s))

/-- An object whose brackets nest at most `d` deep. -/
def IsObject (d : Nat) (m : List UInt8) : Prop :=
  ∃ inner, Text (d - 1) inner ∧ m = openBrace :: (inner ++ [closeBrace])

def scan (s : Scan) (bytes : List UInt8) : Scan := bytes.foldl scanByte s

@[simp] theorem scan_nil (s : Scan) : scan s [] = s := rfl

@[simp] theorem scan_cons (s : Scan) (c : UInt8) (bytes : List UInt8) :
    scan s (c :: bytes) = scan (scanByte s c) bytes := rfl

theorem scan_append (s : Scan) (xs ys : List UInt8) :
    scan s (xs ++ ys) = scan (scan s xs) ys := List.foldl_append

theorem outside_quote (closers : List UInt8) :
    outside closers quote = .inside closers true false := if_pos rfl

theorem outside_openBrace (closers : List UInt8) :
    outside closers openBrace = openWith closers closeBrace := by
  rw [outside, if_neg (by decide), if_pos rfl]

theorem outside_openBracket (closers : List UInt8) :
    outside closers openBracket = openWith closers closeBracket := by
  rw [outside, if_neg (by decide), if_neg (by decide), if_pos rfl]

theorem outside_closer {c : UInt8} (hc : c = closeBrace ∨ c = closeBracket)
    (closers : List UInt8) : outside closers c = closeWith closers c := by
  cases hc with
  | inl hc => subst hc; rw [outside, if_neg (by decide), if_neg (by decide), if_neg (by decide)]; rfl
  | inr hc => subst hc; rw [outside, if_neg (by decide), if_neg (by decide), if_neg (by decide)]; rfl

theorem inString_quote (closers : List UInt8) :
    inString closers false quote = .inside closers false false := by
  rw [inString, if_neg (by decide), if_neg (by decide), if_pos rfl]

private theorem scan_string {body : List UInt8} (h : StringBody body) (closers : List UInt8) :
    scan (.inside closers true false) body = .inside closers true false := by
  induction h with
  | nil => rfl
  | char hq hb _ ih => simpa [scanByte, inString, hq, hb] using ih
  | escape c _ ih => simpa [scanByte, inString] using ih

/-- A text leaves the loop where it was, if its brackets fit on the stack. -/
theorem scan_text {d : Nat} {t : List UInt8} (h : Text d t) (closers : List UInt8)
    (room : closers.length + d ≤ maxNestingDepth) (inner : closers ≠ []) :
    scan (.inside closers false false) t = .inside closers false false := by
  induction h generalizing closers with
  | nil => rfl
  | plain hc _ ih =>
    obtain ⟨hq, ho, hcl, hob, hcb⟩ := hc
    simpa [scanByte, outside, hq, ho, hcl, hob, hcb] using ih closers room inner
  | string hb _ ih =>
    rw [scan_cons, scanByte, outside_quote, scan_append, scan_string hb, scan_cons, scanByte,
      inString_quote]
    exact ih closers room inner
  | object _ _ ihInner ih =>
    rw [scan_cons, scanByte, outside_openBrace, openWith, if_neg (by omega), scan_append,
      ihInner _ (by simp only [List.length_cons]; omega) (by simp), scan_cons, scanByte,
      outside_closer (.inl rfl)]
    simpa [closeWith, inner] using ih closers room inner
  | array _ _ ihInner ih =>
    rw [scan_cons, scanByte, outside_openBracket, openWith, if_neg (by omega), scan_append,
      ihInner _ (by simp only [List.length_cons]; omega) (by simp), scan_cons, scanByte,
      outside_closer (.inr rfl)]
    simpa [closeWith, inner] using ih closers room inner

theorem scan_object {m : List UInt8} (h : IsObject maxNestingDepth m) :
    scan .waiting m = .done := by
  obtain ⟨inner, text, rfl⟩ := h
  have opened : scanByte .waiting openBrace = .inside [closeBrace] false false := by decide
  have closed : scanByte (.inside [closeBrace] false false) closeBrace = .done := by decide
  rw [scan_cons, opened, scan_append, scan_text text _ (by decide) (by decide), scan_cons, closed]
  rfl

theorem scan_invalid (bytes : List UInt8) : scan .invalid bytes = .invalid := by
  induction bytes with
  | nil => rfl
  | cons c rest ih => exact ih

/-- Once the object is over, a closing brace can only break it. -/
theorem scan_done_ne (bytes : List UInt8) (c : UInt8) (hc : c = closeBrace) :
    scan .done (bytes ++ [c]) ≠ .done := by
  induction bytes with
  | nil => subst hc; decide
  | cons b rest ih =>
    by_cases trailing : (space b || b == 0) = true
    · simpa [scanByte, trailing] using ih
    · have broken : scanByte .done b = .invalid := by simp [scanByte, trailing]
      rw [List.cons_append, scan_cons, broken, scan_invalid]
      decide

/-- What `rpcObjectState` says of the state that the scan ends in. -/
def stateOf : Scan → RpcObjectState
  | .done => .complete
  | .invalid => .invalid
  | _ => .incomplete

theorem rpcObjectState_eq (bytes : List UInt8) : rpcObjectState bytes = stateOf (scan .waiting bytes) := rfl

/-- No proper beginning of an object is complete or broken. -/
theorem scan_beginning {m p q : List UInt8} (h : IsObject maxNestingDepth m) (split : m = p ++ q)
    (proper : q ≠ []) : rpcObjectState p = .incomplete := by
  have whole := scan_object h
  rw [split, scan_append] at whole
  have last : ∃ bytes, q = bytes ++ [closeBrace] := by
    obtain ⟨inner, -, rfl⟩ := h
    have ends : (p ++ q).getLast? = some closeBrace := by
      rw [← split, ← List.cons_append, List.getLast?_append]
      rfl
    rw [List.getLast?_append_of_ne_nil _ proper] at ends
    obtain ⟨bytes, rfl⟩ := List.getLast?_eq_some_iff.mp ends
    exact ⟨bytes, rfl⟩
  obtain ⟨bytes, rfl⟩ := last
  rw [rpcObjectState_eq]
  cases state : scan .waiting p with
  | done =>
    rw [state] at whole
    exact absurd whole (scan_done_ne bytes _ rfl)
  | invalid =>
    rw [state, scan_invalid] at whole
    cases whole
  | waiting => rfl
  | inside closers s e => rfl

theorem complete_object {m : List UInt8} (h : IsObject maxNestingDepth m) :
    rpcObjectState m = .complete := by
  have whole := scan_object h
  rw [rpcObjectState_eq, whole]
  rfl

/-! ## Delivering a message -/

/-- One fragment as its report: the report id may have been stripped, and the report may
be padded. -/
structure Fragment where
  bytes : List UInt8
  withId : Bool := false
  padding : List UInt8 := []
  nowUs : Nat := 0
  queued : Bool := true

def Fragment.report (f : Fragment) : Report :=
  { data := some ((if f.withId then [reportId] else []) ++
      2 :: UInt8.ofNat f.bytes.length :: (f.bytes ++ f.padding))
    nowUs := f.nowUs
    queued := f.queued }

/-- Any report with the usage marker, accepted or not. -/
structure UsageReport where
  data : List UInt8
  nowUs : Nat := 0
  marked : isWirelessUsage data = true

inductive Event where
  | fragment (f : Fragment)
  | usage (u : UsageReport)

def receive (rx : Receiver) : Event → Receiver
  | .fragment f => onOutput rx f.report
  | .usage u => onOutput rx { data := some u.data, nowUs := u.nowUs }

def received : List Event → List UInt8
  | [] => []
  | .fragment f :: rest => f.bytes ++ received rest
  | .usage _ :: rest => received rest

/-- After the first bytes, no fragment begins like a message of its own. -/
def NoRestart : List UInt8 → List Event → Prop
  | _, [] => True
  | sofar, .fragment f :: rest =>
    (sofar = [] ∨ startsTopLevel f.bytes = false) ∧ NoRestart (sofar ++ f.bytes) rest
  | sofar, .usage _ :: rest => NoRestart sofar rest

theorem onOutput_fragment (rx : Receiver) (f : Fragment) (fits : f.bytes.length ≤ payloadSize) :
    onOutput rx f.report =
      onPayload { rx with rxReports := rx.rxReports + 1 } f.bytes f.queued := by
  have length : (UInt8.ofNat f.bytes.length).toNat = f.bytes.length := by
    rw [UInt8.toNat_ofNat']
    apply Nat.mod_eq_of_lt
    change f.bytes.length ≤ 61 at fits
    omega
  have short : ¬ payloadSize < f.bytes.length := Nat.not_lt.mpr fits
  have noId : (2 : UInt8) ≠ reportId := by decide
  have noMarker : (2 : UInt8) ≠ wirelessUsageMarker := by decide
  have idNoMarker : reportId ≠ wirelessUsageMarker := by decide
  cases id : f.withId with
  | false =>
    have plain : isWirelessUsage (2 :: UInt8.ofNat f.bytes.length :: (f.bytes ++ f.padding)) =
        false := by
      simp [isWirelessUsage, wirelessOffset, noId, noMarker]
    simp only [onOutput, Fragment.report, id, Bool.false_eq_true, ↓reduceIte, List.nil_append, plain,
      List.length_cons, List.length_append, onRpcReport, Nat.reduceLeDiff, List.getD_eq_getElem?_getD,
      Nat.lt_add_left_iff_pos, Nat.zero_lt_succ, getElem?_pos, List.getElem_cons_zero,
      Option.getD_some, noId, and_false, zero_add, ne_eq, not_true_eq_false, or_false,
      List.getElem_cons_succ, length, short, List.drop_succ_cons, List.drop_zero, List.take_left']
    rw [if_neg (by omega), if_neg (by omega), if_neg (by omega)]
  | true =>
    have plain : isWirelessUsage
        (reportId :: 2 :: UInt8.ofNat f.bytes.length :: (f.bytes ++ f.padding)) = false := by
      simp [isWirelessUsage, wirelessOffset, noMarker, idNoMarker]
    simp only [onOutput, Fragment.report, id, ↓reduceIte, List.cons_append, List.nil_append, plain,
      Bool.false_eq_true, List.length_cons, List.length_append, onRpcReport, Nat.le_add_left,
      List.getD_eq_getElem?_getD, Nat.lt_add_left_iff_pos, Nat.zero_lt_succ, getElem?_pos,
      List.getElem_cons_zero, Option.getD_some, and_self, Nat.reduceAdd, List.getElem_cons_succ, ne_eq,
      not_true_eq_false, or_false, length, short, List.drop_succ_cons, List.drop_zero, List.take_left']
    rw [if_neg (by omega), if_neg (by omega), if_neg (by omega)]

theorem onUsage_kept (rx : Receiver) (data : List UInt8) (nowUs : Nat) :
    (onUsage rx data nowUs).rpcBuffer = rx.rpcBuffer ∧
      (onUsage rx data nowUs).dispatched = rx.dispatched := by
  unfold onUsage
  split
  · exact ⟨rfl, rfl⟩
  · split <;> exact ⟨rfl, rfl⟩

theorem receive_usage (rx : Receiver) (u : UsageReport) :
    (receive rx (.usage u)).rpcBuffer = rx.rpcBuffer ∧
      (receive rx (.usage u)).dispatched = rx.dispatched := by
  simp only [receive, onOutput, u.marked, if_true]
  exact onUsage_kept _ _ _

/-- The receiver holds the bytes so far, or has dispatched the message they make up. -/
def Holds (before : List (List UInt8)) (message sofar : List UInt8) (rx : Receiver) : Prop :=
  if sofar = message then rx.rpcBuffer = [] ∧ rx.dispatched = before ++ [message]
  else rx.rpcBuffer = sofar ∧ rx.dispatched = before

theorem classify_holds {message sofar : List UInt8} {before : List (List UInt8)} {rx : Receiver}
    {queued : Bool} (whole : IsObject maxNestingDepth message) (rest : List UInt8)
    (split : message = sofar ++ rest) (buffer : rx.rpcBuffer = sofar)
    (sent : rx.dispatched = before) : Holds before message sofar (classify rx queued) := by
  by_cases last : rest = []
  · have same : sofar = message := by simp [split, last]
    have state : rpcObjectState rx.rpcBuffer = .complete := by
      rw [buffer, same]
      exact complete_object whole
    simp only [Holds, classify, state, same, if_true]
    cases queued <;> simp [rpcError, buffer, sent, same]
  · have proper : sofar ≠ message := by
      intro same
      apply last
      simpa [same] using split
    have state : rpcObjectState rx.rpcBuffer = .incomplete := by
      rw [buffer]
      exact scan_beginning whole split last
    simp only [Holds, classify, state, proper, if_false]
    exact ⟨buffer, sent⟩

theorem object_ne_nil {d : Nat} {m : List UInt8} (h : IsObject d m) : m ≠ [] := by
  obtain ⟨inner, -, rfl⟩ := h
  simp

/-- The beginning of an object is not skipped over. -/
private theorem dropWhile_beginning {d : Nat} {m f rest : List UInt8} (h : IsObject d m)
    (split : m = f ++ rest) : f.dropWhile (· != openBrace) = f := by
  obtain ⟨inner, -, rfl⟩ := h
  cases f with
  | nil => rfl
  | cons c cs =>
    rw [List.cons_append, List.cons.injEq] at split
    simp [← split.1]

theorem onPayload_holds {message sofar : List UInt8} {before : List (List UInt8)} {rx : Receiver}
    {queued : Bool} (whole : IsObject maxNestingDepth message)
    (size : message.length ≤ maxRpcBufferSize) (f rest : List UInt8)
    (split : message = sofar ++ (f ++ rest)) (held : Holds before message sofar rx)
    (quiet : sofar = [] ∨ startsTopLevel f = false) :
    Holds before message (sofar ++ f) (onPayload rx f queued) := by
  by_cases whole_ : sofar = message
  · have none_ : f = [] := by
      simp only [whole_, List.self_eq_append_right, List.append_eq_nil_iff] at split
      exact split.1
    subst none_
    simp only [Holds, whole_, if_true] at held
    simp [Holds, whole_, onPayload, held, startsTopLevel, topLevelPrefix]
  · simp only [Holds, whole_, if_false] at held
    obtain ⟨buffer, sent⟩ := held
    have kept : (if startsTopLevel f then [] else rx.rpcBuffer) = sofar := by
      cases quiet with
      | inl first => simp [buffer, first]
      | inr other => simp [other, buffer]
    have room : ¬ maxRpcBufferSize < sofar.length + f.length := by
      have := congrArg List.length split
      simp only [List.length_append] at this
      omega
    simp only [onPayload, kept, room, if_false]
    by_cases first : sofar = []
    · subst first
      have kept_ := dropWhile_beginning whole (by simpa using split)
      by_cases none_ : f = []
      · simp [none_, Holds, Ne.symm (object_ne_nil whole), sent]
      · simp only [kept_, none_, and_false, if_false, appended, if_true]
        exact classify_holds whole rest (by simpa using split) (by simp) sent
    · simp only [first, false_and, if_false, appended]
      exact classify_holds whole rest (by simpa using split) rfl sent

theorem receive_holds {message : List UInt8} {before : List (List UInt8)}
    (whole : IsObject maxNestingDepth message) (size : message.length ≤ maxRpcBufferSize)
    (events : List Event) (sofar : List UInt8) (rx : Receiver)
    (split : message = sofar ++ received events)
    (fits : ∀ f, Event.fragment f ∈ events → f.bytes.length ≤ payloadSize)
    (quiet : NoRestart sofar events) (held : Holds before message sofar rx) :
    Holds before message message (events.foldl receive rx) := by
  induction events generalizing sofar rx with
  | nil =>
    have same : sofar = message := by simpa [received] using split.symm
    simpa [same] using held
  | cons e rest ih =>
    have fitsRest : ∀ f, Event.fragment f ∈ rest → f.bytes.length ≤ payloadSize :=
      fun f hf => fits f (List.mem_cons_of_mem _ hf)
    cases e with
    | fragment f =>
      have step : Holds before message (sofar ++ f.bytes) (receive rx (.fragment f)) := by
        rw [receive, onOutput_fragment rx f (fits f List.mem_cons_self)]
        exact onPayload_holds whole size f.bytes _ split held quiet.1
      exact ih (sofar ++ f.bytes) _ (by simpa [received] using split) fitsRest quiet.2 step
    | usage u =>
      have step : Holds before message sofar (receive rx (.usage u)) := by
        obtain ⟨buffer, sent⟩ := receive_usage rx u
        simpa only [Holds, buffer, sent] using held
      exact ih sofar _ split fitsRest quiet step

/-- A message that is one object, cut into fragments of which none begins like a message of its
own, with any usage reports among them: from an empty buffer it is dispatched exactly once, and
the buffer is empty. -/
theorem dispatched_once (message : List UInt8) (events : List Event) (rx : Receiver)
    (whole : IsObject maxNestingDepth message) (size : message.length ≤ maxRpcBufferSize)
    (cut : received events = message)
    (fits : ∀ f, Event.fragment f ∈ events → f.bytes.length ≤ payloadSize)
    (quiet : NoRestart [] events) :
    (events.foldl receive { rx with rpcBuffer := [] }).dispatched = rx.dispatched ++ [message] ∧
      (events.foldl receive { rx with rpcBuffer := [] }).rpcBuffer = [] := by
  have start : Holds rx.dispatched message [] { rx with rpcBuffer := [] } := by
    simp [Holds, Ne.symm (object_ne_nil whole)]
  have finish := receive_holds whole size events [] _ (by simp [cut]) fits quiet start
  simp only [Holds, if_true] at finish
  exact ⟨finish.2, finish.1⟩

def nestedMethod : List UInt8 := topLevelPrefix ++ [58] ++ (topLevelPrefix ++ [58, 49, 125, 125])

def nestedMethodCut : List Event :=
  [.fragment { bytes := topLevelPrefix ++ [58] },
    .fragment { bytes := topLevelPrefix ++ [58, 49, 125, 125] }]

theorem nestedMethod_object : IsObject maxNestingDepth nestedMethod := by
  have name : StringBody [109, 101, 116, 104, 111, 100] := by
    repeat apply StringBody.char (by decide) (by decide)
    exact .nil
  have number : Text 30 [58, 49] :=
    .plain (by decide) (.plain (by decide) (.nil 30))
  have inner : Text 31 (openBrace :: (quote :: ([109, 101, 116, 104, 111, 100] ++
      quote :: [58, 49]) ++ closeBrace :: [])) :=
    .object (.string name number) (.nil 31)
  exact ⟨_, .string name (.plain (by decide) inner), rfl⟩

def usageReport : UsageReport where
  data := [0xA5, 1, 1, 0, 0, 0, 0x88, 0x13, 0, 0x94, 0x35, 0x77, 0, 0xB3, 0x3F, 0x71, 3,
    0x7B, 0xDD, 0x6F, 0x5F]
  marked := by decide

/-- The same message in three fragments, one with its report id and one padded, with a usage frame
before each of the later ones. -/
def nestedMethodWhole : List Event :=
  [.fragment { bytes := topLevelPrefix ++ [58, 123], withId := true }, .usage usageReport,
    .fragment { bytes := topLevelPrefix.tail, padding := [0, 0] }, .usage usageReport,
    .fragment { bytes := [58, 49, 125, 125] }]

theorem dispatched_once_nested :
    (nestedMethodWhole.foldl receive {}).dispatched = [nestedMethod] ∧
      (nestedMethodWhole.foldl receive {}).rpcBuffer = [] := by
  have fits : ∀ f, Event.fragment f ∈ nestedMethodWhole → f.bytes.length ≤ payloadSize := by
    intro f hf
    simp only [nestedMethodWhole, List.mem_cons, Event.fragment.injEq, List.not_mem_nil, reduceCtorEq,
      or_false, false_or] at hf
    rcases hf with rfl | rfl | rfl <;> decide
  have quiet : NoRestart [] nestedMethodWhole :=
    ⟨.inl rfl, .inr (by decide), .inr (by decide), trivial⟩
  exact dispatched_once nestedMethod nestedMethodWhole {} nestedMethod_object (by decide) (by decide)
    fits quiet

/-- Cut right before the inner object the message is lost. -/
theorem nestedMethod_lost :
    IsObject maxNestingDepth nestedMethod ∧ topLevelPrefix <+: nestedMethod ∧
      received nestedMethodCut = nestedMethod ∧
      (nestedMethodCut.foldl receive {}).dispatched = [] := by
  exact ⟨nestedMethod_object, by decide, by decide, by decide⟩

end Mosaico.Ble.HidOutput
