import Mosaico.Ble.HidReassembly

/-! `rpcObjectState` recognises the objects and all of their beginnings: what the loop holds says
how the bytes so far have come about, and how they could go on. -/
namespace Mosaico.Ble.HidOutput

def Spaces (bytes : List UInt8) : Prop := ∀ b ∈ bytes, space b = true

def Trailing (bytes : List UInt8) : Prop := ∀ b ∈ bytes, (space b || b == 0) = true

/-- One object, with spaces before it and only spaces or NUL behind. -/
def IsWhole (bytes : List UInt8) : Prop :=
  ∃ lead object trail, Spaces lead ∧ IsObject maxNestingDepth object ∧ Trailing trail ∧
    bytes = lead ++ object ++ trail

section Texts

theorem StringBody.append {a b : List UInt8} (h : StringBody a) (h' : StringBody b) :
    StringBody (a ++ b) := by
  induction h with
  | nil => exact h'
  | char hq hb _ ih => exact .char hq hb ih
  | escape c _ ih => exact .escape c ih

theorem Text.append {d : Nat} {a b : List UInt8} (h : Text d a) (h' : Text d b) :
    Text d (a ++ b) := by
  induction h with
  | nil => exact h'
  | plain hc _ ih => exact .plain hc (ih h')
  | string hb _ ih =>
    rw [List.cons_append, List.append_assoc, List.cons_append]
    exact .string hb (ih h')
  | object hi _ _ ih =>
    rw [List.cons_append, List.append_assoc, List.cons_append]
    exact .object hi (ih h')
  | array hi _ _ ih =>
    rw [List.cons_append, List.append_assoc, List.cons_append]
    exact .array hi (ih h')

end Texts

/-- The bytes before a closer that is still due: brackets that are open, each with a text that
fits below it. The closers are listed innermost first. -/
inductive Opened : List UInt8 → List UInt8 → Prop
  | first {lead text : List UInt8} (spaces : Spaces lead) (inner : Text (maxNestingDepth - 1) text) :
      Opened [closeBrace] (lead ++ openBrace :: text)
  | brace {closers before text : List UInt8} (outer : Opened closers before)
      (room : closers.length < maxNestingDepth)
      (inner : Text (maxNestingDepth - (closers.length + 1)) text) :
      Opened (closeBrace :: closers) (before ++ openBrace :: text)
  | bracket {closers before text : List UInt8} (outer : Opened closers before)
      (room : closers.length < maxNestingDepth)
      (inner : Text (maxNestingDepth - (closers.length + 1)) text) :
      Opened (closeBracket :: closers) (before ++ openBracket :: text)

section Opened

variable {closers before : List UInt8}

/-- The innermost text goes on. -/
theorem Opened.more {text : List UInt8} (h : Opened closers before)
    (ht : Text (maxNestingDepth - closers.length) text) : Opened closers (before ++ text) := by
  cases h with
  | first spaces inner =>
    rw [List.append_assoc, List.cons_append]
    exact .first spaces (inner.append ht)
  | brace outer room inner =>
    rw [List.append_assoc, List.cons_append]
    exact .brace outer room (inner.append ht)
  | bracket outer room inner =>
    rw [List.append_assoc, List.cons_append]
    exact .bracket outer room (inner.append ht)

theorem Opened.closers_ne (h : Opened closers before) : closers ≠ [] := by
  cases h <;> exact List.cons_ne_nil _ _

theorem Opened.room (h : Opened closers before) : closers.length ≤ maxNestingDepth := by
  cases h with
  | first => decide
  | brace _ room => exact room
  | bracket _ room => exact room

theorem Opened.isCloser (h : Opened closers before) :
    ∀ c ∈ closers, c = closeBrace ∨ c = closeBracket := by
  induction h with
  | first =>
    intro c hc
    exact .inl (List.mem_singleton.mp hc)
  | brace _ _ _ ih =>
    intro c hc
    rcases List.mem_cons.mp hc with rfl | inner
    · exact .inl rfl
    · exact ih c inner
  | bracket _ _ _ ih =>
    intro c hc
    rcases List.mem_cons.mp hc with rfl | inner
    · exact .inr rfl
    · exact ih c inner

/-- The closers, one after the other, end the object. -/
theorem scan_closers (isCloser : ∀ c ∈ closers, c = closeBrace ∨ c = closeBracket)
    (some_ : closers ≠ []) : scan (.inside closers false false) closers = .done := by
  induction closers with
  | nil => exact absurd rfl some_
  | cons c rest ih =>
    rw [scan_cons, scanByte, outside_closer (isCloser c List.mem_cons_self), closeWith,
      if_neg (not_not.mpr rfl)]
    by_cases last : rest = []
    · rw [if_pos last, last, scan_nil]
    · rw [if_neg last]
      exact ih (fun d hd => isCloser d (List.mem_cons_of_mem _ hd)) last

end Opened

/-- How the bytes so far have come about. -/
def Reads (bytes : List UInt8) : Scan → Prop
  | .waiting => Spaces bytes
  | .inside closers false _ => Opened closers bytes
  | .inside closers true false =>
    ∃ before body, bytes = before ++ quote :: body ∧ Opened closers before ∧ StringBody body
  | .inside closers true true =>
    ∃ before body, bytes = before ++ quote :: (body ++ [backslash]) ∧ Opened closers before ∧
      StringBody body
  | .done => IsWhole bytes
  | .invalid => True

section Step

variable {bytes closers : List UInt8} {c : UInt8}

private theorem spaces_snoc (h : Spaces bytes) (hc : space c = true) : Spaces (bytes ++ [c]) := by
  intro b hb
  rcases List.mem_append.mp hb with earlier | last
  · exact h b earlier
  · rwa [List.mem_singleton.mp last]

theorem reads_waiting (h : Spaces bytes) : Reads (bytes ++ [c]) (scanByte .waiting c) := by
  rw [scanByte]
  split
  · rename_i hc
    exact spaces_snoc h hc
  · split
    · trivial
    · rename_i opens
      rw [not_not.mp opens]
      exact .first h (.nil _)

theorem reads_string {escaped : Bool} (h : Reads bytes (.inside closers true escaped)) :
    Reads (bytes ++ [c]) (inString closers escaped c) := by
  cases escaped with
  | true =>
    obtain ⟨before, body, rfl, opened, string⟩ := h
    refine ⟨before, body ++ [backslash, c], ?_, opened, string.append (.escape c .nil)⟩
    simp
  | false =>
    obtain ⟨before, body, rfl, opened, string⟩ := h
    rw [inString, if_neg Bool.false_ne_true]
    split
    · rename_i escape
      refine ⟨before, body, ?_, opened, string⟩
      simp [escape]
    split
    · rename_i ends
      have whole : Opened closers (before ++ quote :: (body ++ quote :: [])) :=
        opened.more (.string string (.nil _))
      rw [ends, List.append_assoc, List.cons_append]
      exact whole
    · rename_i plain notQuote
      refine ⟨before, body ++ [c], ?_, opened, string.append (.char notQuote plain .nil)⟩
      simp

private theorem reads_open (h : Opened closers bytes) (hc : c = openBrace ∨ c = openBracket) :
    Reads (bytes ++ [c]) (outside closers c) := by
  have room := h.room
  rcases hc with rfl | rfl
  · rw [outside_openBrace, openWith]
    split
    · trivial
    · exact .brace h (by omega) (.nil _)
  · rw [outside_openBracket, openWith]
    split
    · trivial
    · exact .bracket h (by omega) (.nil _)

/-- A bracket that is closed becomes part of the text around it. -/
theorem reads_close (h : Opened closers bytes) (hc : c = closeBrace ∨ c = closeBracket) :
    Reads (bytes ++ [c]) (outside closers c) := by
  rw [outside_closer hc]
  cases h with
  | @first lead text spaces inner =>
    rw [closeWith]
    split
    · trivial
    · rename_i same
      rw [if_pos rfl, ← not_not.mp same]
      exact ⟨lead, openBrace :: (text ++ [closeBrace]), [], spaces, ⟨text, inner, rfl⟩,
        fun _ hb => absurd hb List.not_mem_nil, by simp⟩
  | @brace closers before text outer room inner =>
    rw [closeWith]
    split
    · trivial
    · rename_i same
      have depth : maxNestingDepth - (closers.length + 1) + 1 = maxNestingDepth - closers.length := by
        omega
      have closed : Text (maxNestingDepth - closers.length)
          (openBrace :: (text ++ closeBrace :: [])) := by
        rw [← depth]
        exact .object inner (.nil _)
      rw [if_neg outer.closers_ne, ← not_not.mp same, List.append_assoc, List.cons_append]
      exact outer.more closed
  | @bracket closers before text outer room inner =>
    rw [closeWith]
    split
    · trivial
    · rename_i same
      have depth : maxNestingDepth - (closers.length + 1) + 1 = maxNestingDepth - closers.length := by
        omega
      have closed : Text (maxNestingDepth - closers.length)
          (openBracket :: (text ++ closeBracket :: [])) := by
        rw [← depth]
        exact .array inner (.nil _)
      rw [if_neg outer.closers_ne, ← not_not.mp same, List.append_assoc, List.cons_append]
      exact outer.more closed

private theorem reads_outside (h : Opened closers bytes) : Reads (bytes ++ [c]) (outside closers c) := by
  by_cases isQuote : c = quote
  · rw [isQuote, outside_quote]
    exact ⟨bytes, [], rfl, h, .nil⟩
  by_cases opens : c = openBrace ∨ c = openBracket
  · exact reads_open h opens
  by_cases closes : c = closeBrace ∨ c = closeBracket
  · exact reads_close h closes
  · obtain ⟨notBrace, notBracket⟩ := not_or.mp opens
    obtain ⟨notClose, notCloses⟩ := not_or.mp closes
    rw [outside, if_neg isQuote, if_neg notBrace, if_neg notBracket, if_neg closes]
    exact h.more (.plain ⟨isQuote, notBrace, notClose, notBracket, notCloses⟩ (.nil _))

private theorem reads_done (h : IsWhole bytes) : Reads (bytes ++ [c]) (scanByte .done c) := by
  rw [scanByte]
  split
  · rename_i trailing
    obtain ⟨lead, object, trail, spaces, isObject, trails, rfl⟩ := h
    refine ⟨lead, object, trail ++ [c], spaces, isObject, fun b hb => ?_, List.append_assoc _ _ _⟩
    rcases List.mem_append.mp hb with earlier | last
    · exact trails b earlier
    · rwa [List.mem_singleton.mp last]
  · trivial

theorem reads_step {state : Scan} (h : Reads bytes state) (c : UInt8) :
    Reads (bytes ++ [c]) (scanByte state c) := by
  match state with
  | .waiting => exact reads_waiting h
  | .inside closers true escaped => exact reads_string h
  | .inside closers false escaped => exact reads_outside h
  | .done => exact reads_done h
  | .invalid => trivial

end Step

theorem reads_scan (bytes : List UInt8) : Reads bytes (scan .waiting bytes) := by
  induction bytes using List.reverseRecOn with
  | nil => exact nofun
  | append_singleton bytes c ih =>
    rw [scan_append]
    exact reads_step ih c

section Whole

variable {bytes : List UInt8}

private theorem scan_spaces (h : Spaces bytes) : scan .waiting bytes = .waiting := by
  induction bytes with
  | nil => rfl
  | cons c rest ih =>
    rw [scan_cons, scanByte, if_pos (h c List.mem_cons_self)]
    exact ih fun b hb => h b (List.mem_cons_of_mem _ hb)

private theorem scan_trailing (h : Trailing bytes) : scan .done bytes = .done := by
  induction bytes with
  | nil => rfl
  | cons c rest ih =>
    rw [scan_cons, scanByte, if_pos (h c List.mem_cons_self)]
    exact ih fun b hb => h b (List.mem_cons_of_mem _ hb)

theorem scan_done_iff : scan .waiting bytes = .done ↔ IsWhole bytes := by
  constructor
  · intro done
    have reads := reads_scan bytes
    rwa [done] at reads
  · rintro ⟨lead, object, trail, spaces, isObject, trails, rfl⟩
    rw [scan_append, scan_append, scan_spaces spaces, scan_object isObject, scan_trailing trails]

/-- What is not broken can be completed. -/
theorem completed {state : Scan} (h : Reads bytes state) (live : state ≠ .invalid) :
    ∃ rest, scan state rest = .done := by
  match state with
  | .waiting => exact ⟨[openBrace, closeBrace], by decide⟩
  | .inside closers false escaped =>
    have opened : Opened closers bytes := h
    refine ⟨closers, ?_⟩
    have first : scan (.inside closers false escaped) closers =
        scan (.inside closers false false) closers := by
      cases closers with
      | nil => exact absurd rfl opened.closers_ne
      | cons c rest => rfl
    rw [first, scan_closers opened.isCloser opened.closers_ne]
  | .inside closers true false =>
    obtain ⟨before, body, -, opened, -⟩ := h
    refine ⟨quote :: closers, ?_⟩
    rw [scan_cons, scanByte, inString_quote, scan_closers opened.isCloser opened.closers_ne]
  | .inside closers true true =>
    obtain ⟨before, body, -, opened, -⟩ := h
    have escaped : inString closers true quote = .inside closers true false := if_pos rfl
    refine ⟨quote :: quote :: closers, ?_⟩
    rw [scan_cons, scanByte, escaped, scan_cons, scanByte, inString_quote,
      scan_closers opened.isCloser opened.closers_ne]
  | .done => exact ⟨[], rfl⟩
  | .invalid => exact absurd rfl live

theorem scan_live_iff : scan .waiting bytes ≠ .invalid ↔ ∃ rest, IsWhole (bytes ++ rest) := by
  constructor
  · intro live
    obtain ⟨rest, done⟩ := completed (reads_scan bytes) live
    exact ⟨rest, scan_done_iff.mp (by rw [scan_append, done])⟩
  · rintro ⟨rest, whole⟩ invalid
    have done := scan_done_iff.mpr whole
    rw [scan_append, invalid, scan_invalid] at done
    cases done

end Whole

/-- `complete` is one whole object, `incomplete` the beginning of one, `invalid` neither. -/
theorem rpcObjectState_classifies (bytes : List UInt8) :
    (rpcObjectState bytes = .complete ↔ IsWhole bytes) ∧
      (rpcObjectState bytes = .incomplete ↔
        ¬ IsWhole bytes ∧ ∃ rest, IsWhole (bytes ++ rest)) ∧
      (rpcObjectState bytes = .invalid ↔
        ¬ IsWhole bytes ∧ ¬ ∃ rest, IsWhole (bytes ++ rest)) := by
  rw [← scan_live_iff, ← scan_done_iff]
  rw [rpcObjectState_eq]
  cases scan .waiting bytes <;> simp [stateOf]

end Mosaico.Ble.HidOutput
