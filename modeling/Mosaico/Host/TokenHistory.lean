import Mosaico.Library.FreshRegister
import Mosaico.Host.TokenHistoryModel
import Mathlib.Data.List.Induction
import Mathlib.Order.WithBot
import Mathlib.Data.Nat.Cast.WithTop

/-! The token history as two registers, one of the token counts and one of the trend: each holds
what one payload brought, and gives it up only for something at least as fresh. -/
namespace Mosaico.Host.TokenHistory

open FreshRegister

/-- What of a snapshot goes together as the token counts. -/
structure Tokens where
  days : List Cell
  hours : List Cell
  capturedEpoch : Nat
  ageSecondsAtReceipt : Nat
  receivedAtMs : UInt32
  available : Bool
  tokenAvailable : Bool
  timezoneOffsetMinutes : Int

def Snapshot.tokens (s : Snapshot) : Tokens where
  days := s.days
  hours := s.hours
  capturedEpoch := s.capturedEpoch
  ageSecondsAtReceipt := s.ageSecondsAtReceipt
  receivedAtMs := s.receivedAtMs
  available := s.available
  tokenAvailable := s.tokenAvailable
  timezoneOffsetMinutes := s.timezoneOffsetMinutes

def Tokens.rank (t : Tokens) : WithBot Nat := if t.tokenAvailable then t.capturedEpoch else ⊥

def Tokens.untimed (t : Tokens) : Tokens := { t with receivedAtMs := 0 }

def QuotaTrend.untimed (t : QuotaTrend) : QuotaTrend := { t with receivedAtMs := 0 }

def Snapshot.untimed (s : Snapshot) : Tokens × QuotaTrend := (s.tokens.untimed, s.quotaTrend.untimed)

section Merge

variable {p q : Parsed} {current : Option Snapshot}

theorem Tokens.rank_lt {s t : Tokens} : t.rank < s.rank ↔ s.tokenAvailable = true ∧
    (t.tokenAvailable = false ∨ t.capturedEpoch < s.capturedEpoch) := by
  unfold rank
  cases hs : s.tokenAvailable <;> cases ht : t.tokenAvailable <;>
    simp [Nat.cast_withBot, WithBot.bot_lt_coe]

theorem merged_tokens (current : Option Snapshot) (p : Parsed) :
    (merged current p).tokens = arrive Tokens.rank (current.map Snapshot.tokens) p.next.tokens := by
  cases current with
  | none => rfl
  | some s =>
    have older := Tokens.rank_lt (s := s.tokens) (t := p.next.tokens)
    unfold merged
    dsimp only [Option.map_some, arrive, fresher]
    by_cases keep : s.tokenAvailable = true ∧
        (p.next.tokenAvailable = false ∨ p.next.capturedEpoch < s.capturedEpoch)
    · rw [if_pos (older.mpr keep), if_pos keep]
      split <;> rfl
    · rw [if_neg fun less => keep (older.mp less), if_neg keep]
      split <;> rfl

theorem merged_trend (current : Option Snapshot) (p : Parsed) :
    (merged current p).quotaTrend =
      match current with
      | none => p.next.quotaTrend
      | some s => if p.hasTrend = false then s.quotaTrend
        else fresher QuotaTrend.endEpoch s.quotaTrend p.next.quotaTrend := by
  cases current with
  | none => rfl
  | some s =>
    unfold merged fresher
    dsimp only
    cases has : p.hasTrend with
    | false => simp
    | true => split <;> split <;> simp_all

theorem merged_arrives (current : Option Snapshot) (has : p.hasTrend = true) : (merged current p).quotaTrend =
    arrive QuotaTrend.endEpoch (current.map Snapshot.quotaTrend) p.next.quotaTrend := by
  rw [merged_trend]
  cases current with
  | none => rfl
  | some old => exact if_neg (by simp [has])

end Merge

section Apply

variable {parse : List UInt8 → Option Json} {s : Store} {d : Delivery} {p : Parsed}

/-- The payload is taken over, as `p`. -/
def Accepted (parse : List UInt8 → Option Json) (d : Delivery) (p : Parsed) : Prop :=
  received parse d = some p ∧ d.locked = true

theorem apply_accepted (h : Accepted parse d p) (s : Store) :
    apply parse s d =
      (true, {
        current := some { merged s.current p with revision := s.revision + 1 }
        revision := s.revision + 1 }) := by
  unfold apply
  rw [h.1]
  exact if_pos h.2

/-- Both groups have received what the payload brings; one without a trend leaves the trend. -/
structure Merges (p : Parsed) (s : Store) (new : Snapshot) : Prop where
  tokens : new.tokens = arrive Tokens.rank (s.current.map Snapshot.tokens) p.next.tokens
  trend : p.hasTrend = true →
    new.quotaTrend = arrive QuotaTrend.endEpoch (s.current.map Snapshot.quotaTrend) p.next.quotaTrend
  kept : p.hasTrend = false →
    new.quotaTrend = (s.current.map Snapshot.quotaTrend).getD p.next.quotaTrend
  revision : new.revision = s.revision + 1

theorem apply_merges (h : Accepted parse d p) (s : Store) :
    ∃ new, apply parse s d = (true, { current := some new, revision := s.revision + 1 }) ∧ Merges p s new := by
  refine ⟨_, apply_accepted h s, merged_tokens s.current p, merged_arrives s.current, fun has => ?_, rfl⟩
  change (merged s.current p).quotaTrend = _
  rw [merged_trend]
  cases s.current with
  | none => rfl
  | some old => exact if_pos has

/-- A payload is rejected with nothing changed, or accepted. -/
theorem apply_cases (parse : List UInt8 → Option Json) (s : Store) (d : Delivery) :
    apply parse s d = (false, s) ∨ ∃ p, Accepted parse d p := by
  cases found : received parse d with
  | none =>
    left
    rw [apply, found]
  | some p =>
    cases locked : d.locked with
    | true => exact .inr ⟨p, found, locked⟩
    | false =>
      left
      rw [apply, found, locked]
      rfl

/-- Each group is what one accepted payload brought. -/
def Provided (parse : List UInt8 → Option Json) (past : List Delivery) (s : Store) : Prop :=
  ∀ snapshot, s.current = some snapshot →
    (∃ d ∈ past, ∃ p, Accepted parse d p ∧ snapshot.tokens = p.next.tokens) ∧
    ∃ d ∈ past, ∃ p, Accepted parse d p ∧ snapshot.quotaTrend = p.next.quotaTrend

theorem applyAll_concat (past : List Delivery) (d : Delivery) :
    applyAll parse (past ++ [d]) = (apply parse (applyAll parse past) d).2 := by
  simp only [applyAll, List.foldl_append, List.foldl_cons, List.foldl_nil]

theorem merged_provided {past : List Delivery} (h : Provided parse past s) (accepted : Accepted parse d p) :
    Provided parse (past ++ [d]) (apply parse s d).2 := by
  intro snapshot holds
  rw [apply_accepted accepted] at holds
  have same := Option.some.inj holds
  have here : d ∈ past ++ [d] := List.mem_append_right _ List.mem_cons_self
  have tokens : snapshot.tokens = (merged s.current p).tokens := by rw [← same]; rfl
  have trend : snapshot.quotaTrend = (merged s.current p).quotaTrend := by rw [← same]
  rw [merged_tokens] at tokens
  rw [merged_trend] at trend
  cases current : s.current with
  | none =>
    rw [current] at tokens trend
    exact ⟨⟨d, here, p, accepted, tokens⟩, d, here, p, accepted, trend⟩
  | some old =>
    rw [current] at tokens trend
    obtain ⟨⟨d₁, in₁, p₁, accepted₁, same₁⟩, d₂, in₂, p₂, accepted₂, same₂⟩ := h old current
    constructor
    · cases fresher_choice Tokens.rank old.tokens p.next.tokens with
      | inl kept =>
        exact ⟨d₁, List.mem_append_left _ in₁, p₁, accepted₁, tokens.trans (kept.trans same₁)⟩
      | inr replaced => exact ⟨d, here, p, accepted, tokens.trans replaced⟩
    · dsimp only at trend
      split at trend
      · exact ⟨d₂, List.mem_append_left _ in₂, p₂, accepted₂, trend.trans same₂⟩
      · cases fresher_choice QuotaTrend.endEpoch old.quotaTrend p.next.quotaTrend with
        | inl kept =>
          exact ⟨d₂, List.mem_append_left _ in₂, p₂, accepted₂, trend.trans (kept.trans same₂)⟩
        | inr replaced => exact ⟨d, here, p, accepted, trend.trans replaced⟩

theorem applyAll_provided (past : List Delivery) : Provided parse past (applyAll parse past) := by
  induction past using List.reverseRecOn with
  | nil => exact nofun
  | append_singleton past d ih =>
    rw [applyAll_concat]
    cases apply_cases parse (applyAll parse past) d with
    | inl rejected =>
      rw [rejected]
      intro snapshot holds
      obtain ⟨⟨d₁, in₁, rest₁⟩, d₂, in₂, rest₂⟩ := ih snapshot holds
      exact ⟨⟨d₁, List.mem_append_left _ in₁, rest₁⟩, d₂, List.mem_append_left _ in₂, rest₂⟩
    | inr accepted =>
      obtain ⟨p, accepted⟩ := accepted
      exact merged_provided ih accepted

/-- What was known before is known still, or something as fresh. -/
def Newer (s s' : Store) : Prop :=
  ∀ old, s.current = some old → ∃ new, s'.current = some new ∧
    (old.tokenAvailable = true → new.tokenAvailable = true ∧ old.capturedEpoch ≤ new.capturedEpoch) ∧
    old.quotaTrend.endEpoch ≤ new.quotaTrend.endEpoch

theorem Newer.refl (s : Store) : Newer s s :=
  fun old holds => ⟨old, holds, fun available => ⟨available, Nat.le_refl _⟩, Nat.le_refl _⟩

theorem Newer.trans {s₁ s₂ s₃ : Store} (h : Newer s₁ s₂) (h' : Newer s₂ s₃) : Newer s₁ s₃ := by
  intro old holds
  obtain ⟨middle, holds, tokens, trend⟩ := h old holds
  obtain ⟨new, holds, tokens', trend'⟩ := h' middle holds
  refine ⟨new, holds, fun available => ?_, trend.trans trend'⟩
  have first := tokens available
  have second := tokens' first.1
  exact ⟨second.1, first.2.trans second.2⟩

theorem Tokens.rank_available {s t : Tokens} (le : s.rank ≤ t.rank) (available : s.tokenAvailable = true) :
    t.tokenAvailable = true ∧ s.capturedEpoch ≤ t.capturedEpoch := by
  simp only [rank, available, if_true] at le
  cases ht : t.tokenAvailable with
  | false => simp [ht, Nat.cast_withBot] at le
  | true => exact ⟨rfl, by simpa [ht, Nat.cast_withBot] using le⟩

theorem apply_newer (parse : List UInt8 → Option Json) (s : Store) (d : Delivery) :
    Newer s (apply parse s d).2 := by
  cases apply_cases parse s d with
  | inl rejected =>
    rw [rejected]
    exact Newer.refl s
  | inr accepted =>
    obtain ⟨p, accepted⟩ := accepted
    rw [apply_accepted accepted]
    intro old holds
    refine ⟨_, rfl, fun available => ?_, ?_⟩
    · have tokens := merged_tokens s.current p
      rw [holds] at tokens
      have le := rank_le_fresher Tokens.rank old.tokens p.next.tokens
      rw [holds]
      exact Tokens.rank_available (le.trans_eq (congrArg Tokens.rank tokens.symm)) available
    · have trend := merged_trend s.current p
      rw [holds] at trend ⊢
      change old.quotaTrend.endEpoch ≤ (merged (some old) p).quotaTrend.endEpoch
      rw [trend]
      dsimp only
      split
      · exact Nat.le_refl _
      · exact rank_le_fresher QuotaTrend.endEpoch old.quotaTrend p.next.quotaTrend

theorem applyAll_newer (past later : List Delivery) :
    Newer (applyAll parse past) (applyAll parse (past ++ later)) := by
  induction later using List.reverseRecOn with
  | nil =>
    rw [List.append_nil]
    exact Newer.refl _
  | append_singleton later d ih =>
    rw [← List.append_assoc, applyAll_concat]
    exact ih.trans (apply_newer parse _ d)

section Orders

variable {current : Option Snapshot}

/-- The same payload at another time differs in its times only. -/
theorem accepted_same {d' : Delivery} {p' : Parsed} (h : Accepted parse d p) (h' : Accepted parse d' p')
    (same : d'.json = d.json) : p'.next.untimed = p.next.untimed ∧ p'.hasTrend = p.hasTrend := by
  have content {d : Delivery} {p : Parsed} (h : Accepted parse d p) :
      ∃ root q, parse d.json = some root ∧ parsed root = some q ∧ p = q.stamped d.now := by
    have found := h.1
    unfold received at found
    split_ifs at found
    obtain ⟨root, hroot, found⟩ := Option.bind_eq_some_iff.mp found
    obtain ⟨q, hq, found⟩ := Option.bind_eq_some_iff.mp found
    exact ⟨root, q, hroot, hq, (Option.some.inj found).symm⟩
  obtain ⟨root, q, hroot, hq, hp⟩ := content h
  obtain ⟨root', q', hroot', hq', hp'⟩ := content h'
  have sameRoot : root' = root := Option.some.inj (hroot'.symm.trans (same ▸ hroot))
  have sameParsed : q' = q := Option.some.inj (hq'.symm.trans (sameRoot ▸ hq))
  rw [hp, hp', sameParsed]
  exact ⟨rfl, rfl⟩

private theorem merged_untimed (hasTrend : p.hasTrend = true) :
    (merged current p).untimed =
      (arrive Tokens.rank (current.map fun s => s.untimed.1) p.next.untimed.1,
        arrive QuotaTrend.endEpoch (current.map fun s => s.untimed.2) p.next.untimed.2) := by
  have tokens := arrive_map Tokens.rank Tokens.rank Tokens.untimed (fun _ => rfl)
    (current.map Snapshot.tokens) p.next.tokens
  have trend := arrive_map QuotaTrend.endEpoch QuotaTrend.endEpoch QuotaTrend.untimed (fun _ => rfl)
    (current.map Snapshot.quotaTrend) p.next.quotaTrend
  rw [Option.map_map] at tokens trend
  rw [Snapshot.untimed, merged_tokens, merged_arrives current hasTrend, tokens, trend]
  rfl

private theorem merged_twice (hasP : p.hasTrend = true) (hasQ : q.hasTrend = true) (revision : UInt32) :
    (merged (some { merged current p with revision := revision }) q).untimed =
      (arrive Tokens.rank (some (arrive Tokens.rank (current.map fun s => s.untimed.1)
          p.next.untimed.1)) q.next.untimed.1,
        arrive QuotaTrend.endEpoch (some (arrive QuotaTrend.endEpoch
          (current.map fun s => s.untimed.2) p.next.untimed.2)) q.next.untimed.2) := by
  have inner : Snapshot.untimed { merged current p with revision := revision } =
      (merged current p).untimed := rfl
  rw [merged_untimed hasQ, Option.map_some, Option.map_some, inner, merged_untimed hasP]

/-- Two payloads that both bring counts and a trend, apart in both times, may come in any order. -/
theorem accepted_comm {a b a' b' : Delivery} {pa pb pa' pb' : Parsed} (s : Store)
    (ha : Accepted parse a pa) (hb : Accepted parse b pb) (ha' : Accepted parse a' pa')
    (hb' : Accepted parse b' pb') (sameA : a'.json = a.json) (sameB : b'.json = b.json)
    (tokensA : pa.next.tokenAvailable = true) (tokensB : pb.next.tokenAvailable = true)
    (captured : pa.next.capturedEpoch ≠ pb.next.capturedEpoch)
    (trendA : pa.hasTrend = true) (trendB : pb.hasTrend = true)
    (ends : pa.next.quotaTrend.endEpoch ≠ pb.next.quotaTrend.endEpoch) :
    (apply parse (apply parse s a).2 b).2.current.map Snapshot.untimed =
      (apply parse (apply parse s b').2 a').2.current.map Snapshot.untimed := by
  obtain ⟨equalA, hasA⟩ := accepted_same ha ha' sameA
  obtain ⟨equalB, hasB⟩ := accepted_same hb hb' sameB
  have ranks : Tokens.rank pa.next.untimed.1 ≠ Tokens.rank pb.next.untimed.1 := by
    have coe {q : Parsed} (available : q.next.tokenAvailable = true) :
        Tokens.rank q.next.untimed.1 = (q.next.capturedEpoch : WithBot Nat) := if_pos available
    rw [coe tokensA, coe tokensB]
    exact fun same => captured (WithBot.coe_injective same)
  have apart : QuotaTrend.endEpoch pa.next.untimed.2 ≠ QuotaTrend.endEpoch pb.next.untimed.2 := ends
  have tokens := arrive_right_comm ranks (s.current.map fun s => s.untimed.1)
  have trend := arrive_right_comm apart (s.current.map fun s => s.untimed.2)
  have one : (apply parse (apply parse s a).2 b).2.current.map Snapshot.untimed = some
      (merged (some { merged s.current pa with revision := s.revision + 1 }) pb).untimed := by
    rw [apply_accepted ha, apply_accepted hb]
    rfl
  have other : (apply parse (apply parse s b').2 a').2.current.map Snapshot.untimed = some
      (merged (some { merged s.current pb' with revision := s.revision + 1 }) pa').untimed := by
    rw [apply_accepted hb', apply_accepted ha']
    rfl
  rw [one, other, merged_twice trendA trendB, merged_twice (hasB.trans trendB) (hasA.trans trendA),
    equalA, equalB, tokens, trend]

end Orders

end Apply

section Payloads

variable (parse : List UInt8 → Option Json)

/-- Two payloads that lead to the same state in either order, up to receive times and revision. -/
def Commute (a b : List UInt8) : Prop :=
  ∀ (s : Store) (da db da' db' : Delivery), da.json = a → da'.json = a → db.json = b → db'.json = b →
    (apply parse s da).1 = true → (apply parse s db).1 = true → (apply parse s da').1 = true →
    (apply parse s db').1 = true →
    (apply parse (apply parse s da).2 db).2.current.map Snapshot.untimed =
      (apply parse (apply parse s db').2 da').2.current.map Snapshot.untimed

/-- The payload brings counts and a trend, of these times. -/
def Brings (json : List UInt8) (captured end_ : Nat) : Prop :=
  ∃ root p, parse json = some root ∧ parsed root = some p ∧ p.next.tokenAvailable = true ∧
    p.next.capturedEpoch = captured ∧ p.hasTrend = true ∧ p.next.quotaTrend.endEpoch = end_

private theorem apply_accepts {s : Store} {d : Delivery} (h : (apply parse s d).1 = true) :
    ∃ p, Accepted parse d p := by
  cases apply_cases parse s d with
  | inl rejected =>
    rw [rejected] at h
    cases h
  | inr accepted => exact accepted

theorem Brings.accepted {json : List UInt8} {captured end_ : Nat} {d : Delivery} {p : Parsed}
    (h : Brings parse json captured end_) (accepted : Accepted parse d p) (same : d.json = json) :
    p.next.tokenAvailable = true ∧ p.next.capturedEpoch = captured ∧ p.hasTrend = true ∧
      p.next.quotaTrend.endEpoch = end_ := by
  obtain ⟨root, q, hroot, hq, tokens, epoch, trend, finish⟩ := h
  have found := accepted.1
  unfold received at found
  split_ifs at found
  obtain ⟨root', hroot', found⟩ := Option.bind_eq_some_iff.mp found
  obtain ⟨q', hq', found⟩ := Option.bind_eq_some_iff.mp found
  have sameRoot : root' = root := by
    rw [same] at hroot'
    exact Option.some.inj (hroot'.symm.trans hroot)
  have sameParsed : q' = q := by
    rw [sameRoot] at hq'
    exact Option.some.inj (hq'.symm.trans hq)
  rw [← Option.some.inj found, sameParsed]
  exact ⟨tokens, epoch, trend, finish⟩

/-- For any parser: a rejected payload changes nothing, and exactly the accepted ones are merged into
the store; each group is one payload's; what is known gets no older; and payloads apart in both times
commute. -/
theorem history_merges :
    (∀ s d, (apply parse s d).1 = false → (apply parse s d).2 = s) ∧
    (∀ s d, (apply parse s d).1 = true → ∃ p, Accepted parse d p) ∧
    (∀ s d p, Accepted parse d p → ∃ new,
      apply parse s d = (true, { current := some new, revision := s.revision + 1 }) ∧ Merges p s new) ∧
    (∀ past, Provided parse past (applyAll parse past)) ∧
    (∀ past later, Newer (applyAll parse past) (applyAll parse (past ++ later))) ∧
    ∀ a b captured captured' end_ end', Brings parse a captured end_ → Brings parse b captured' end' →
      captured ≠ captured' → end_ ≠ end' → Commute parse a b := by
  refine ⟨fun s d rejected => ?_, fun s d => apply_accepts parse, fun s d p h => apply_merges h s,
    applyAll_provided, applyAll_newer, ?_⟩
  · cases apply_cases parse s d with
    | inl unchanged => rw [unchanged]
    | inr accepted =>
      obtain ⟨p, accepted⟩ := accepted
      rw [apply_accepted accepted] at rejected
      cases rejected
  · intro a b captured captured' end_ end' bringsA bringsB epochs ends s da db da' db' isA isA' isB isB'
      okA okB okA' okB'
    obtain ⟨pa, ha⟩ := apply_accepts parse okA
    obtain ⟨pb, hb⟩ := apply_accepts parse okB
    obtain ⟨pa', ha'⟩ := apply_accepts parse okA'
    obtain ⟨pb', hb'⟩ := apply_accepts parse okB'
    obtain ⟨tokensA, epochA, trendA, endA⟩ := bringsA.accepted parse ha isA
    obtain ⟨tokensB, epochB, trendB, endB⟩ := bringsB.accepted parse hb isB
    exact accepted_comm s ha hb ha' hb' (isA'.trans isA.symm) (isB'.trans isB.symm) tokensA tokensB
      (by rw [epochA, epochB]; exact epochs) trendA trendB (by rw [endA, endB]; exact ends)

end Payloads

end Mosaico.Host.TokenHistory
