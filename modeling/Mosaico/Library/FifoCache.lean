import Mathlib.Data.List.Basic
import Mathlib.Data.List.TakeDrop

/-! A dictionary in insertion order that forgets its oldest keys. Assigning to a
key that is present keeps the key's place, so the keys held are the last ones
that were new when they were assigned. -/
namespace FifoCache

variable {K V : Type} [DecidableEq K]

def keys (cache : List (K × V)) : List K := cache.map Prod.fst

def assign (key : K) (value : V) : List (K × V) → List (K × V)
  | [] => [(key, value)]
  | entry :: rest => if entry.1 = key then (key, value) :: rest else entry :: assign key value rest

def get (key : K) (cache : List (K × V)) : Option V := (cache.find? (·.1 = key)).map Prod.snd

/-- Drop the first entries while there are more than `limit`. -/
def evict (limit : Nat) : List (K × V) → List (K × V)
  | [] => []
  | entry :: rest => if limit < rest.length + 1 then evict limit rest else entry :: rest

def insert (limit : Nat) (key : K) (value : V) (cache : List (K × V)) : List (K × V) :=
  evict limit (assign key value cache)

def enter (limit : Nat) (key : K) (entered : List K) : List K :=
  if key ∈ entered.take limit then entered else key :: entered

/-- The cache holds the last `limit` keys that entered. -/
def Follows (limit : Nat) (cache : List (K × V)) (entered : List K) : Prop :=
  keys cache = (entered.take limit).reverse

variable {key other : K} {value : V} {cache : List (K × V)} {entered : List K} {limit : Nat}

theorem keys_assign (key : K) (value : V) (cache : List (K × V)) :
    keys (assign key value cache) = if key ∈ keys cache then keys cache else keys cache ++ [key] := by
  induction cache with
  | nil => rfl
  | cons entry rest ih =>
    rw [assign]
    by_cases here : entry.1 = key
    · rw [if_pos here]
      simp [keys, here]
    · rw [if_neg here]
      have apart : key ≠ entry.1 := fun h => here h.symm
      have split : keys (entry :: assign key value rest) =
          entry.1 :: keys (assign key value rest) := rfl
      rw [split, ih]
      by_cases later : key ∈ keys rest
      · simp [keys] at later ⊢
        simp [apart, later]
      · simp [keys] at later ⊢
        simp [apart, later]

theorem mem_assign {entry : K × V} (h : entry ∈ assign key value cache) :
    entry = (key, value) ∨ entry ∈ cache := by
  induction cache with
  | nil => exact Or.inl (List.mem_singleton.mp h)
  | cons first rest ih =>
    rw [assign] at h
    by_cases here : first.1 = key
    · rw [if_pos here] at h
      rcases List.mem_cons.mp h with new | old
      · exact Or.inl new
      · exact Or.inr (List.mem_cons_of_mem _ old)
    · rw [if_neg here] at h
      rcases List.mem_cons.mp h with new | old
      · exact Or.inr (new ▸ List.mem_cons_self)
      · exact (ih old).imp_right (List.mem_cons_of_mem _)

omit [DecidableEq K] in
theorem evict_eq (limit : Nat) (cache : List (K × V)) :
    evict limit cache = cache.drop (cache.length - limit) := by
  induction cache with
  | nil => rw [evict, List.drop_nil]
  | cons entry rest ih =>
    rw [evict]
    by_cases full : limit < rest.length + 1
    · rw [if_pos full, ih, List.length_cons,
        show rest.length + 1 - limit = (rest.length - limit) + 1 by omega, List.drop_succ_cons]
    · rw [if_neg full, List.length_cons, show rest.length + 1 - limit = 0 by omega, List.drop_zero]

theorem mem_insert {entry : K × V} (h : entry ∈ insert limit key value cache) :
    entry = (key, value) ∨ entry ∈ cache := by
  rw [insert, evict_eq] at h
  exact mem_assign (List.mem_of_mem_drop h)

omit [DecidableEq K] in
theorem keys_drop (n : Nat) (cache : List (K × V)) : keys (cache.drop n) = (keys cache).drop n := by
  rw [keys, keys, List.map_drop]

theorem Follows.insert (h : Follows limit cache entered) (key : K) (value : V) :
    Follows limit (insert limit key value cache) (enter limit key entered) := by
  have size : (keys cache).length ≤ limit := by
    rw [h, List.length_reverse, List.length_take]
    omega
  rw [Follows, FifoCache.insert, evict_eq, keys_drop, keys_assign, enter]
  have count : (assign key value cache).length = (keys (assign key value cache)).length :=
    (List.length_map ..).symm
  rw [count, keys_assign]
  by_cases held : key ∈ keys cache
  · have taken : key ∈ entered.take limit := by
      rw [h] at held
      exact List.mem_reverse.mp held
    rw [if_pos held, if_pos taken, show (keys cache).length - limit = 0 by omega, List.drop_zero]
    exact h
  · have fresh : key ∉ entered.take limit := by
      rw [h] at held
      exact fun taken => held (List.mem_reverse.mpr taken)
    rw [if_neg held, if_neg fresh, h, ← List.reverse_cons, List.length_reverse, ← List.reverse_take]
    congr 1
    cases limit with
    | zero => rfl
    | succ n =>
      rw [List.take_succ_cons, List.take_succ_cons, List.take_take, Nat.min_eq_left (Nat.le_succ n)]

theorem get_isSome (key : K) (cache : List (K × V)) : (get key cache).isSome = true ↔ key ∈ keys cache := by
  rw [get, Option.isSome_map, List.find?_isSome, keys, List.mem_map]
  simp

theorem get_mem (h : get key cache = some value) : (key, value) ∈ cache := by
  rw [get] at h
  obtain ⟨entry, found, rfl⟩ := Option.map_eq_some_iff.mp h
  have named := List.find?_some found
  rw [← of_decide_eq_true named]
  exact List.mem_of_find?_eq_some found

theorem Follows.get_isSome (h : Follows limit cache entered) (key : K) :
    (get key cache).isSome = true ↔ key ∈ entered.take limit := by
  rw [FifoCache.get_isSome, h, List.mem_reverse]

end FifoCache
