import Mosaico.Library.CText
import Mosaico.Library.ByteFields

/-! The remembered networks of `mosaico_wifi_profiles_model.h` and the check of credentials that they rest
on. A pointer is the memory behind it, or none where it is null. -/
namespace Mosaico.Host.WifiProfiles

open ByteFields CText

/-- The characters before the first NUL, of which at most one more than `maximum` is looked at. -/
def bounded (maximum : Nat) (s : List UInt8) : List UInt8 := untilNul (s.take (maximum + 1))

/-- The length and the smallest code point that the first byte of a sequence announces, and its own bits. -/
def lead (c : UInt8) : Option (Nat × Nat × Nat) :=
  if 0xc2 ≤ c ∧ c ≤ 0xdf then some (1, (c &&& 31).toNat, 0x80)
  else if 0xe0 ≤ c ∧ c ≤ 0xef then some (2, (c &&& 15).toNat, 0x800)
  else if 0xf0 ≤ c ∧ c ≤ 0xf4 then some (3, (c &&& 7).toNat, 0x10000)
  else none

def codePoint (cp : Nat) : List UInt8 → Option Nat
  | [] => some cp
  | d :: rest => if d &&& 0xc0 ≠ 0x80 then none else codePoint (cp * 64 + (d &&& 63).toNat) rest

/-- Strict UTF-8: no controls, overlong encodings, surrogates or code points past the last. -/
def validName (fuel : Nat) (name : List UInt8) : Bool :=
  match fuel, name with
  | _, [] => true
  | 0, _ => false
  | fuel + 1, c :: rest =>
    if c < 0x20 ∨ c = 0x7f then false
    else if c < 0x80 then validName fuel rest
    else match lead c with
      | none => false
      | some (count, bits, minimum) =>
        if rest.length < count then false
        else match codePoint bits (rest.take count) with
          | none => false
          | some cp =>
            if cp < minimum ∨ 0x10ffff < cp ∨ (0xd800 ≤ cp ∧ cp ≤ 0xdfff) ∨
              (0x80 ≤ cp ∧ cp ≤ 0x9f) then false
            else validName fuel (rest.drop count)

def isHex (c : UInt8) : Bool := isDigit c || (97 ≤ c && c ≤ 102) || (65 ≤ c && c ≤ 70)

def validSsid (ssid : List UInt8) : Bool :=
  ssid ≠ [] && ssid.length ≤ 32 && validName ssid.length ssid

def validPassword (password : List UInt8) : Bool :=
  password.length ≤ 64 && (password = [] || 8 ≤ password.length) &&
    password.all fun c => 0x20 ≤ c && c ≤ 0x7e && (password.length ≠ 64 || isHex c)

def validCredentials (ssid password : Option (List UInt8)) : Bool :=
  match ssid, password with
  | some ssid, some password => validSsid (bounded 32 ssid) && validPassword (bounded 64 password)
  | _, _ => false

def capacity : Nat := 6

structure Profile where
  ssid : Bytes 33 := zero 33
  password : Bytes 65 := zero 65
  deriving DecidableEq

structure Model where
  entries : Vector Profile 6 := Vector.replicate 6 {}
  count : Nat := 0
  lastSuccess : Nat := 255
  deriving DecidableEq

/-- The loop of `find` over one entry, with `fuel` characters left of 33. -/
def sameFrom (entry s : List UInt8) : Nat → Nat → Bool
  | 0, _ => false
  | fuel + 1, j =>
    if entry.getD j 0 = s.getD j 0 then
      if s.getD j 0 = 0 then true else sameFrom entry s fuel (j + 1)
    else false

def same (entry s : List UInt8) : Bool := sameFrom entry s 33 0

namespace Model

def entry (m : Model) (i : Nat) : Profile := if h : i < 6 then m.entries[i] else {}

def find (m : Model) (s : List UInt8) : Option Nat :=
  (List.range m.count).find? fun i => same (m.entry i).ssid.toList s

def copySsid (old : Bytes 33) (s : List UInt8) : Bytes 33 :=
  ofFn 33 fun j => if j ≤ (bounded 32 s).length then s.getD j 0 else byteAt old j

def copyPassword (p : List UInt8) : Bytes 65 :=
  ofFn 65 fun j => if j < 64 then (bounded 63 p).getD j 0 else 0

/-- What `upsert` writes into the entry it has found or taken. A blank password keeps the secret. -/
def store (m : Model) (i : Nat) (s p : List UInt8) : Model :=
  let old := m.entry i
  let keep := p.getD 0 0 = 0 ∧ byteAt old.password 0 ≠ 0
  { m with
    entries := m.entries.setIfInBounds i {
      ssid := copySsid old.ssid s
      password := if keep then old.password else copyPassword p } }

def upsert (m : Model) (s p : Option (List UInt8)) : Model × Bool :=
  match s, p with
  | some s, some p =>
    if !validCredentials (some s) (some p) then (m, false)
    else match m.find s with
      | some i => (m.store i s p, true)
      | none => if m.count = capacity then (m, false) else ({ m with count := m.count + 1 }.store m.count s p, true)
  | _, _ => (m, false)

def forget (m : Model) (s : List UInt8) : Model × Bool :=
  match m.find s with
  | none => (m, false)
  | some i =>
    if m.count ≤ 1 then (m, false)
    else
      -- The entries behind move up and the last one is cleared.
      let entries := Vector.ofFn fun j : Fin 6 =>
        if j.val < i then m.entry j
        else if j.val + 1 < m.count then m.entry (j + 1)
        else if j.val + 1 = m.count then {}
        else m.entry j
      let last := if m.lastSuccess = i then 255
        else if m.lastSuccess ≠ 255 ∧ i < m.lastSuccess then m.lastSuccess - 1
        else m.lastSuccess
      ({ entries := entries, count := m.count - 1, lastSuccess := last }, true)

/-- `network_quota.cpp`, once a network is joined. -/
def succeeded (m : Model) (s : List UInt8) : Model :=
  match m.find s with
  | none => m
  | some i => { m with lastSuccess := i }

end Model

abbrev Blob := Bytes 600

def magic : Nat := 0x01465057

def header (m : Model) : Blob := put (put (put (zero 600) 0 magic 4) 4 m.count 1) 5 m.lastSuccess 1

def putEntry (m : Model) (b : Blob) (i : Nat) : Blob :=
  blit (blit b (8 + i * 98) (m.entry i).ssid 33) (41 + i * 98) (m.entry i).password 65

def encode (m : Model) : Blob := closeCrc ((List.range m.count).foldl (putEntry m) (header m)) 596

/-- An entry behind the last one is clear; the others are valid and differ from those before them. -/
def entryGood (b : Blob) (m : Model) (i : Nat) : Bool :=
  if m.count ≤ i then zeros b (8 + i * 98) (8 + i * 98 + 98)
  else byteAt b (40 + i * 98) = 0 && byteAt b (105 + i * 98) = 0 &&
    validCredentials (some (m.entry i).ssid.toList) (some (m.entry i).password.toList) &&
    (List.range i).all fun j => !same (m.entry i).ssid.toList (m.entry j).ssid.toList

def readModel (b : Blob) : Model where
  count := (byteAt b 4).toNat
  lastSuccess := (byteAt b 5).toNat
  entries := Vector.ofFn fun i =>
    if i.val < (byteAt b 4).toNat then
      { ssid := slice b (8 + i * 98) 33 33, password := slice b (41 + i * 98) 65 65 }
    else {}

def decodeModel (b : Blob) : Option Model :=
  if get b 0 4 ≠ magic ∨ byteAt b 4 = 0 ∨ capacity < (byteAt b 4).toNat ∨ byteAt b 6 ≠ 0 ∨ byteAt b 7 ≠ 0 ∨
      crcMatches b 596 = false ∨ (byteAt b 5 ≠ 255 ∧ (byteAt b 4).toNat ≤ (byteAt b 5).toNat) then none
  else if (List.range capacity).all (entryGood b (readModel b)) then some (readModel b)
  else none

/-- An access point of a scan. -/
structure Visible where
  ssid : Bytes 33
  rssi : Int

/-- The best signal of the access points of an entry; -128 where there is none. -/
def best (m : Model) (aps : List Visible) (i : Nat) : Int :=
  aps.foldl (fun best ap =>
    if validCredentials (some ap.ssid.toList) (some [0]) ∧ m.find ap.ssid.toList = some i ∧
      best < ap.rssi then ap.rssi
    else best) (-128)

/-- Whether an entry with this signal goes before one that is already ranked. -/
def before (m : Model) (x y : Nat × Int) : Bool :=
  (x.1 = m.lastSuccess && y.1 ≠ m.lastSuccess) || (y.1 ≠ m.lastSuccess && y.2 < x.2)

/-- The inner loop of `rank`, from the end of the candidates backwards. -/
def insertBack (m : Model) (x : Nat × Int) : List (Nat × Int) → List (Nat × Int)
  | [] => [x]
  | y :: ranked => if before m x y then y :: insertBack m x ranked else x :: y :: ranked

def rankBack (m : Model) (aps : List Visible) : List (Nat × Int) :=
  (List.range m.count).foldl (fun ranked i =>
    if best m aps i = -128 then ranked else insertBack m (i, best m aps i) ranked) []

def rank (m : Model) (aps : List Visible) : List Nat := (rankBack m aps).reverse.map Prod.fst

end Mosaico.Host.WifiProfiles
