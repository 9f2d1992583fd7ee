import Mathlib.Data.Nat.Basic
import Mathlib.Algebra.Group.Nat.Defs

/-! SHA-256 of a list of bytes; words are naturals below `2 ^ 32`. -/
namespace Sha256

abbrev Digest := Vector UInt8 32

def word : Nat := 2 ^ 32

def constants : List Nat := [
  0x428a2f98, 0x71374491, 0xb5c0fbcf, 0xe9b5dba5, 0x3956c25b, 0x59f111f1, 0x923f82a4, 0xab1c5ed5,
  0xd807aa98, 0x12835b01, 0x243185be, 0x550c7dc3, 0x72be5d74, 0x80deb1fe, 0x9bdc06a7, 0xc19bf174,
  0xe49b69c1, 0xefbe4786, 0x0fc19dc6, 0x240ca1cc, 0x2de92c6f, 0x4a7484aa, 0x5cb0a9dc, 0x76f988da,
  0x983e5152, 0xa831c66d, 0xb00327c8, 0xbf597fc7, 0xc6e00bf3, 0xd5a79147, 0x06ca6351, 0x14292967,
  0x27b70a85, 0x2e1b2138, 0x4d2c6dfc, 0x53380d13, 0x650a7354, 0x766a0abb, 0x81c2c92e, 0x92722c85,
  0xa2bfe8a1, 0xa81a664b, 0xc24b8b70, 0xc76c51a3, 0xd192e819, 0xd6990624, 0xf40e3585, 0x106aa070,
  0x19a4c116, 0x1e376c08, 0x2748774c, 0x34b0bcb5, 0x391c0cb3, 0x4ed8aa4a, 0x5b9cca4f, 0x682e6ff3,
  0x748f82ee, 0x78a5636f, 0x84c87814, 0x8cc70208, 0x90befffa, 0xa4506ceb, 0xbef9a3f7, 0xc67178f2]

def rotate (x n : Nat) : Nat := x >>> n ||| (x <<< (32 - n)) % word

def smallSigma (x a b c : Nat) : Nat := rotate x a ^^^ rotate x b ^^^ x >>> c

def bigSigma (x a b c : Nat) : Nat := rotate x a ^^^ rotate x b ^^^ rotate x c

structure Working where
  a : Nat
  b : Nat
  c : Nat
  d : Nat
  e : Nat
  f : Nat
  g : Nat
  h : Nat

def initial : Working :=
  ⟨0x6a09e667, 0xbb67ae85, 0x3c6ef372, 0xa54ff53a, 0x510e527f, 0x9b05688c, 0x1f83d9ab, 0x5be0cd19⟩

def round (s : Working) (kw : Nat × Nat) : Working :=
  let choice := (s.e &&& s.f) ^^^ ((word - 1 - s.e) &&& s.g)
  let majority := (s.a &&& s.b) ^^^ (s.a &&& s.c) ^^^ (s.b &&& s.c)
  let t1 := s.h + bigSigma s.e 6 11 25 + choice + kw.1 + kw.2
  let t2 := bigSigma s.a 2 13 22 + majority
  ⟨(t1 + t2) % word, s.a, s.b, s.c, (s.d + t1) % word, s.e, s.f, s.g⟩

/-- `n` more words of the schedule; the newest word comes first. -/
def extend : Nat → List Nat → List Nat
  | 0, ws => ws
  | n + 1, ws =>
    extend n ((smallSigma (ws.getD 1 0) 17 19 10 + ws.getD 6 0 + smallSigma (ws.getD 14 0) 7 18 3 +
      ws.getD 15 0) % word :: ws)

def words : List UInt8 → List Nat
  | a :: b :: c :: d :: rest =>
    (((a.toNat * 256 + b.toNat) * 256 + c.toNat) * 256 + d.toNat) :: words rest
  | _ => []

def block (s : Working) (bytes : List UInt8) : Working :=
  let schedule := (extend 48 (words bytes).reverse).reverse
  let t := (constants.zip schedule).foldl round s
  ⟨(s.a + t.a) % word, (s.b + t.b) % word, (s.c + t.c) % word, (s.d + t.d) % word,
    (s.e + t.e) % word, (s.f + t.f) % word, (s.g + t.g) % word, (s.h + t.h) % word⟩

def blocks : Nat → Working → List UInt8 → Working
  | 0, s, _ => s
  | n + 1, s, bytes => blocks n (block s (bytes.take 64)) (bytes.drop 64)

def bigEndian (width v : Nat) : List UInt8 :=
  (List.range width).map fun i => UInt8.ofNat (v / 256 ^ (width - 1 - i))

/-- The bytes to the next multiple of 64, with the bit length in the last eight. -/
def padded (bytes : List UInt8) : List UInt8 :=
  bytes ++ (0x80 :: (List.replicate ((119 - bytes.length % 64) % 64) 0 ++
    bigEndian 8 (bytes.length * 8)))

def output (s : Working) : List UInt8 :=
  [s.a, s.b, s.c, s.d, s.e, s.f, s.g, s.h].flatMap (bigEndian 4)

def sha256 (bytes : List UInt8) : Digest :=
  let out := output (blocks ((padded bytes).length / 64) initial (padded bytes))
  Vector.ofFn fun i => out.getD i.val 0

end Sha256
