import ClassAtlas.Bytes

/-!
SHA-256, by which equal files are recognised. A message is padded to whole blocks of
64 bytes; each block is expanded to 64 words and mixed into a state of eight.
-/
namespace ClassAtlas.Digest

/-- The first 32 bits of the fractional parts of the cube roots of the first 64 primes. -/
def roundKeys : List UInt32 :=
  [0x428a2f98, 0x71374491, 0xb5c0fbcf, 0xe9b5dba5, 0x3956c25b, 0x59f111f1, 0x923f82a4, 0xab1c5ed5,
   0xd807aa98, 0x12835b01, 0x243185be, 0x550c7dc3, 0x72be5d74, 0x80deb1fe, 0x9bdc06a7, 0xc19bf174,
   0xe49b69c1, 0xefbe4786, 0x0fc19dc6, 0x240ca1cc, 0x2de92c6f, 0x4a7484aa, 0x5cb0a9dc, 0x76f988da,
   0x983e5152, 0xa831c66d, 0xb00327c8, 0xbf597fc7, 0xc6e00bf3, 0xd5a79147, 0x06ca6351, 0x14292967,
   0x27b70a85, 0x2e1b2138, 0x4d2c6dfc, 0x53380d13, 0x650a7354, 0x766a0abb, 0x81c2c92e, 0x92722c85,
   0xa2bfe8a1, 0xa81a664b, 0xc24b8b70, 0xc76c51a3, 0xd192e819, 0xd6990624, 0xf40e3585, 0x106aa070,
   0x19a4c116, 0x1e376c08, 0x2748774c, 0x34b0bcb5, 0x391c0cb3, 0x4ed8aa4a, 0x5b9cca4f, 0x682e6ff3,
   0x748f82ee, 0x78a5636f, 0x84c87814, 0x8cc70208, 0x90befffa, 0xa4506ceb, 0xbef9a3f7, 0xc67178f2]

structure State where
  a : UInt32
  b : UInt32
  c : UInt32
  d : UInt32
  e : UInt32
  f : UInt32
  g : UInt32
  h : UInt32
deriving Repr, DecidableEq

/-- The first 32 bits of the fractional parts of the square roots of the first 8 primes. -/
def initial : State :=
  ⟨0x6a09e667, 0xbb67ae85, 0x3c6ef372, 0xa54ff53a, 0x510e527f, 0x9b05688c, 0x1f83d9ab, 0x5be0cd19⟩

def rotate (x n : UInt32) : UInt32 := (x >>> n) ||| (x <<< (32 - n))

/-- One round with a key and a word of the message. -/
def round (s : State) (key word : UInt32) : State :=
  let mixed := rotate s.e 6 ^^^ rotate s.e 11 ^^^ rotate s.e 25
  let choice := (s.e &&& s.f) ^^^ (~~~s.e &&& s.g)
  let first := s.h + mixed + choice + key + word
  let spread := rotate s.a 2 ^^^ rotate s.a 13 ^^^ rotate s.a 22
  let majority := (s.a &&& s.b) ^^^ (s.a &&& s.c) ^^^ (s.b &&& s.c)
  ⟨first + (spread + majority), s.a, s.b, s.c, s.d + first, s.e, s.f, s.g⟩

/-- The word that follows sixteen words of the schedule. -/
def nextWord (window : Array UInt32) : UInt32 :=
  let w (i : Nat) : UInt32 := window.getD i 0
  let low := rotate (w 1) 7 ^^^ rotate (w 1) 18 ^^^ (w 1 >>> 3)
  let high := rotate (w 14) 17 ^^^ rotate (w 14) 19 ^^^ (w 14 >>> 10)
  w 0 + low + w 9 + high

/-- Runs the rounds of a block; `window` holds the next sixteen words. -/
def rounds (s : State) (window : Array UInt32) : List UInt32 → State
  | [] => s
  | key :: keys =>
    rounds (round s key (window.getD 0 0)) ((window.extract 1 16).push (nextWord window)) keys

def words : Bytes → List UInt32
  | a :: b :: c :: d :: rest => Bytes.word32 a b c d :: words rest
  | _ => []

def State.add (s t : State) : State :=
  ⟨s.a + t.a, s.b + t.b, s.c + t.c, s.d + t.d, s.e + t.e, s.f + t.f, s.g + t.g, s.h + t.h⟩

def block (s : State) (bytes : Bytes) : State := s.add (rounds s (words bytes).toArray roundKeys)

/-- Mixes in whole blocks. -/
def blocks : Nat → State → Bytes → State
  | 0, s, _ => s
  | n + 1, s, bytes => blocks n (block s (bytes.take 64)) (bytes.drop 64)

/-- A one bit, zeros up to eight bytes before a block's end, and the length in bits. -/
def pad (bytes : Bytes) : Bytes :=
  let n := bytes.length
  bytes ++ 0x80 :: List.replicate ((119 - n % 64) % 64) 0 ++ Bytes.of64 (UInt64.ofNat (n * 8))

def sha256 (bytes : Bytes) : Bytes :=
  let padded := pad bytes
  let s := blocks (padded.length / 64) initial padded
  [s.a, s.b, s.c, s.d, s.e, s.f, s.g, s.h].flatMap Bytes.of32

end ClassAtlas.Digest
