import ClassAtlas.Bytes
import ClassAtlas.Text.Units

/-!
The encoding of text inside a class file. Bytes form groups of one to three,
each group one 16-bit unit, and units form characters as in `Text.Units`; NUL is
written as two bytes and a character above U+FFFF as its two surrogates.

Reading never fails: a byte that starts no complete group is a unit by itself.
-/
namespace ClassAtlas.Text.ModifiedUtf8

/-- A byte that is a unit by itself. -/
def isSingle (b : UInt8) : Bool := b.toNat < 0x80

/-- A byte that starts a group of two. -/
def isPair (b : UInt8) : Bool := b.toNat / 32 == 6

/-- A byte that starts a group of three. -/
def isTriple (b : UInt8) : Bool := b.toNat / 16 == 14

def unit1 (b : UInt8) : UInt16 := UInt16.ofNat b.toNat

def unit2 (b c : UInt8) : UInt16 := UInt16.ofNat (b.toNat % 32 * 64 + c.toNat % 64)

def unit3 (b c d : UInt8) : UInt16 :=
  UInt16.ofNat (b.toNat % 16 * 4096 + c.toNat % 64 * 64 + d.toNat % 64)

/-- The units of a byte sequence. -/
def units : Bytes → List UInt16
  | [] => []
  | [b] => [unit1 b]
  | [b, c] => if isPair b then [unit2 b c] else unit1 b :: units [c]
  | b :: c :: d :: rest =>
    if isSingle b then unit1 b :: units (c :: d :: rest)
    else if isPair b then unit2 b c :: units (d :: rest)
    else if isTriple b then unit3 b c d :: units rest
    else unit1 b :: units (c :: d :: rest)

def decode (bs : Bytes) : String := String.ofList (Units.decode (units bs))

/-- The group of bytes that spells a unit. -/
def encodeUnit (u : UInt16) : Bytes :=
  let n := u.toNat
  if n ≠ 0 ∧ n < 0x80 then [UInt8.ofNat n]
  else if n < 0x800 then [UInt8.ofNat (0xC0 + n / 64), UInt8.ofNat (0x80 + n % 64)]
  else [UInt8.ofNat (0xE0 + n / 4096), UInt8.ofNat (0x80 + n / 64 % 64), UInt8.ofNat (0x80 + n % 64)]

def encode (s : String) : Bytes := s.toList.flatMap fun c => (Units.encodeChar c).flatMap encodeUnit

end ClassAtlas.Text.ModifiedUtf8
