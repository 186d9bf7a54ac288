/-!
Bytes of a file as a list, and the big-endian words they spell.

A word is written high byte first, and reading the bytes of a word gives the
word back (`word16_of16`, `word32_of32`).
-/
namespace ClassAtlas

abbrev Bytes := List UInt8

namespace Bytes

/-- The 16-bit word with high byte `a`. -/
def word16 (a b : UInt8) : UInt16 := UInt16.ofNat (a.toNat * 256 + b.toNat)

/-- The 32-bit word with highest byte `a`. -/
def word32 (a b c d : UInt8) : UInt32 :=
  UInt32.ofNat (((a.toNat * 256 + b.toNat) * 256 + c.toNat) * 256 + d.toNat)

/-- The 64-bit word of two halves. -/
def word64 (high low : UInt32) : UInt64 := UInt64.ofNat (high.toNat * 4294967296 + low.toNat)

def of16 (w : UInt16) : Bytes := [UInt8.ofNat (w.toNat / 256), UInt8.ofNat (w.toNat % 256)]

def of32 (w : UInt32) : Bytes :=
  [UInt8.ofNat (w.toNat / 16777216), UInt8.ofNat (w.toNat / 65536 % 256),
   UInt8.ofNat (w.toNat / 256 % 256), UInt8.ofNat (w.toNat % 256)]

def of64 (w : UInt64) : Bytes :=
  of32 (UInt32.ofNat (w.toNat / 4294967296)) ++ of32 (UInt32.ofNat (w.toNat % 4294967296))

theorem word16_of16 (w : UInt16) :
    word16 (UInt8.ofNat (w.toNat / 256)) (UInt8.ofNat (w.toNat % 256)) = w := by
  have h := w.toNat_lt
  apply UInt16.toNat_inj.1
  simp only [word16, UInt16.toNat_ofNat', UInt8.toNat_ofNat']
  omega

theorem word32_of32 (w : UInt32) :
    word32 (UInt8.ofNat (w.toNat / 16777216)) (UInt8.ofNat (w.toNat / 65536 % 256))
      (UInt8.ofNat (w.toNat / 256 % 256)) (UInt8.ofNat (w.toNat % 256)) = w := by
  have h := w.toNat_lt
  apply UInt32.toNat_inj.1
  simp only [word32, UInt32.toNat_ofNat', UInt8.toNat_ofNat']
  omega

@[simp] theorem length_of16 (w : UInt16) : (of16 w).length = 2 := rfl

@[simp] theorem length_of32 (w : UInt32) : (of32 w).length = 4 := rfl

/-! ### Hexadecimal text -/

def hexDigit (n : Nat) : Char := "0123456789abcdef".toList.getD n '0'

/-- Two lower-case digits a byte. -/
def hex (bs : Bytes) : String :=
  String.ofList (bs.flatMap fun b => [hexDigit (b.toNat / 16), hexDigit (b.toNat % 16)])

end Bytes
/-- Pieces between the bytes of a class. -/
def pieces (p : UInt8 → Bool) : Bytes → List Bytes
  | [] => [[]]
  | b :: rest =>
    if p b then [] :: pieces p rest
    else match pieces p rest with
      | [] => [[b]]
      | first :: others => (b :: first) :: others

end ClassAtlas
