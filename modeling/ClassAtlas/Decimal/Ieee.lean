/-!
Binary floating-point patterns. A finite pattern other than zero stands for
`significand · 2 ^ exponent`, and every real strictly between the midpoints to its
two neighbours rounds to it; a midpoint does when the significand is even.
-/
namespace ClassAtlas.Decimal

/-- A positive binary number. `narrow` says that the neighbour below is at half
the distance of the one above, as it is for a power of two. -/
structure Binary where
  significand : Nat
  exponent : Int
  narrow : Bool
deriving Repr, DecidableEq

namespace Ieee

/-- A pattern is a sign bit, then the exponent bits, then the fraction bits. -/
structure Format where
  fractionBits : Nat
  exponentBits : Nat

def single : Format := ⟨23, 8⟩

def double : Format := ⟨52, 11⟩

inductive Value where
  | nan
  | infinite (negative : Bool)
  | zero (negative : Bool)
  | finite (negative : Bool) (number : Binary)
deriving Repr, DecidableEq

namespace Format

/-- What is subtracted from a stored exponent: the bias and the width of the fraction. -/
def offset (f : Format) : Nat := Nat.pow 2 (f.exponentBits - 1) - 1 + f.fractionBits

def decode (f : Format) (bits : Nat) : Value :=
  let fraction := bits % Nat.pow 2 f.fractionBits
  let exponent := bits / Nat.pow 2 f.fractionBits % Nat.pow 2 f.exponentBits
  let negative := bits / Nat.pow 2 (f.fractionBits + f.exponentBits) % 2 == 1
  if exponent = Nat.pow 2 f.exponentBits - 1 then
    if fraction = 0 then .infinite negative else .nan
  else if exponent = 0 then
    if fraction = 0 then .zero negative
    else .finite negative ⟨fraction, 1 - (f.offset : Int), false⟩
  else
    .finite negative
      ⟨Nat.pow 2 f.fractionBits + fraction, (exponent : Int) - f.offset, fraction == 0 && exponent != 1⟩

end Format
end Ieee
end ClassAtlas.Decimal
