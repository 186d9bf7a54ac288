/-!
Whole numbers read from text: an optional sign and decimal digits, nothing else,
with a value of 64 bits. Digits are taken one by one, so a number that has grown
past 64 bits is out of range whatever follows.
-/
namespace ClassAtlas.Decimal

inductive IntegerFault where
  | malformed
  | outOfRange
deriving Repr, DecidableEq

def IntegerFault.message : IntegerFault → String
  | malformed => "invalid syntax"
  | outOfRange => "value out of range"

namespace Integer

/-- Adds digits to a magnitude. -/
def digits (n : Nat) : List Char → Except IntegerFault Nat
  | [] => .ok n
  | c :: rest =>
    if c.isDigit then
      let n := n * 10 + (c.toNat - '0'.toNat)
      if n < Nat.pow 2 64 then digits n rest else .error .outOfRange
    else .error .malformed

/-- The magnitude spelled by at least one digit. -/
def magnitude : List Char → Except IntegerFault Nat
  | [] => .error .malformed
  | cs => digits 0 cs

def signed (negative : Bool) (n : Nat) : Except IntegerFault Int :=
  if negative then if n ≤ Nat.pow 2 63 then .ok (-(n : Int)) else .error .outOfRange
  else if n < Nat.pow 2 63 then .ok n else .error .outOfRange

/-- Reads a sign, if there is one, and a magnitude. -/
def withSign (magnitude : List Char → Except IntegerFault Nat) : List Char → Except IntegerFault Int
  | '-' :: rest => magnitude rest >>= signed true
  | '+' :: rest => magnitude rest >>= signed false
  | cs => magnitude cs >>= signed false

def parse (s : String) : Except IntegerFault Int := withSign magnitude s.toList

end Integer
end ClassAtlas.Decimal
