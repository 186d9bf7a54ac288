import ClassAtlas.Decimal.Shortest

/-!
The text of a floating-point constant. A magnitude of at least one thousandth and
below ten million is written with its digits in place, any other with one digit
before the point and a power of ten after `E`; at least one digit follows the point.
-/
namespace ClassAtlas.Decimal

/-- The digits with the point `places` digits from their start. -/
def placed (digits : List Char) (places : Int) : List Char :=
  if places ≤ 0 then '0' :: '.' :: (List.replicate (-places).toNat '0' ++ digits)
  else if (digits.length : Int) ≤ places then
    digits ++ List.replicate (places.toNat - digits.length) '0' ++ ['.', '0']
  else digits.take places.toNat ++ '.' :: digits.drop places.toNat

/-- One digit, the point, the other digits, and the power of ten. -/
def scientific (digits : List Char) (power : Int) : List Char :=
  let fraction := if digits.length ≤ 1 then ['0'] else digits.drop 1
  digits.take 1 ++ '.' :: fraction ++ 'E' :: (toString power).toList

/-- Whether the magnitude is at least `10 ^ -3` and below `10 ^ 7`. -/
def Binary.isModerate (b : Binary) : Bool :=
  let (up, down) := powerParts 2 b.exponent
  down ≤ b.significand * up * 1000 && b.significand * up < 10000000 * down

def Binary.spell (b : Binary) : List Char :=
  let d := b.shortest
  let digits := Nat.toDigits 10 d.digits
  let places := (digits.length : Int) + d.exponent
  if b.isModerate then placed digits places else scientific digits (places - 1)

def sign (negative : Bool) : List Char := if negative then ['-'] else []

def Ieee.Value.spell : Ieee.Value → String
  | .nan => "NaN"
  | .infinite negative => String.ofList (sign negative ++ "Infinity".toList)
  | .zero negative => String.ofList (sign negative ++ "0.0".toList)
  | .finite negative b => String.ofList (sign negative ++ b.spell)

end ClassAtlas.Decimal
