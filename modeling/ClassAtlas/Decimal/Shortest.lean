import ClassAtlas.Decimal.Ieee

/-!
The shortest decimal that reads back as a given binary number. Grids of powers
of ten are tried from the coarsest one down; on each, only the two neighbours of
the number can lie among the reals that round to it. The first grid with a hit
wins, the nearer of two hits is taken, and a tie goes to the even one.
-/
namespace ClassAtlas.Decimal

/-- The number `digits · 10 ^ exponent`. -/
structure Scaled where
  digits : Nat
  exponent : Int
deriving Repr, DecidableEq

/-- `base ^ exponent` as a fraction. -/
def powerParts (base : Nat) (exponent : Int) : Nat × Nat :=
  if 0 ≤ exponent then (Nat.pow base exponent.toNat, 1) else (1, Nat.pow base (-exponent).toNat)

def digitCount (n : Nat) : Nat := (Nat.toDigits 10 n).length

namespace Binary

/-- The lower end of the reals that round to the number, in quarters of a unit in the last place. -/
def low (b : Binary) : Nat := 4 * b.significand - if b.narrow then 1 else 2

def high (b : Binary) : Nat := 4 * b.significand + 2

/-- Whether the ends of the interval round to the number too. -/
def closed (b : Binary) : Bool := b.significand % 2 == 0

/-- With the point `a` of the grid `10 ^ i` compared as `a * grid` and `u` quarters
of the number's last place as `u * quarter`: the pair `(grid, quarter)`. -/
def scales (b : Binary) (i : Int) : Nat × Nat :=
  let (tenUp, tenDown) := powerParts 10 i
  let (twoUp, twoDown) := powerParts 2 (b.exponent - 2)
  (tenUp * twoDown, twoUp * tenDown)

/-- Whether `a · 10 ^ i` rounds to the number. -/
def hits (b : Binary) (i : Int) (a : Nat) : Bool :=
  let (grid, quarter) := b.scales i
  if b.closed then b.low * quarter ≤ a * grid && a * grid ≤ b.high * quarter
  else b.low * quarter < a * grid && a * grid < b.high * quarter

/-- The greatest `a` with `a · 10 ^ i` at most the number. -/
def below (b : Binary) (i : Int) : Nat :=
  let (grid, quarter) := b.scales i
  4 * b.significand * quarter / grid

/-- Of the neighbours `a` and `a + 1` on the grid, the nearer; a tie goes to the even one. -/
def nearer (b : Binary) (i : Int) : Nat :=
  let (grid, quarter) := b.scales i
  let a := b.below i
  let twice := 8 * b.significand * quarter
  let middle := (2 * a + 1) * grid
  if twice < middle then a
  else if middle < twice then a + 1
  else if a % 2 = 0 then a else a + 1

def hit? (b : Binary) (i : Int) : Option Nat :=
  let a := b.below i
  match b.hits i a, b.hits i (a + 1) with
  | true, true => some (b.nearer i)
  | true, false => some a
  | false, true => some (a + 1)
  | false, false => none

/-- The exponent of the grid on which the number has one digit. -/
def leading (b : Binary) : Int :=
  let (up, down) := powerParts 2 b.exponent
  let n := b.significand * up
  if down ≤ n then (digitCount (n / down) : Int) - 1
  else
    let s := digitCount (down / n)
    if n * Nat.pow 10 (s - 1) = down then 1 - (s : Int) else -(s : Int)

/-- Tries `fuel` grids from `10 ^ i` down; the last resort is the number cut there. -/
def scan (b : Binary) : Nat → Int → Scaled
  | 0, i => ⟨b.below i, i⟩
  | fuel + 1, i =>
    match b.hit? i with
    | some a => ⟨a, i⟩
    | none => b.scan fuel (i - 1)

end Binary

/-- The same number without trailing zeros; `fuel` bounds their count. -/
def Scaled.strip : Nat → Scaled → Scaled
  | 0, d => d
  | fuel + 1, d =>
    if d.digits ≠ 0 ∧ d.digits % 10 = 0 then Scaled.strip fuel ⟨d.digits / 10, d.exponent + 1⟩ else d

/-- Twenty grids are more than any 64-bit pattern needs. -/
def Binary.shortest (b : Binary) : Scaled :=
  let d := b.scan 20 b.leading
  d.strip (digitCount d.digits)

end ClassAtlas.Decimal
