import ClassAtlas.Decimal.Integer

/-!
Whole numbers as a command line has them: a sign, a mark of the base, and digits that
underscores may group. The marks are `0b`, `0o` and `0x`; a zero in front without a
letter means base eight. An underscore stands between digits, where a mark counts as one.
-/
namespace ClassAtlas.Command.Numeral
open Decimal

/-- The value of a digit or a letter as a digit. -/
def digit? (c : Char) : Option Nat :=
  if c.isDigit then some (c.toNat - '0'.toNat)
  else if c.isAlpha then some (c.toLower.toNat - 'a'.toNat + 10)
  else none

/-- Adds digits to a magnitude of 64 bits, passing over underscores. -/
def digits (base n : Nat) : List Char → Except IntegerFault Nat
  | [] => .ok n
  | c :: rest =>
    if c = '_' then digits base n rest
    else match digit? c with
      | none => .error .malformed
      | some d =>
        if d < base then
          if n * base + d < Nat.pow 2 64 then digits base (n * base + d) rest else .error .outOfRange
        else .error .malformed

/-- Whether every underscore stands between digits; `afterDigit` tells what came before. -/
def isGrouped (afterDigit : Bool) : List Char → Bool
  | [] => afterDigit
  | c :: rest => if c = '_' then afterDigit && isGrouped false rest else isGrouped true rest

/-- Reads the digits of a base. -/
def inBase (base : Nat) (afterMark : Bool) (cs : List Char) : Except IntegerFault Nat := do
  let n ← digits base 0 cs
  if isGrouped afterMark cs then return n else throw .malformed

/-- The base that a letter behind a zero marks. -/
def base? (c : Char) : Option Nat :=
  match c.toLower with
  | 'b' => some 2
  | 'o' => some 8
  | 'x' => some 16
  | _ => none

def magnitude : List Char → Except IntegerFault Nat
  | '0' :: c :: d :: rest =>
    match base? c with
    | some base => inBase base true (d :: rest)
    | none => inBase 8 true (c :: d :: rest)
  | '0' :: rest => inBase 8 true rest
  | cs => inBase 10 false cs

def parse (s : String) : Except IntegerFault Int := Integer.withSign magnitude s.toList

end ClassAtlas.Command.Numeral
