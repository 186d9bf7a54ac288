import ClassAtlas.Text.Quoted

/-!
Lengths of time: decimal numbers, each with its unit, one after another behind a sign.
They are counted in nanoseconds and stay within 64 bits. A zero needs no unit.
-/
namespace ClassAtlas.Command.Duration

inductive Fault where
  | malformed
  | missingUnit
  | unknownUnit (unit : String)
deriving Repr, DecidableEq

/-- A character between quotes: outside printable ASCII its bytes are shown. -/
def quoteChar (c : Char) : List Char :=
  if c = '"' ∨ c = '\\' then ['\\', c]
  else if c.toNat < 0x20 ∨ 0x80 ≤ c.toNat then
    (Text.Utf8.encode (String.singleton c)).flatMap fun b => '\\' :: 'x' :: Text.Quoted.hexDigits 2 b.toNat
  else [c]

def quote (s : String) : String := String.ofList ('"' :: s.toList.flatMap quoteChar ++ ['"'])

def Fault.message (written : String) : Fault → String
  | malformed => "time: invalid duration " ++ quote written
  | missingUnit => "time: missing unit in duration " ++ quote written
  | unknownUnit unit => "time: unknown unit " ++ quote unit ++ " in duration " ++ quote written

/-- The nanoseconds of a unit. The sign for micro is known in both of its spellings. -/
def unit? : String → Option Nat
  | "ns" => some 1
  | "us" | "µs" | "μs" => some 1000
  | "ms" => some 1000000
  | "s" => some 1000000000
  | "m" => some 60000000000
  | "h" => some 3600000000000
  | _ => none

def isNumeric (c : Char) : Bool := c.isDigit || c = '.'

def value (digits : List Char) : Nat := digits.foldl (fun n c => n * 10 + (c.toNat - '0'.toNat)) 0

def limit : Nat := Nat.pow 2 63

/-- One number with its unit. -/
def component (cs : List Char) : Except Fault Nat := do
  let whole := cs.takeWhile Char.isDigit
  let afterWhole := cs.dropWhile Char.isDigit
  let (fraction, rest) := match afterWhole with
    | '.' :: r => (r.takeWhile Char.isDigit, r.dropWhile Char.isDigit)
    | r => ([], r)
  if limit < value whole ∨ (whole ++ fraction).isEmpty then throw .malformed
  let unit := String.ofList (rest.takeWhile (!isNumeric ·))
  if unit = "" then throw .missingUnit
  match unit? unit with
  | none => throw (.unknownUnit unit)
  | some n =>
    let total := value whole * n + value fraction * n / Nat.pow 10 fraction.length
    if limit < total then throw .malformed else return total

/-- The parts of a text: a new one begins where a number follows a unit. -/
def components (cs : List Char) : List (List Char) :=
  cs.splitBy fun a b => isNumeric a || !isNumeric b

def magnitude (cs : List Char) : Except Fault Nat :=
  if cs = ['0'] then .ok 0
  else if cs.isEmpty then .error .malformed
  else (components cs).foldlM (fun sum part => do
    let n ← component part
    if limit < sum + n then throw .malformed else return sum + n) 0

def parseList : List Char → Except Fault Int
  | '-' :: rest => (fun n => -(n : Int)) <$> magnitude rest
  | cs => do
    let n ← magnitude (if cs.head? = some '+' then cs.tail else cs)
    if n < limit then return n else throw .malformed

def parse (s : String) : Except Fault Int := parseList s.toList

end ClassAtlas.Command.Duration
