import ClassAtlas.Text.Entities
import ClassAtlas.Text.Units

/-!
Character references in marked-up text: `&name;`, and `&#number;` in decimal or
hexadecimal. What is no reference stands for itself. A name that older pages use
without a semicolon is also found at the start of a longer run of letters and digits.
-/
namespace ClassAtlas.Text.References

def isAlphanumeric (c : Char) : Bool := c.isAlphanum

/-- The value of a digit in the given base. -/
def digit? (hex : Bool) (c : Char) : Option Nat :=
  if '0' ≤ c ∧ c ≤ '9' then some (c.toNat - 48)
  else if hex ∧ 'a' ≤ c ∧ c ≤ 'f' then some (c.toNat - 87)
  else if hex ∧ 'A' ≤ c ∧ c ≤ 'F' then some (c.toNat - 55)
  else none

/-- Where the numbers 128 to 159 lead: to the characters an older code page has there. -/
def codePage : List Nat :=
  [0x20AC, 0x81, 0x201A, 0x192, 0x201E, 0x2026, 0x2020, 0x2021, 0x2C6, 0x2030, 0x160, 0x2039,
   0x152, 0x8D, 0x17D, 0x8F, 0x90, 0x2018, 0x2019, 0x201C, 0x201D, 0x2022, 0x2013, 0x2014,
   0x2DC, 0x2122, 0x161, 0x203A, 0x153, 0x9D, 0x17E, 0x178]

/-- The character of a number. What is no character becomes U+FFFD. -/
def charOfNumber (n : Nat) : Char :=
  if 0x80 ≤ n ∧ n ≤ 0x9F then Char.ofNat (codePage.getD (n - 0x80) 0)
  else if n = 0 ∨ (0xD800 ≤ n ∧ n < 0xE000) ∨ 0x10FFFF < n then Units.replacement
  else Char.ofNat n

/-- One where a semicolon follows. -/
def semicolon : List Char → Nat
  | ';' :: _ => 1
  | _ => 0

/-- A reference by number, given what follows `#`: the character and the length of what
spells it. A single decimal digit needs a semicolon, and `x` needs a digit or one.
Numbers are taken modulo `2 ^ 32`. -/
def number? (cs : List Char) : Option (List Char × Nat) :=
  let (hex, body) := match cs with
    | 'x' :: rest | 'X' :: rest => (true, rest)
    | _ => (false, cs)
  let digits := body.takeWhile fun c => (digit? hex c).isSome
  let value := digits.foldl (fun n c => (if hex then 16 else 10) * n + (digit? hex c).getD 0) 0
  let length := digits.length + semicolon (body.drop digits.length)
  if (if hex then 1 else 2) ≤ length then
    some ([charOfNumber (value % 4294967296)], length + if hex then 1 else 0)
  else none

/-- The names that marked-up text cannot do without. -/
def basic : List (List Char × Nat) :=
  [(['a', 'm', 'p', ';'], 38), (['l', 't', ';'], 60), (['g', 't', ';'], 62), (['q', 'u', 'o', 't', ';'], 34)]

def name? (name : List Char) : Option (List Char) :=
  match basic.find? (·.1 == name) with
  | some (_, n) => some [Char.ofNat n]
  | none => (Entities.find? (String.ofList name)).map fun ns => ns.map Char.ofNat

/-- The longest known name of two letters or more among the first `n` characters. -/
def longestName? (cs : List Char) : Nat → Option (List Char × Nat)
  | 0 | 1 => none
  | n + 1 =>
    match name? (cs.take (n + 1)) with
    | some chars => some (chars, n + 1)
    | none => longestName? cs n

/-- The length of the longest name that needs no semicolon. -/
def longestBare : Nat := 6

/-- A reference by name. -/
def named? (cs : List Char) : Option (List Char × Nat) :=
  let letters := (cs.takeWhile isAlphanumeric).length
  let length := letters + semicolon (cs.drop letters)
  match name? (cs.take length) with
  | some chars => some (chars, length)
  | none => longestName? cs (min (length - 1) longestBare)

/-- The reference that follows an ampersand: its characters and the length of its text. -/
def reference? : List Char → Option (List Char × Nat)
  | '#' :: rest => (number? rest).map fun (chars, n) => (chars, n + 1)
  | cs => named? cs

/-- Replaces references; `skip` characters of the last one are still to be passed over. -/
def unescapeFrom : Nat → List Char → List Char
  | _, [] => []
  | skip + 1, _ :: rest => unescapeFrom skip rest
  | 0, c :: rest =>
    if c = '&' then
      match reference? rest with
      | some (chars, n) => chars ++ unescapeFrom n rest
      | none => c :: unescapeFrom 0 rest
    else c :: unescapeFrom 0 rest

def unescape (cs : List Char) : List Char := unescapeFrom 0 cs

end ClassAtlas.Text.References
