import ClassAtlas.Json.Value
import ClassAtlas.Text.Units
import ClassAtlas.Text.Utf8

/-!
Reading JSON. A text that is no value is refused at the first character that cannot
go on, or at its end; the fault tells what was being read there.
-/
namespace ClassAtlas.Json

/-- What was being read when a character could not go on. -/
inductive Expectation where
  | value | objectKey | afterKey | afterMember | afterElement | afterValue
  | string | escape | hexEscape
  | numeral | fraction | exponent
  /-- A fixed word, with the character it needs next. -/
  | word (word : String) (next : Char)
  | depth
deriving Repr, DecidableEq

def Expectation.phrase : Expectation → String
  | value => "looking for beginning of value"
  | objectKey => "looking for beginning of object key string"
  | afterKey => "after object key"
  | afterMember => "after object key:value pair"
  | afterElement => "after array element"
  | afterValue => "after top-level value"
  | string => "in string literal"
  | escape => "in string escape code"
  | hexEscape => "in \\u hexadecimal character escape"
  | numeral => "in numeric literal"
  | fraction => "after decimal point in numeric literal"
  | exponent => "in exponent of numeric literal"
  | word w next => "in literal " ++ w ++ " (expecting " ++ Text.Quoted.encodeSingle next ++ ")"
  | depth => "exceeded max depth"

inductive Fault where
  | endOfInput
  | character (found : Char) (expectation : Expectation)
deriving Repr, DecidableEq

/-- The character of the first byte of a character's encoding, by which it is reported. -/
def firstByte (c : Char) : Char :=
  match String.utf8EncodeChar c with
  | b :: _ => Char.ofNat b.toNat
  | [] => c

def Fault.message : Fault → String
  | endOfInput => "unexpected end of JSON input"
  | character found expectation =>
    "invalid character " ++ Text.Quoted.encodeSingle (firstByte found) ++ " " ++ expectation.phrase

/-- A step that reads the front of a text and returns the rest of it. -/
abbrev Step (α : Type) := List Char → Except Fault (α × List Char)

/-- The fault of a text that cannot go on. -/
def stuck (expectation : Expectation) : List Char → Fault
  | [] => .endOfInput
  | c :: _ => .character c expectation

def isBlank (c : Char) : Bool := c = ' ' || c = '\t' || c = '\n' || c = '\r'

def skipBlanks (cs : List Char) : List Char := cs.dropWhile isBlank

/-! ### Strings -/

def hexDigit? (c : Char) : Option Nat :=
  if '0' ≤ c ∧ c ≤ '9' then some (c.toNat - 48)
  else if 'a' ≤ c ∧ c ≤ 'f' then some (c.toNat - 87)
  else if 'A' ≤ c ∧ c ≤ 'F' then some (c.toNat - 55)
  else none

/-- A number of hexadecimal digits in front of a text. -/
def hexNumber : Nat → Nat → Step Nat
  | 0, n, cs => .ok (n, cs)
  | width + 1, n, cs =>
    match cs with
    | [] => .error .endOfInput
    | c :: rest =>
      match hexDigit? c with
      | some d => hexNumber width (16 * n + d) rest
      | none => .error (.character c .hexEscape)

/-- The character that a two-character escape stands for. -/
def escaped? : Char → Option Char
  | 'b' => some (Char.ofNat 8)
  | 'f' => some (Char.ofNat 12)
  | 'n' => some '\n'
  | 'r' => some '\r'
  | 't' => some '\t'
  | '\\' => some '\\'
  | '/' => some '/'
  | '"' => some '"'
  | _ => none

/-- A piece of a string: a character, or a 16-bit unit given by its number. -/
inductive Piece where
  | char (c : Char)
  | unit (u : UInt16)

/-- The pieces up to the closing quote; `fuel` bounds their number. -/
def pieces : Nat → List Piece → Step (List Piece)
  | 0, _, cs => .error (stuck .string cs)
  | fuel + 1, found, cs =>
    match cs with
    | [] => .error .endOfInput
    | '"' :: rest => .ok (found.reverse, rest)
    | '\\' :: rest =>
      match rest with
      | [] => .error .endOfInput
      | 'u' :: rest =>
        match hexNumber 4 0 rest with
        | .ok (n, rest) => pieces fuel (.unit (UInt16.ofNat n) :: found) rest
        | .error e => .error e
      | c :: rest =>
        match escaped? c with
        | some d => pieces fuel (.char d :: found) rest
        | none => .error (.character c .escape)
    | c :: rest =>
      if c.toNat < 0x20 then .error (.character c .string) else pieces fuel (.char c :: found) rest

/-- Units that follow each other form surrogate pairs; one that stands alone becomes U+FFFD. -/
def assemble : List Piece → List Char
  | [] => []
  | .char c :: rest => c :: assemble rest
  | [.unit u] => [Text.Units.single u]
  | .unit u :: .char c :: rest => Text.Units.single u :: c :: assemble rest
  | .unit u :: .unit v :: rest =>
    if Text.Units.isHigh u && Text.Units.isLow v then Text.Units.pair u v :: assemble rest
    else Text.Units.single u :: assemble (.unit v :: rest)

/-- The string behind an opening quote. -/
def stringBody (cs : List Char) : Except Fault (String × List Char) := do
  let (ps, rest) ← pieces (cs.length + 1) [] cs
  return (String.ofList (assemble ps), rest)

/-! ### Words and numbers -/

/-- The rest of a fixed word. -/
def wordBody (whole : String) : List Char → Step Unit
  | [], cs => .ok ((), cs)
  | w :: ws, cs =>
    match cs with
    | [] => .error .endOfInput
    | c :: rest => if c = w then wordBody whole ws rest else .error (.character c (.word whole w))

def isDigit (c : Char) : Bool := '0' ≤ c && c ≤ '9'

/-- One digit or more. -/
def digits (expectation : Expectation) (cs : List Char) : Except Fault (List Char × List Char) :=
  match cs.takeWhile isDigit with
  | [] => .error (stuck expectation cs)
  | ds => .ok (ds, cs.dropWhile isDigit)

/-- The digits before the point: a zero stands alone. -/
def whole (cs : List Char) : Except Fault (List Char × List Char) :=
  match cs with
  | '0' :: rest => .ok (['0'], rest)
  | _ => digits .numeral cs

def fraction (cs : List Char) : Except Fault (List Char × List Char) :=
  match cs with
  | '.' :: rest => do
    let (ds, rest) ← digits .fraction rest
    return ('.' :: ds, rest)
  | _ => .ok ([], cs)

def exponent (cs : List Char) : Except Fault (List Char × List Char) :=
  match cs with
  | e :: rest =>
    if e = 'e' ∨ e = 'E' then
      match rest with
      | s :: rest' =>
        if s = '+' ∨ s = '-' then do
          let (ds, rest) ← digits .exponent rest'
          return (e :: s :: ds, rest)
        else do
          let (ds, rest) ← digits .exponent rest
          return (e :: ds, rest)
      | [] => .error .endOfInput
    else .ok ([], cs)
  | [] => .ok ([], cs)

def number (cs : List Char) : Except Fault (String × List Char) := do
  let (sign, cs) := match cs with
    | '-' :: rest => (['-'], rest)
    | _ => ([], cs)
  let (w, cs) ← whole cs
  let (f, cs) ← fraction cs
  let (e, cs) ← exponent cs
  return (String.ofList (sign ++ w ++ f ++ e), cs)

/-! ### Values -/

/-- How deep lists and objects may be nested. -/
def maxDepth : Nat := 10000

mutual
/-- A value behind blanks; `depth` more levels may be opened, and `fuel` bounds the work. -/
def value : (fuel depth : Nat) → Step Value
  | 0, _, cs => .error (stuck .value cs)
  | fuel + 1, depth, cs =>
    match skipBlanks cs with
    | [] => .error .endOfInput
    | c :: rest =>
      if c = '"' then
        match stringBody rest with
        | .ok (s, rest) => .ok (.string s, rest)
        | .error e => .error e
      else if c = '[' then
        if depth = 0 then .error (.character c .depth)
        else match skipBlanks rest with
          | ']' :: rest => .ok (.array [], rest)
          | rest =>
            match elements fuel (depth - 1) rest with
            | .ok (vs, rest) => .ok (.array vs, rest)
            | .error e => .error e
      else if c = '\x7b' then
        if depth = 0 then .error (.character c .depth)
        else match skipBlanks rest with
          | '\x7d' :: rest => .ok (.object [], rest)
          | rest =>
            match members fuel (depth - 1) rest with
            | .ok (ms, rest) => .ok (.object ms, rest)
            | .error e => .error e
      else if c = 't' then (wordBody "true" ['r', 'u', 'e'] rest).map fun (_, rest) => (.bool true, rest)
      else if c = 'f' then
        (wordBody "false" ['a', 'l', 's', 'e'] rest).map fun (_, rest) => (.bool false, rest)
      else if c = 'n' then (wordBody "null" ['u', 'l', 'l'] rest).map fun (_, rest) => (.null, rest)
      else if c = '-' ∨ isDigit c then (number (c :: rest)).map fun (s, rest) => (.number s, rest)
      else .error (.character c .value)

/-- One value or more with commas between them, and the closing bracket. -/
def elements : (fuel depth : Nat) → Step (List Value)
  | 0, _, cs => .error (stuck .value cs)
  | fuel + 1, depth, cs =>
    match value fuel depth cs with
    | .error e => .error e
    | .ok (v, rest) =>
      match skipBlanks rest with
      | ']' :: rest => .ok ([v], rest)
      | ',' :: rest =>
        match elements fuel depth rest with
        | .ok (vs, rest) => .ok (v :: vs, rest)
        | .error e => .error e
      | rest => .error (stuck .afterElement rest)

/-- One member or more with commas between them, and the closing brace. -/
def members : (fuel depth : Nat) → Step (List (String × Value))
  | 0, _, cs => .error (stuck .objectKey cs)
  | fuel + 1, depth, cs =>
    match skipBlanks cs with
    | '"' :: rest =>
      match stringBody rest with
      | .error e => .error e
      | .ok (k, rest) =>
        match skipBlanks rest with
        | ':' :: rest =>
          match value fuel depth rest with
          | .error e => .error e
          | .ok (v, rest) =>
            match skipBlanks rest with
            | '\x7d' :: rest => .ok ([(k, v)], rest)
            | ',' :: rest =>
              match members fuel depth rest with
              | .ok (ms, rest) => .ok ((k, v) :: ms, rest)
              | .error e => .error e
            | rest => .error (stuck .afterMember rest)
        | rest => .error (stuck .afterKey rest)
    | cs => .error (stuck .objectKey cs)
end

/-- Reads a text that holds one value and blanks around it. -/
def parse (text : String) : Except Fault Value :=
  let cs := text.toList
  match value (2 * cs.length + 2) maxDepth cs with
  | .error e => .error e
  | .ok (v, rest) =>
    match skipBlanks rest with
    | [] => .ok v
    | c :: _ => .error (.character c .afterValue)

end ClassAtlas.Json
