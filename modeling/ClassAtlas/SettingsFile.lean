import ClassAtlas.Text.Blank
import ClassAtlas.Text.Utf8

/-!
Files of variables. A statement is a name, an equals sign or a colon, and a value, with
`export` in front or not. A value ends with its line, where a comment behind a blank is
left out of it, or stands in quotes and may span lines. Values refer to variables that
were set before them in the same file, except in single quotes; in double quotes a
backslash escapes. One bad statement spoils the file.
-/
namespace ClassAtlas.SettingsFile

abbrev Variables := List (String × String)

/-- A blank inside a line. -/
def isGap (c : Char) : Bool :=
  c = '\t' || c = '\x0b' || c = '\x0c' || c = '\r' || c = ' ' || c.toNat = 0x85 || c.toNat = 0xA0

/-- Text with a line feed in place of each carriage return and line feed. -/
def unixLines : List Char → List Char
  | [] => []
  | '\r' :: '\n' :: rest => '\n' :: unixLines rest
  | c :: rest => c :: unixLines rest

/-- The text from the next statement on: blanks are passed over, and comments, inside one
of which the text may start. -/
def statementStart (inComment : Bool) : List Char → List Char
  | [] => []
  | c :: rest =>
    if inComment then statementStart (c ≠ '\n') rest
    else if Text.isBlank c then statementStart false rest
    else if c = '#' then statementStart true rest
    else c :: rest

/-! ### Names -/

/-- Whether a byte can stand in a name: a letter, a number or a blank of the first 256
characters, an underscore or a point. -/
def isNameByte (b : UInt8) : Bool :=
  let n := b.toNat
  let c := Char.ofNat n
  c.isAlphanum || c = '_' || c = '.' || isGap c ||
    n ∈ [0xAA, 0xB2, 0xB3, 0xB5, 0xB9, 0xBA, 0xBC, 0xBD, 0xBE] || (0xC0 ≤ n && n ≠ 0xD7 && n ≠ 0xF7)

/-- Names are checked byte by byte. -/
def isNameChar (c : Char) : Bool := (Text.Utf8.encode (String.singleton c)).all isNameByte

def isSeparator (c : Char) : Bool := c = '=' || c = ':'

/-- The text behind `export` and blanks, if it starts so. -/
def skipExport (cs : List Char) : List Char :=
  let word := "export".toList
  if word.isPrefixOf cs then
    match cs.drop word.length with
    | c :: rest => if isGap c then rest.dropWhile isGap else cs
    | [] => cs
  else cs

/-- A statement's name and the text behind its separator. The end of the file ends a name
too: then there is no separator, and the name is empty. -/
def name? (cs : List Char) : Option (String × List Char) :=
  let cs := skipExport cs
  let name := cs.takeWhile (!isSeparator ·)
  if !name.all isNameChar then none
  else match cs.dropWhile (!isSeparator ·) with
    | _ :: rest => some (String.ofList (name.reverse.dropWhile Text.isBlank).reverse, rest.dropWhile isGap)
    | [] => some ("", [])

/-! ### References to variables -/

def isReferenceChar (c : Char) : Bool := ('A' ≤ c && c ≤ 'Z') || c.isDigit || c = '_'

/-- The text without a leading character of the given kind. -/
def dropOne (p : Char → Bool) : List Char → List Char
  | [] => []
  | c :: rest => if p c then rest else c :: rest

/-- What a reference behind its dollar sign names, and the text after it. -/
def reference (cs : List Char) : List Char × List Char :=
  let inner := dropOne (· == '\x7b') (dropOne (· == '(') cs)
  (inner.takeWhile isReferenceChar, dropOne (· == '\x7d') (inner.dropWhile isReferenceChar))

/-- Replaces references by values. One behind a backslash only loses the backslash, and
one without a name stays. `skip` characters of a reference are still to be passed over. -/
def expand (vars : Variables) : (skip : Nat) → List Char → List Char
  | _, [] => []
  | skip + 1, _ :: rest => expand vars skip rest
  | 0, c :: rest =>
    if c = '\\' ∧ rest.head? = some '$' then
      let kept := rest.length - (reference rest.tail).2.length
      rest.take kept ++ expand vars kept rest
    else if c = '$' then
      let (name, after) := reference rest
      let kept := rest.length - after.length
      let text := if name.isEmpty then c :: rest.take kept
        else ((vars.lookup (String.ofList name)).getD "").toList
      text ++ expand vars kept rest
    else c :: expand vars 0 rest

/-! ### Values -/

/-- A line up to the last comment sign behind a blank. -/
def beforeComment (cs : List Char) : List Char :=
  let marks := (List.range cs.length).filter fun i =>
    cs[i]? = some '#' && 0 < i && (cs[i - 1]?.any isGap)
  match marks.getLast? with
  | some i => cs.take i
  | none => cs

/-- Replaces the escapes for line breaks; other escapes stay. -/
def breakLines : List Char → List Char
  | [] => []
  | '\\' :: 'n' :: rest => '\n' :: breakLines rest
  | '\\' :: 'r' :: rest => '\r' :: breakLines rest
  | '\\' :: c :: rest => '\\' :: c :: breakLines rest
  | c :: rest => c :: breakLines rest

/-- Drops the backslash of every escape but that of a dollar sign. -/
def unescape : List Char → List Char
  | [] => []
  | '\\' :: '$' :: rest => '\\' :: '$' :: unescape rest
  | '\\' :: c :: rest => c :: unescape rest
  | c :: rest => c :: unescape rest

/-- The text up to a quote that no backslash precedes, and the text after it. -/
def closeQuote (quote before : Char) : List Char → Option (List Char × List Char)
  | [] => none
  | c :: rest =>
    if c = quote ∧ before ≠ '\\' then some ([], rest)
    else (closeQuote quote c rest).map fun r => (c :: r.1, r.2)

/-- A statement's value and the text behind it. -/
def value? (vars : Variables) (cs : List Char) : Option (List Char × List Char) :=
  let quoted (quote : Char) (rest : List Char) : Option (List Char × List Char) :=
    (closeQuote quote quote rest).map fun r => (Text.trimList (· == quote) r.1, r.2)
  match cs with
  | '\'' :: rest => quoted '\'' rest
  | '"' :: rest => (quoted '"' rest).map fun r => (expand vars 0 (unescape (breakLines r.1)), r.2)
  | cs =>
    let isEnd (c : Char) : Bool := c = '\n' || c = '\r'
    let text := beforeComment (cs.takeWhile (!isEnd ·))
    some (expand vars 0 (Text.trimList isGap text), cs.dropWhile (!isEnd ·))

/-! ### Whole files -/

/-- Reads statements, at most as many as `fuel`, adding to variables, the last first. -/
def statements : (fuel : Nat) → Variables → List Char → Option Variables
  | 0, vars, _ => some vars
  | fuel + 1, vars, cs =>
    match statementStart false cs with
    | [] => some vars
    | cs => do
      let (name, rest) ← name? cs
      let (value, rest) ← value? vars rest
      statements fuel ((name, String.ofList value) :: vars) rest

/-- The variables of a file; of several values of one name, the last comes first. -/
def parse (bytes : Bytes) : Option Variables :=
  let cs := unixLines (Text.Utf8.decodeLossy bytes).toList
  statements cs.length [] cs

/-- Variables together with those of a file that are not among them. A variable without
a name or with a null character in its value cannot be set. -/
def supplement (vars file : Variables) : Variables :=
  vars ++ file.filter fun (name, value) => name ≠ "" && !value.contains '\x00'

end ClassAtlas.SettingsFile
