import ClassAtlas.Bytes
import ClassAtlas.Text.Quoted

/-!
JSON values and their two written forms, on one line and indented. A string is
written so that it can stand inside markup: the angle brackets and the ampersand are
escapes too, as are the two line separators above ASCII.
-/
namespace ClassAtlas.Json

/-- A value. A number keeps its spelling; the members of an object keep their order. -/
inductive Value where
  | null
  | bool (value : Bool)
  | number (spelling : String)
  | string (value : String)
  | array (elements : List Value)
  | object (members : List (String × Value))

/-- A list of strings. -/
def Value.strings (xs : List String) : Value := .array (xs.map .string)

/-- `null` in place of an absent list. -/
def Value.strings? : Option (List String) → Value
  | none => .null
  | some xs => .strings xs

/-! ### Strings -/

/-- The letter of a two-character escape. -/
def escapeLetter? (c : Char) : Option Char :=
  match c.toNat with
  | 8 => some 'b'
  | 9 => some 't'
  | 10 => some 'n'
  | 12 => some 'f'
  | 13 => some 'r'
  | 34 => some '"'
  | 92 => some '\\'
  | _ => none

/-- Characters written as `\u` and four digits. -/
def isCoded (c : Char) : Bool :=
  c.toNat < 0x20 || c = '<' || c = '>' || c = '&' || c.toNat = 0x2028 || c.toNat = 0x2029

def escapeChar (c : Char) : List Char :=
  match escapeLetter? c with
  | some letter => ['\\', letter]
  | none => if isCoded c then '\\' :: 'u' :: Text.Quoted.hexDigits 4 c.toNat else [c]

def quote (s : String) : List Char := '"' :: s.toList.flatMap escapeChar ++ ['"']

/-! ### One line -/

/-- Texts with a separator between each two. -/
def joined (separator : List Char) : List (List Char) → List Char
  | [] => []
  | [t] => t
  | t :: rest => t ++ separator ++ joined separator rest

mutual
def Value.compact : Value → List Char
  | .null => "null".toList
  | .bool b => (if b then "true" else "false").toList
  | .number s => s.toList
  | .string s => quote s
  | .array vs => '[' :: joined [','] (compactAll vs) ++ [']']
  | .object ms => '\x7b' :: joined [','] (compactMembers ms) ++ ['\x7d']

def compactAll : List Value → List (List Char)
  | [] => []
  | v :: rest => v.compact :: compactAll rest

def compactMembers : List (String × Value) → List (List Char)
  | [] => []
  | (k, v) :: rest => (quote k ++ ':' :: v.compact) :: compactMembers rest
end

/-! ### Indented -/

/-- A line break and two blanks for each level. -/
def newline (level : Nat) : List Char := '\n' :: List.replicate (2 * level) ' '

/-- The parts of a list or an object, a line each, one level deeper than the brackets. -/
def block (opening closing : Char) (level : Nat) (parts : List (List Char)) : List Char :=
  if parts.isEmpty then [opening, closing]
  else opening :: newline (level + 1) ++ joined (',' :: newline (level + 1)) parts ++
    newline level ++ [closing]

mutual
def Value.indented (level : Nat) : Value → List Char
  | .null => "null".toList
  | .bool b => (if b then "true" else "false").toList
  | .number s => s.toList
  | .string s => quote s
  | .array vs => block '[' ']' level (indentedAll (level + 1) vs)
  | .object ms => block '\x7b' '\x7d' level (indentedMembers (level + 1) ms)

def indentedAll (level : Nat) : List Value → List (List Char)
  | [] => []
  | v :: rest => v.indented level :: indentedAll level rest

def indentedMembers (level : Nat) : List (String × Value) → List (List Char)
  | [] => []
  | (k, v) :: rest => (quote k ++ ':' :: ' ' :: v.indented level) :: indentedMembers level rest
end

def Value.toLine (v : Value) : String := String.ofList v.compact

def Value.toLines (v : Value) : String := String.ofList (v.indented 0)

end ClassAtlas.Json
