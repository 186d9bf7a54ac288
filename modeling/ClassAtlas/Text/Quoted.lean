import ClassAtlas.Bytes
import ClassAtlas.Text.Printable
import ClassAtlas.Text.Utf8

/-!
Text between double quotes, as messages show it. Printable characters stand for
themselves, the quote and the backslash follow a backslash, and every other
character is an escape: a letter for the common controls, `\x` and two digits for
the other ASCII ones, `\u` or `\U` and four or eight digits above ASCII.
-/
namespace ClassAtlas.Text.Quoted

/-- The lowest `width` hexadecimal digits of `n`. -/
def hexDigits : Nat → Nat → List Char
  | 0, _ => []
  | width + 1, n => hexDigits width (n / 16) ++ [Bytes.hexDigit (n % 16)]

/-- The letter that names a control character. -/
def controlLetter? (c : Char) : Option Char :=
  match c.toNat with
  | 7 => some 'a'
  | 8 => some 'b'
  | 9 => some 't'
  | 10 => some 'n'
  | 11 => some 'v'
  | 12 => some 'f'
  | 13 => some 'r'
  | _ => none

def encodeChar (quote : Char) (c : Char) : List Char :=
  if c = quote ∨ c = '\\' then ['\\', c]
  else if printables.contains c then [c]
  else match controlLetter? c with
    | some letter => ['\\', letter]
    | none =>
      if c.toNat < 0x80 then '\\' :: 'x' :: hexDigits 2 c.toNat
      else if c.toNat < 0x10000 then '\\' :: 'u' :: hexDigits 4 c.toNat
      else '\\' :: 'U' :: hexDigits 8 c.toNat

def encode (s : String) : String :=
  String.ofList ('"' :: s.toList.flatMap (encodeChar '"') ++ ['"'])

/-- The escapes of bytes that may be no text; `skip` bytes of a character are still to be
passed over. A byte that belongs to no character is `\x` and two digits. -/
def encodeFrom : Nat → Bytes → List Char
  | _, [] => []
  | skip + 1, _ :: rest => encodeFrom skip rest
  | 0, b :: rest =>
    match Utf8.group? (b :: rest) with
    | some (c, n) => encodeChar '"' c ++ encodeFrom (n - 1) rest
    | none => '\\' :: 'x' :: hexDigits 2 b.toNat ++ encodeFrom 0 rest

def encodeBytes (bytes : Bytes) : String := String.ofList ('"' :: encodeFrom 0 bytes ++ ['"'])

/-- A character between single quotes. A double quote needs no escape there. -/
def encodeSingle (c : Char) : String :=
  String.ofList ('\'' :: encodeChar '\'' c ++ ['\''])

end ClassAtlas.Text.Quoted
