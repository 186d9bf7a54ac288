import ClassAtlas.Text.Quoted

/-!
Percent escapes. Text of a web address is bytes; a byte may be written as `%` and two
hexadecimal digits, and each part of an address has bytes that must be.
-/
namespace ClassAtlas.Web

/-- The bytes of a text. -/
def bytesOf (s : String) : Bytes := Text.Utf8.encode s

def isChar (c : Char) (b : UInt8) : Bool := b.toNat == c.toNat

def isOneOf (cs : String) (b : UInt8) : Bool := cs.toList.any (isChar · b)

def isAlphanumeric (b : UInt8) : Bool := (Char.ofNat b.toNat).isAlphanum

/-- Bytes that need no escape anywhere. -/
def isUnreserved (b : UInt8) : Bool := isAlphanumeric b || isOneOf "-_.~" b

def hexValue? (b : UInt8) : Option Nat :=
  let n := b.toNat
  if 48 ≤ n ∧ n ≤ 57 then some (n - 48)
  else if 65 ≤ n ∧ n ≤ 70 then some (n - 55)
  else if 97 ≤ n ∧ n ≤ 102 then some (n - 87)
  else none

/-- Parts of an address that escape by different rules. -/
inductive Part where
  | path | query | fragment | user | host | zone
deriving Repr, DecidableEq

/-- What may be wrong with an address. -/
inductive UrlFault where
  | control
  | noScheme
  | colonFirst
  | relative
  | bracket
  | port (text : Bytes)
  | user
  | escape (text : Bytes)
  | hostByte (text : Bytes)
deriving Repr, DecidableEq

def UrlFault.message : UrlFault → String
  | control => "net/url: invalid control character in URL"
  | noScheme => "missing protocol scheme"
  | colonFirst => "first path segment in URL cannot contain colon"
  | relative => "invalid URI for request"
  | bracket => "missing ']' in host"
  | port text => "invalid port " ++ Text.Quoted.encodeBytes text ++ " after host"
  | user => "net/url: invalid userinfo"
  | escape text => "invalid URL escape " ++ Text.Quoted.encodeBytes text
  | hostByte text => "invalid character " ++ Text.Quoted.encodeBytes text ++ " in host name"

/-- Bytes that stand for themselves in a host name. -/
def isHostByte (b : UInt8) : Bool := isUnreserved b || isOneOf "!$&'()*+,;=:[]<>\"" b

/-- Whether a host name may have a byte escaped. -/
def mayEscape (part : Part) (value : Nat) : Bool :=
  match part with
  | .host => 128 ≤ value || value == 37
  | .zone => value == 37 || value == 32 || isHostByte (UInt8.ofNat value)
  | _ => true

/-- Replaces escapes by their bytes and, in a query, plus signs by blanks. -/
def unescape (part : Part) : Bytes → Except UrlFault Bytes
  | [] => .ok []
  | b :: rest =>
    if isChar '%' b then
      match rest with
      | x :: y :: tail =>
        match hexValue? x, hexValue? y with
        | some high, some low =>
          if mayEscape part (high * 16 + low) then (UInt8.ofNat (high * 16 + low) :: ·) <$> unescape part tail
          else .error (.escape [b, x, y])
        | _, _ => .error (.escape [b, x, y])
      | _ => .error (.escape (b :: rest))
    else if part = .query ∧ isChar '+' b then (32 :: ·) <$> unescape part rest
    else if (part = .host ∨ part = .zone) ∧ b < 128 ∧ !isHostByte b then .error (.hostByte [b])
    else (b :: ·) <$> unescape part rest

/-- The text with its escapes replaced, or as it stands when one is malformed. -/
def unescapeOrKeep (bytes : Bytes) : Bytes := (unescape .path bytes).toOption.getD bytes

def escapeByte (digit : Nat → Char) (b : UInt8) : Bytes :=
  bytesOf (String.ofList ['%', digit (b.toNat / 16), digit (b.toNat % 16)])

def upperDigit (n : Nat) : Char := (Bytes.hexDigit n).toUpper

/-- Bytes that a path shows as they are. -/
def isPathByte (b : UInt8) : Bool := isUnreserved b || isOneOf "$&+,/:;=@" b

/-- A path with all other bytes escaped. -/
def escapePath (path : Bytes) : Bytes :=
  path.flatMap fun b => if isPathByte b then [b] else escapeByte upperDigit b

/-- Whether a path may be kept as it was written. -/
def isPathText (path : Bytes) : Bool := path.all fun b => isPathByte b || isOneOf "!'()*[]%" b

end ClassAtlas.Web
