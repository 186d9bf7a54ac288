import ClassAtlas.Path
import ClassAtlas.Web.Percent

/-!
Web addresses: scheme, host, path, query. A path is kept both as it was written and
with its escapes replaced. An address in a request line is read more strictly than a
reference on a page: it starts at a scheme or a slash, and what follows two slashes is
a host only behind a scheme.
-/
namespace ClassAtlas.Web

structure Url where
  scheme : Bytes
  host : Bytes
  writtenPath : Bytes
  path : Bytes
  query : Bytes
deriving Repr, DecidableEq

/-! ### Splitting -/

/-- The text before the first byte of a class and, if there is one, the text behind it. -/
def cut (p : UInt8 → Bool) (bytes : Bytes) : Bytes × Option Bytes :=
  match bytes.dropWhile (!p ·) with
  | [] => (bytes.takeWhile (!p ·), none)
  | _ :: rest => (bytes.takeWhile (!p ·), some rest)

def isSlash : UInt8 → Bool := isChar '/'

def startsWith (bytes start : Bytes) : Bool := start.isPrefixOf bytes

/-! ### Host -/

def isPort : Bytes → Bool
  | [] => true
  | b :: rest => isChar ':' b && rest.all fun d => (Char.ofNat d.toNat).isDigit

/-- The text before the last byte of a class and from it on, if there is one. -/
def cutLast? (p : UInt8 → Bool) (bytes : Bytes) : Option (Bytes × Bytes) :=
  match bytes.reverse.span (!p ·) with
  | (_, []) => none
  | (after, b :: before) => some (before.reverse, b :: after.reverse)

/-- The text before the first occurrence of another and from it on, if there is one. -/
def cutAt? (mark : Bytes) : Bytes → Option (Bytes × Bytes)
  | [] => none
  | b :: rest =>
    if startsWith (b :: rest) mark then some ([], b :: rest)
    else (cutAt? mark rest).map fun r => (b :: r.1, r.2)

/-- Reads a host with its port. A host in brackets may name a zone behind `%25`. -/
def parseHost (host : Bytes) : Except UrlFault Bytes := do
  if startsWith host (bytesOf "[") then
    match cutLast? (isChar ']') host with
    | none => throw .bracket
    | some (inner, closing) =>
      unless isPort (closing.drop 1) do throw (.port (closing.drop 1))
      match cutAt? (bytesOf "%25") inner with
      | some (address, zone) =>
        return (← unescape .host address) ++ (← unescape .zone zone) ++ (← unescape .host closing)
      | none => unescape .host host
  else
    match cutLast? (isChar ':') host with
    | some (_, port) =>
      unless isPort port do throw (.port port)
      unescape .host host
    | none => unescape .host host

def isUserByte (b : UInt8) : Bool := isAlphanumeric b || isOneOf "-._:~!$&'()*+,;=%@" b

/-- Reads what follows two slashes: a user, perhaps, and a host. -/
def parseAuthority (authority : Bytes) : Except UrlFault Bytes := do
  match cutLast? (isChar '@') authority with
  | none => parseHost authority
  | some (user, host) =>
    let host ← parseHost (host.drop 1)
    unless user.all isUserByte do throw .user
    let (name, password) := cut (isChar ':') user
    let _ ← unescape .user name
    let _ ← unescape .user (password.getD [])
    return host

/-! ### The whole -/

/-- The scheme in front of the first colon, if it is one, and the rest. -/
def splitScheme (text : Bytes) : Except UrlFault (Bytes × Bytes) :=
  let scheme := text.takeWhile fun b => isAlphanumeric b || isOneOf "+-." b
  match text.drop scheme.length, scheme with
  | b :: rest, [] => if isChar ':' b then .error .noScheme else .ok ([], b :: rest)
  | b :: rest, first :: _ =>
    if isChar ':' b ∧ (Char.ofNat first.toNat).isAlpha then .ok (scheme, rest) else .ok ([], text)
  | [], _ => .ok ([], text)

def isControl (b : UInt8) : Bool := b < 32 || b == 127

/-- Reads an address without a fragment. -/
def Url.parseWhole (inRequest : Bool) (text : Bytes) : Except UrlFault Url := do
  if text.any isControl then throw .control
  if text = bytesOf "*" then return ⟨[], [], text, text, []⟩
  let (scheme, rest) ← splitScheme text
  let (rest, query) := cut (isChar '?') rest
  let query := query.getD []
  let rooted := startsWith rest (bytesOf "/")
  if !rooted ∧ scheme ≠ [] then return ⟨scheme, [], [], [], query⟩
  if !rooted then
    if inRequest then throw .relative
    if (cut isSlash rest).1.any (isChar ':') then throw .colonFirst
  let hasHost := startsWith rest (bytesOf "//") &&
    (scheme ≠ [] || (!inRequest && !startsWith rest (bytesOf "///")))
  if hasHost then
    let authority := (rest.drop 2).takeWhile (!isSlash ·)
    let path := (rest.drop 2).dropWhile (!isSlash ·)
    let host ← parseAuthority authority
    return ⟨scheme, host, path, ← unescape .path path, query⟩
  else return ⟨scheme, [], rest, ← unescape .path rest, query⟩

/-- An address that cannot be read, and why not. -/
structure UrlError where
  text : Bytes
  fault : UrlFault
deriving Repr, DecidableEq

def UrlError.message (e : UrlError) : String :=
  "parse " ++ Text.Quoted.encodeBytes e.text ++ ": " ++ e.fault.message

/-- Reads a reference, of which the fragment is checked and left out. -/
def Url.parse (text : Bytes) : Except UrlError Url := do
  let (whole, fragment) := cut (isChar '#') text
  let url ← (Url.parseWhole false whole).mapError (⟨whole, ·⟩)
  let _ ← (unescape .fragment (fragment.getD [])).mapError (⟨text, ·⟩)
  return url

/-- The path as it was written, or escaped anew if it was not written properly. -/
def Url.escapedPath (u : Url) : Bytes :=
  if isPathText u.writtenPath then u.writtenPath
  else if u.path = bytesOf "*" then u.path else escapePath u.path

/-! ### Normal paths -/

def segmentMeaning (segment : Bytes) : Path.Meaning :=
  if segment = [] ∨ segment = bytesOf "." then .stay
  else if segment = bytesOf ".." then .up else .down

def joinSegments : List Bytes → Bytes
  | [] => []
  | segment :: rest => bytesOf "/" ++ segment ++ joinSegments rest

/-- The normal form of a rooted path, with the slash at its end if it had one. -/
def cleanPath (path : Bytes) : Bytes :=
  let kept := Path.normal segmentMeaning true (pieces isSlash path)
  let trailing := path.getLast?.any isSlash || path.isEmpty
  if kept.isEmpty then bytesOf "/"
  else joinSegments kept ++ if trailing then bytesOf "/" else []

end ClassAtlas.Web
