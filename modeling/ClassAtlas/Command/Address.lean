import ClassAtlas.Text.Utf8

/-!
Addresses to listen on: a host and a port with a colon between them, the host in brackets
if it has colons of its own. A port is a number or the name of a service. An address is
refused here as far as that can be told from the text alone.
-/
namespace ClassAtlas.Command.Address

inductive Shape where
  | missingPort
  | manyColons
  | missingBracket
  | strayOpening
  | strayClosing
deriving Repr, DecidableEq

inductive Fault where
  | shape (shape : Shape)
  | invalidPort (port : String)
  | unknownPort (port : String)
  | unknownHost (host : String)
deriving Repr, DecidableEq

def Shape.message : Shape → String
  | missingPort => "missing port in address"
  | manyColons => "too many colons in address"
  | missingBracket => "missing ']' in address"
  | strayOpening => "unexpected '[' in address"
  | strayClosing => "unexpected ']' in address"

def Fault.message (written : String) : Fault → String
  | shape s => "listen tcp: address " ++ written ++ ": " ++ s.message
  | invalidPort port => "listen tcp: address " ++ port ++ ": invalid port"
  | unknownPort port => "listen tcp: lookup tcp/" ++ port ++ ": unknown port"
  | unknownHost host => "listen tcp: lookup " ++ host ++ ": no such host"

/-! ### Host and port -/

/-- Splits what follows an opening bracket. -/
def splitBracket (cs : List Char) : Except Shape (List Char × List Char) :=
  match cs.dropWhile (· ≠ ']') with
  | [] => .error .missingBracket
  | _ :: ':' :: port =>
    if port.contains ':' then .error .manyColons
    else if cs.contains '[' then .error .strayOpening
    else if port.contains ']' then .error .strayClosing
    else .ok (cs.takeWhile (· ≠ ']'), port)
  | _ => .error .missingPort

/-- Splits an address at its only colon. -/
def splitColon (cs : List Char) : Except Shape (List Char × List Char) :=
  let port := (cs.dropWhile (· ≠ ':')).tail
  if port.contains ':' then .error .manyColons
  else if cs.contains '[' then .error .strayOpening
  else if cs.contains ']' then .error .strayClosing
  else .ok (cs.takeWhile (· ≠ ':'), port)

def split (cs : List Char) : Except Shape (List Char × List Char) :=
  if !cs.contains ':' then .error .missingPort
  else match cs with
    | '[' :: rest => splitBracket rest
    | cs => splitColon cs

/-! ### Ports -/

/-- The number that digits spell, in 32 bits; from `2 ^ 30` on, all are too large. Digits
behind such a number are not looked at. -/
def portNumber? (n : Nat) : List Char → Option Nat
  | [] => some n
  | c :: rest =>
    if !c.isDigit then none
    else if Nat.pow 2 30 ≤ n then some n
    else
      let shifted := n * 10 % Nat.pow 2 32
      let next := shifted + (c.toNat - '0'.toNat)
      if Nat.pow 2 32 ≤ next then some next else portNumber? next rest

/-- Services that are known by name. -/
def services : List String :=
  ["domain", "ftp", "ftps", "gopher", "http", "https", "imap2", "imap3", "imaps", "pop3", "pop3s",
   "smtp", "submissions", "ssh", "telnet"]

def checkPort (port : String) : Except Fault Unit :=
  let cs := port.toList
  let negative := cs.head? = some '-'
  match portNumber? 0 (if negative ∨ cs.head? = some '+' then cs.tail else cs) with
  | some n => if n ≤ 65535 ∧ (n = 0 ∨ ¬negative) then .ok () else .error (.invalidPort port)
  | none => if services.contains (String.ofList (cs.map Char.toLower)) then .ok () else .error (.unknownPort port)

/-! ### Hosts -/

def isOctet (cs : List Char) : Bool :=
  !cs.isEmpty && cs.all Char.isDigit && cs.length ≤ 3 && (cs.length == 1 || cs.head? != some '0') &&
    cs.foldl (fun n c => n * 10 + (c.toNat - '0'.toNat)) 0 ≤ 255

/-- Four numbers between points. -/
def isNumericHost (host : String) : Bool :=
  let parts := (host.splitOn ".").map String.toList
  parts.length == 4 && parts.all isOctet

/-- A label of a host's name: letters, digits, underscores, and dashes inside. -/
def isLabel (cs : List Char) : Bool :=
  !cs.isEmpty && cs.length ≤ 63 && cs.all (fun c => c.isAlphanum || c = '_' || c = '-') &&
    cs.head? != some '-' && cs.getLast? != some '-'

/-- A name that can be looked up: labels between points, perhaps a point at the end, and
something other than digits in it. -/
def isHostName (host : String) : Bool :=
  let size := Text.Utf8.size host
  let labels := (host.splitOn ".").map String.toList
  let labels := if labels.getLast? = some [] then labels.dropLast else labels
  host == "." ||
    ((size ≤ 253 || size == 254 && host.endsWith ".") && !labels.isEmpty && labels.all isLabel &&
      labels.any (·.any (!·.isDigit)))

/-- A host with colons is an address of its own kind and taken as it is. -/
def checkHost (host : String) : Except Fault Unit :=
  if host = "" || host.contains ':' || isNumericHost host || isHostName host then .ok ()
  else .error (.unknownHost host)

/-- Checks an address; an empty one means the standard port. -/
def check (address : String) : Except Fault Unit := do
  if address = "" then return
  let (host, port) ← (split address.toList).mapError .shape
  checkPort (String.ofList port)
  checkHost (String.ofList host)

end ClassAtlas.Command.Address
