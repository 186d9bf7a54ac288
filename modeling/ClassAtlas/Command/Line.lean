import ClassAtlas.Command.Options
import ClassAtlas.Path

/-!
A whole command line. The command is the first argument that is neither a flag nor the
value of one, going by the flags that every command has; a word that names no command
is answered with the names it may have been meant for.
-/
namespace ClassAtlas.Command

def programName : String := "classxref"

/-! ### The word that names the command -/

/-- Whether an argument takes the next one for its value, as far as shared flags go. -/
def takesNext (argument : String) : Bool :=
  let standsAlone (p : Flag Options → Bool) : Bool := sharedFlags.any fun f => p f && f.alone.isSome
  !argument.contains '=' &&
    match argument.toList with
    | '-' :: '-' :: name => !standsAlone (·.name.toList == name)
    | ['-', c] => c.toNat < 0x80 && !standsAlone (·.letter == some c)
    | _ => false

/-- The arguments that are neither flags nor values of flags. The last argument is never
looked at as a value. -/
def words : List String → List String
  | [] => []
  | argument :: rest =>
    if argument = "--" then []
    else if takesNext argument then
      match rest with
      | _ :: others => if others.isEmpty then [] else words others
      | [] => []
    else if argument = "" ∨ argument.startsWith "-" then words rest
    else argument :: words rest

/-- The arguments without the first that is the given word and no value of a flag. -/
def withoutWord (word : String) : List String → List String
  | [] => []
  | argument :: rest =>
    if argument = "--" then argument :: rest
    else if takesNext argument then
      match rest with
      | value :: others => argument :: value :: withoutWord word others
      | [] => [argument]
    else if argument = word then rest
    else argument :: withoutWord word rest

/-- What the first word asks for. Texts about the program are not among its answers. -/
inductive Topic where
  | verb (verb : Verb)
  | help
  | completion
deriving Repr, DecidableEq

def Topic.ofName? (name : String) : Option Topic :=
  match Verb.all.find? (·.name == name) with
  | some v => some (.verb v)
  | none =>
    if name = "help" then some .help else if name = "completion" then some .completion else none

/-! ### Suggestions -/

/-- One row of the table of distances: from the row above and the distance at its left end. -/
def distanceRow (b : UInt8) (left : Nat) : (diagonal : Nat) → Bytes → List Nat → List Nat
  | diagonal, a :: rest, up :: above =>
    let d := if a = b then diagonal else min (min up left) diagonal + 1
    d :: distanceRow b d up rest above
  | _, _, _ => []

/-- The least number of bytes to insert, delete or replace to get from one text to another. -/
def distance (a b : Bytes) : Nat :=
  let first := List.range (a.length + 1)
  let last := b.foldl (fun row c =>
    let left := row.headD 0 + 1
    left :: distanceRow c left (row.headD 0) a row.tail) first
  last.getLastD 0

def lowerCase (s : String) : String := String.ofList (s.toList.map Path.lower)

/-- Whether a name may have been meant by a word: it is at most two bytes off, or goes on
from the word. -/
def mayMean (word name : String) : Bool :=
  distance (Text.Utf8.encode (lowerCase word)) (Text.Utf8.encode name) ≤ 2 || name.startsWith (lowerCase word)

def suggestions (word : String) : List String :=
  (Verb.all.map Verb.name ++ ["completion"]).filter (mayMean word)

/-! ### Reading the line -/

inductive LineError where
  | unknownCommand (word : String)
  | flag (error : FlagError)
  | tooFew (least given : Nat)
  | wrongCount (wanted given : Nat)
  | unexpected (verb : Verb) (argument : String)
deriving Repr, DecidableEq

def unknownWord (word owner : String) : String :=
  "unknown command " ++ Text.Quoted.encode word ++ " for " ++ Text.Quoted.encode owner

def suggestionText : List String → String
  | [] => ""
  | names => "\n\nDid you mean this?\n" ++ String.join (names.map ("\t" ++ · ++ "\n"))

def LineError.message : LineError → String
  | unknownCommand word => unknownWord word programName ++ suggestionText (suggestions word)
  | flag error => error.message
  | tooFew least given =>
    "requires at least " ++ toString least ++ " arg(s), only received " ++ toString given
  | wrongCount wanted given => "accepts " ++ toString wanted ++ " arg(s), received " ++ toString given
  | unexpected verb argument => unknownWord argument (programName ++ " " ++ verb.name)

/-- What a line asks for. -/
inductive Request where
  | about
  | run (verb : Verb) (options : Options) (arguments : List String)
deriving Repr, DecidableEq

/-- Checks the number of a command's arguments. -/
def checkArguments (v : Verb) (arguments : List String) : Except LineError Unit :=
  match v.arity with
  | .none =>
    match arguments with
    | [] => .ok ()
    | a :: _ => .error (.unexpected v a)
  | .exactly n => if arguments.length = n then .ok () else .error (.wrongCount n arguments.length)
  | .atLeast n => if n ≤ arguments.length then .ok () else .error (.tooFew n arguments.length)

def readVerb (v : Verb) (arguments : List String) : Except LineError Request := do
  let (options, others) ← (Flag.readAll v.flags arguments {}).mapError .flag
  if options.help then return .about
  checkArguments v others
  return .run v options others

/-- Reads a line on which no command is named, or one about the program itself. -/
def readAbout (arguments : List String) : Except LineError Request := do
  let _ ← (Flag.readAll (helpFlag :: sharedFlags) arguments {}).mapError .flag
  return .about

def readLine (arguments : List String) : Except LineError Request :=
  match words arguments with
  | [] => readAbout arguments
  | word :: _ =>
    match Topic.ofName? word with
    | none => .error (.unknownCommand word)
    | some (.verb v) => readVerb v (withoutWord word arguments)
    | some .help => readAbout (withoutWord word arguments)
    | some .completion => .ok .about

end ClassAtlas.Command
