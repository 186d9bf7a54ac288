import ClassAtlas.Command.Duration
import ClassAtlas.Command.Numeral
import ClassAtlas.Settings

/-!
Flags on a command line. A flag has a name behind two dashes and may have a letter
behind one. Its value follows an equals sign or is the next argument; a flag that means
something alone never takes the next argument. Letters can be run together, and the
value of the last one may follow it directly. Two dashes alone end the flags.

A flag acts on options of any type, so that a command is described by a list of flags.
-/
namespace ClassAtlas.Command

/-- Why a value is refused. -/
inductive ValueFault where
  | number (fault : Decimal.IntegerFault)
  | truth
  | duration (fault : Duration.Fault)
deriving Repr, DecidableEq

def ValueFault.message (value : String) : ValueFault → String
  | number fault => Settings.numberMessage "ParseInt" value fault
  | truth => Settings.numberMessage "ParseBool" value .malformed
  | duration fault => fault.message value

/-- A flag; `alone` is the value it has when none is given. -/
structure Flag (ω : Type) where
  name : String
  letter : Option Char
  alone : Option String
  set : String → ω → Except ValueFault ω

namespace Flag

def text (name : String) (letter : Option Char) (set : String → ω → ω) : Flag ω :=
  ⟨name, letter, none, fun v o => .ok (set v o)⟩

def number (name : String) (letter : Option Char) (set : Int → ω → ω) : Flag ω :=
  ⟨name, letter, none, fun v o => ((Numeral.parse v).mapError .number).map (set · o)⟩

def duration (name : String) (letter : Option Char) (set : Int → ω → ω) : Flag ω :=
  ⟨name, letter, none, fun v o => ((Duration.parse v).mapError .duration).map (set · o)⟩

/-- The words for true and false. -/
def truth? (s : String) : Option Bool :=
  if s ∈ ["1", "t", "T", "TRUE", "true", "True"] then some true
  else if s ∈ ["0", "f", "F", "FALSE", "false", "False"] then some false
  else none

def toggle (name : String) (letter : Option Char) (set : Bool → ω → ω) : Flag ω :=
  ⟨name, letter, some "true", fun v o =>
    match truth? v with
    | some b => .ok (set b o)
    | none => .error .truth⟩

/-- A flag that counts how often it is given, unless it is given a number. -/
def count (name : String) (letter : Option Char) (get : ω → Int) (set : Int → ω → ω) : Flag ω :=
  ⟨name, letter, some "+1", fun v o =>
    if v = "+1" then .ok (set (get o + 1) o)
    else ((Numeral.parse v).mapError .number).map (set · o)⟩

/-- What messages call a flag. -/
def title (f : Flag ω) : String :=
  match f.letter with
  | some c => "-" ++ String.singleton c ++ ", --" ++ f.name
  | none => "--" ++ f.name

end Flag

/-- What is wrong with an argument. -/
inductive FlagError where
  | malformed (argument : String)
  | unknown (name : String)
  | unknownLetter (letter : Char) (letters : String)
  | missing (name : String)
  | missingLetter (letter : Char) (letters : String)
  | refused (title value : String) (fault : ValueFault)
deriving Repr, DecidableEq

/-- How a message shows a letter: every one outside ASCII as the same. -/
def shown (c : Char) : String := Text.Quoted.encodeSingle (if c.toNat < 0x80 then c else 'Ã')

def FlagError.message : FlagError → String
  | malformed argument => "bad flag syntax: " ++ argument
  | unknown name => "unknown flag: --" ++ name
  | unknownLetter letter letters => "unknown shorthand flag: " ++ shown letter ++ " in -" ++ letters
  | missing name => "flag needs an argument: --" ++ name
  | missingLetter letter letters => "flag needs an argument: " ++ shown letter ++ " in -" ++ letters
  | refused title value fault =>
    "invalid argument " ++ Text.Quoted.encode value ++ " for " ++ Text.Quoted.encode title ++ " flag: " ++
      fault.message value

namespace Flag

def apply (f : Flag ω) (value : String) (o : ω) : Except FlagError ω :=
  (f.set value o).mapError (.refused f.title value)

/-- What an argument with flags comes to: it is done with, or its last flag wants the
next argument for a value and fails with `otherwise` if there is none. -/
inductive Taken (ω : Type) where
  | done (options : ω)
  | wants (flag : Flag ω) (options : ω) (otherwise : FlagError)

/-- Reads what follows two dashes. -/
def readName (flags : List (Flag ω)) (argument : String) (cs : List Char) (o : ω) :
    Except FlagError (Taken ω) :=
  let name := String.ofList (cs.takeWhile (· ≠ '='))
  if name = "" ∨ name.startsWith "-" then .error (.malformed argument)
  else match flags.find? (·.name == name) with
    | none => .error (.unknown name)
    | some f =>
      match cs.dropWhile (· ≠ '='), f.alone with
      | _ :: value, _ => .done <$> f.apply (String.ofList value) o
      | [], some value => .done <$> f.apply value o
      | [], none => .ok (.wants f o (.missing name))

/-- Reads what follows one dash. Letters that begin with `test.` mean nothing here. -/
def readLetters (flags : List (Flag ω)) : List Char → ω → Except FlagError (Taken ω)
  | [], o => .ok (.done o)
  | c :: rest, o =>
    if "test.".toList.isPrefixOf (c :: rest) then .ok (.done o)
    else match flags.find? (·.letter == some c) with
      | none => .error (.unknownLetter c (String.ofList (c :: rest)))
      | some f =>
        match rest, f.alone with
        | '=' :: v :: value, _ => .done <$> f.apply (String.ofList (v :: value)) o
        | rest, some value =>
          match f.apply value o with
          | .ok o => readLetters flags rest o
          | .error e => .error e
        | [], none => .ok (.wants f o (.missingLetter c (String.singleton c)))
        | value, none => .done <$> f.apply (String.ofList value) o

/-- Reads all arguments: the options they set, and the arguments that are no flags. -/
def readAll (flags : List (Flag ω)) : List String → ω → Except FlagError (ω × List String)
  | [], o => .ok (o, [])
  | argument :: rest, o =>
    let next (taken : Except FlagError (Taken ω)) : Except FlagError (ω × List String) :=
      match taken with
      | .error e => .error e
      | .ok (.done o) => readAll flags rest o
      | .ok (.wants f o otherwise) =>
        match rest with
        | [] => .error otherwise
        | value :: rest =>
          match f.apply value o with
          | .ok o => readAll flags rest o
          | .error e => .error e
    match argument.toList with
    | ['-', '-'] => .ok (o, rest)
    | '-' :: '-' :: cs => next (readName flags argument cs o)
    | '-' :: c :: cs => next (readLetters flags (c :: cs) o)
    | _ => (readAll flags rest o).map fun (o, others) => (o, argument :: others)

end Flag
end ClassAtlas.Command
