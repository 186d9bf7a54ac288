import ClassAtlas.Decimal.Integer
import ClassAtlas.Text.Blank
import ClassAtlas.Text.Quoted

/-!
Settings of the program, read from named variables. Blanks around a value do not
count, a variable that is blank is as good as unset, and the first bad number, in
the order workers, cache, verbosity, is the one reported.
-/
namespace ClassAtlas

/-- `workers` is left open when nothing sets it: then it is the number of processors. -/
structure Settings where
  urlPrefix : String
  database : String
  workers : Option Nat
  cacheSize : Nat
  verbosity : Int
deriving Repr, DecidableEq

namespace Settings

def standard : Settings := ⟨"/source/s?", "classxref.db", none, 1024, 0⟩

inductive Fault where
  | number (key value : String) (fault : Decimal.IntegerFault)
  | notPositive (key : String) (value : Int)
deriving Repr, DecidableEq

/-- The message about a text that is no number. -/
def numberMessage (reader value : String) (fault : Decimal.IntegerFault) : String :=
  "strconv." ++ reader ++ ": parsing " ++ Text.Quoted.encode value ++ ": " ++ fault.message

def Fault.message : Fault → String
  | number key value fault => key ++ ": " ++ numberMessage "Atoi" value fault
  | notPositive key value => key ++ ": must be positive, got " ++ toString value

/-- Values of variables; an unset one is empty. -/
abbrev Environment := String → String

/-- The variables that settings are read from. -/
def variableNames : List String :=
  ["CLASSXREF_URL_PREFIX", "CLASSXREF_DB", "CLASSXREF_WORKERS", "CLASSXREF_CACHE_SIZE", "CLASSXREF_VERBOSITY"]

/-- A variable's value without blanks at its ends, unless nothing is left of it. -/
def value? (env : Environment) (key : String) : Option String :=
  let v := Text.trim (env key)
  if v = "" then none else some v

/-- A variable that holds a number, if it is set. -/
def integer? (env : Environment) (key : String) : Except Fault (Option Int) :=
  match value? env key with
  | none => .ok none
  | some v => (some <$> Decimal.Integer.parse v).mapError (.number key v)

/-- A variable that holds a positive number, if it is set. -/
def positive? (env : Environment) (key : String) : Except Fault (Option Nat) := do
  match ← integer? env key with
  | none => return none
  | some n => if n ≤ 0 then throw (.notPositive key n) else return some n.toNat

def ofEnvironment (env : Environment) : Except Fault Settings := do
  let workers ← positive? env "CLASSXREF_WORKERS"
  let cacheSize ← positive? env "CLASSXREF_CACHE_SIZE"
  let verbosity ← integer? env "CLASSXREF_VERBOSITY"
  return {
    urlPrefix := (value? env "CLASSXREF_URL_PREFIX").getD standard.urlPrefix
    database := (value? env "CLASSXREF_DB").getD standard.database
    workers
    cacheSize := cacheSize.getD standard.cacheSize
    verbosity := verbosity.getD standard.verbosity }

end Settings
end ClassAtlas
