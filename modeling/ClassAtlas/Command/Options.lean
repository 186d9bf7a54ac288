import ClassAtlas.Command.Flag
import ClassAtlas.Diff.Unified

/-!
The commands of the program, their flags and the number of their arguments. Some flags
belong to every command and override settings; an override that was not given is absent.
-/
namespace ClassAtlas.Command

structure Options where
  urlPrefix : Option String := none
  database : Option String := none
  workers : Option Int := none
  cacheSize : Option Int := none
  verbosity : Option Int := none
  help : Bool := false
  format : String := "html"
  field : String := "defs"
  context : Int := Diff.defaultContext
  html : Bool := false
  errors : Bool := false
  debounce : Int := 100000000
  initial : Bool := true
  address : String := ":8080"
deriving Repr, DecidableEq

/-- The flags of every command. -/
def sharedFlags : List (Flag Options) :=
  [.text "url-prefix" none fun v o => { o with urlPrefix := some v },
   .text "db" none fun v o => { o with database := some v },
   .number "workers" (some 'j') fun v o => { o with workers := some v },
   .number "cache-size" none fun v o => { o with cacheSize := some v },
   .count "verbose" (some 'v') (·.verbosity.getD 0) fun v o => { o with verbosity := some v }]

def helpFlag : Flag Options := .toggle "help" (some 'h') fun v o => { o with help := v }

inductive Verb where
  | analyze
  | index
  | search
  | diff
  | watch
  | serve
deriving Repr, DecidableEq

namespace Verb

def all : List Verb := [analyze, index, search, diff, watch, serve]

def name : Verb → String
  | analyze => "analyze"
  | index => "index"
  | search => "search"
  | diff => "diff"
  | watch => "watch"
  | serve => "serve"

def ownFlags : Verb → List (Flag Options)
  | analyze => [.text "format" (some 'f') fun v o => { o with format := v }]
  | index => [.toggle "errors" none fun v o => { o with errors := v }]
  | search => [.text "field" (some 'F') fun v o => { o with field := v }]
  | diff =>
    [.number "context" (some 'U') fun v o => { o with context := v },
     .toggle "html" none fun v o => { o with html := v }]
  | watch =>
    [.duration "debounce" none fun v o => { o with debounce := v },
     .toggle "initial" none fun v o => { o with initial := v }]
  | serve => [.text "addr" (some 'a') fun v o => { o with address := v }]

def flags (v : Verb) : List (Flag Options) := v.ownFlags ++ helpFlag :: sharedFlags

end Verb

/-! ### Arguments -/

/-- How many arguments a command takes. -/
inductive Arity where
  | none
  | exactly (n : Nat)
  | atLeast (n : Nat)
deriving Repr, DecidableEq

def Verb.arity : Verb → Arity
  | .analyze => .atLeast 1
  | .diff => .exactly 2
  | .serve => .none
  | .index | .search | .watch => .exactly 1

end ClassAtlas.Command
