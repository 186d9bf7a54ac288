/-!
Errors. An error is a text of its own, one of the sentinels, or another error with words
around it. What an error wraps can be told from it later (`Error.is`); what it only
quotes is gone into its text. Failures are counted by kind, and the kind of an error is
that of the first sentinel it wraps, in a fixed order (`Error.kind`).
-/
namespace ClassAtlas

/-- The errors that are told by what they are and not by their text. -/
inductive Sentinel where
  | truncatedInput | malformedContainer | malformedConstant | malformedModel
  | invalidDescriptor
  | entryTooLarge
  /-- There is nothing left to read. -/
  | endOfInput
  /-- What is being read ended halfway. -/
  | unexpectedEnd
deriving Repr, DecidableEq

def Sentinel.text : Sentinel → String
  | truncatedInput => "truncated class file"
  | malformedContainer => "malformed class file"
  | malformedConstant => "malformed constant"
  | malformedModel => "malformed class model"
  | invalidDescriptor => "invalid descriptor"
  | entryTooLarge => "archive entry too large"
  | endOfInput => "EOF"
  | unexpectedEnd => "unexpected EOF"

/-- Kinds of failure by which reports count. -/
inductive Kind where
  | truncatedInput | malformedContainer | malformedConstant | malformedModel | io
deriving Repr, DecidableEq

def Kind.name : Kind → String
  | truncatedInput => "truncated-input"
  | malformedContainer => "malformed-container"
  | malformedConstant => "malformed-constant"
  | malformedModel => "malformed-class-model"
  | io => "io"

/-- All kinds, in the order of their names. -/
def Kind.all : List Kind := [io, malformedModel, malformedConstant, malformedContainer, truncatedInput]

inductive Error where
  | text (text : String)
  | sentinel (sentinel : Sentinel)
  /-- Another error, with words before and after it. -/
  | wrap (before : String) (inner : Error) (after : String)
deriving Repr, DecidableEq

/-- A sentinel that says more after a colon. -/
def Sentinel.saying (s : Sentinel) (text : String) : Error := .wrap "" (.sentinel s) (": " ++ text)

namespace Error

/-- An error with a label in front. -/
def under (label : String) (e : Error) : Error := .wrap (label ++ ": ") e ""

def message : Error → String
  | text t => t
  | sentinel s => s.text
  | wrap before inner after => before ++ inner.message ++ after

/-- The error and all that it wraps, from the outside in. -/
def chain : Error → List Error
  | text t => [.text t]
  | sentinel s => [.sentinel s]
  | wrap before inner after => .wrap before inner after :: inner.chain

/-- The sentinel is among what the error wraps. -/
def is (e : Error) (s : Sentinel) : Bool := e.chain.contains (.sentinel s)

/-- The input ended, at once or halfway. -/
def isEnd (e : Error) : Bool := e.is .endOfInput || e.is .unexpectedEnd

/-- Anything that is not a failure of the analysis itself counts as one of input and output. -/
def kind (e : Error) : Kind :=
  if e.is .truncatedInput then .truncatedInput
  else if e.is .malformedContainer then .malformedContainer
  else if e.is .malformedConstant then .malformedConstant
  else if e.is .malformedModel then .malformedModel
  else .io

theorem mem_chain_self (e : Error) : e ∈ e.chain := by
  cases e <;> exact List.mem_cons_self

theorem mem_chain_under (label : String) (e : Error) : e ∈ (e.under label).chain :=
  List.mem_cons_of_mem _ e.mem_chain_self

/-! ### What words around an error change -/

@[simp] theorem is_text (text : String) (s : Sentinel) : (Error.text text).is s = false := rfl

@[simp] theorem is_sentinel (t s : Sentinel) : (sentinel t).is s = decide (t = s) := by
  cases t <;> cases s <;> rfl

@[simp] theorem is_wrap (before after : String) (e : Error) (s : Sentinel) :
    (wrap before e after).is s = e.is s := by
  unfold is
  rw [chain, List.contains_cons]
  rfl

@[simp] theorem kind_wrap (before after : String) (e : Error) : (wrap before e after).kind = e.kind := by
  simp only [kind, is_wrap]

@[simp] theorem kind_saying (s : Sentinel) (text : String) : (s.saying text).kind = (sentinel s).kind :=
  kind_wrap ..

@[simp] theorem kind_under (label : String) (e : Error) : (e.under label).kind = e.kind := kind_wrap ..

end Error
end ClassAtlas
