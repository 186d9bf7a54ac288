import ClassAtlas.Text.Digit
import ClassAtlas.Text.Letter
import ClassAtlas.Text.PlainText
import ClassAtlas.Text.Raw
import ClassAtlas.Text.Utf8
import ClassAtlas.Xref.Analysis

/-!
Documents of the index and the terms they are found by. Definitions and references
are terms as they stand; the full text gives its words, each literal, and the words
of each literal. Terms are not empty, at most 1024 bytes long, listed once, in order.
-/
namespace ClassAtlas.Index

/-- A searchable list of terms. -/
inductive Field where
  | defs | refs | full
deriving Repr, DecidableEq

namespace Field

def all : List Field := [defs, refs, full]

def name : Field → String
  | defs => "defs"
  | refs => "refs"
  | full => "full"

def ofName? (s : String) : Option Field := all.find? (·.name == s)

end Field

/-- An analyzed class. A list may be absent, which reading it back preserves. The path is
raw, being made of the names of files. -/
structure Document where
  path : RawText
  digest : String
  text : String
  definitions : Option (List String)
  references : Option (List String)
  literals : Option (List String)
deriving Repr, DecidableEq

namespace Document

def empty : Document := ⟨"", "", "", none, none, none⟩

/-- The document of an analysis. A class without literals has no list of them. -/
def ofAnalysis (path : RawText) (digest : String) (a : Xref.Analysis) : Document where
  path
  digest
  text := a.text
  definitions := some a.definitions
  references := some a.references
  literals := if a.literals.isEmpty then none else some a.literals

end Document

/-! ### Words -/

def isWordChar (c : Char) : Bool :=
  Text.letters.contains c || Text.digits.contains c ||
    c = '_' || c = '$' || c = '.' || c = '<' || c = '>'

/-- The longest runs of word characters. `word` holds the current one, last character first. -/
def wordsFrom (word : List Char) : List Char → List (List Char)
  | [] => if word.isEmpty then [] else [word.reverse]
  | c :: rest =>
    if isWordChar c then wordsFrom (c :: word) rest
    else if word.isEmpty then wordsFrom [] rest
    else word.reverse :: wordsFrom [] rest

def words (s : String) : List String := (wordsFrom [] s.toList).map String.ofList

/-! ### Terms -/

/-- The greatest length of a term, in bytes. -/
def maxTermSize : Nat := 1024

def isTerm (s : String) : Bool := s ≠ "" && Text.Utf8.size s ≤ maxTermSize

/-- The terms among some strings, each unless it is the one kept just before. -/
def keepTerms (last : Option String) : List String → List String
  | [] => []
  | s :: rest =>
    if !isTerm s || last = some s then keepTerms last rest else s :: keepTerms (some s) rest

/-- The terms among some strings, in order and without repetition. -/
def termsOf (xs : List String) : List String := keepTerms none (xs.mergeSort fun a b => decide (a ≤ b))

def Document.terms (d : Document) : Field → List String
  | .defs => termsOf (d.definitions.getD [])
  | .refs => termsOf (d.references.getD [])
  | .full =>
    termsOf (words (Text.plainText d.text) ++ (d.literals.getD []).flatMap fun l => l :: words l)

/-- The terms as the bytes they are kept under. -/
def Document.termKeys (d : Document) (f : Field) : List RawText := (d.terms f).map .ofString

/-- The list of the terms; without terms there is none. -/
def Document.termList (d : Document) (f : Field) : Option (List String) :=
  if (d.terms f).isEmpty then none else some (d.terms f)

end ClassAtlas.Index
